import Mathlib.Data.List.Nodup
import Mathlib.Data.Tree.Basic
import Mathlib.Order.Lattice

/-! # Lookup in a search tree

A search tree holds records that have a key each. The lookup goes down from the
root and compares keys. Whatever the shape of the tree, it finds what a search
through the list of the records finds.
-/

namespace SearchTree

variable {α κ : Type*}

def inorder : BinaryTree α → List α
  | .nil => []
  | .node x left right => inorder left ++ x :: inorder right

/-- The keys do not decrease from left to right. -/
def Ordered [LE κ] (key : α → κ) (t : BinaryTree α) : Prop :=
  ((inorder t).map key).Pairwise (· ≤ ·)

instance [LE κ] [DecidableLE κ] (key : α → κ) (t : BinaryTree α) : Decidable (Ordered key t) :=
  inferInstanceAs (Decidable (List.Pairwise _ _))

variable [LinearOrder κ] {key : α → κ}

def lookup (key : α → κ) (k : κ) : BinaryTree α → Option α
  | .nil => none
  | .node x left right =>
    if k < key x then lookup key k left
    else if key x < k then lookup key k right
    else some x

/-- Where the keys increase, the lookup finds what is in the traversal. -/
theorem lookup_eq_find_inorder {t : BinaryTree α} (h : ((inorder t).map key).Pairwise (· < ·))
    (k : κ) : lookup key k t = (inorder t).find? fun x => decide (key x = k) := by
  induction t with
  | nil => rfl
  | node x left right ihLeft ihRight =>
    simp only [inorder, List.map_append, List.map_cons] at h
    obtain ⟨hLeft, hRight, hAcross⟩ := List.pairwise_append.mp h
    obtain ⟨hRoot, hRight⟩ := List.pairwise_cons.mp hRight
    have hBelow : ∀ y ∈ inorder left, key y < key x := fun y hy =>
      hAcross _ (List.mem_map_of_mem hy) _ List.mem_cons_self
    have hAbove : ∀ y ∈ inorder right, key x < key y := fun y hy =>
      hRoot _ (List.mem_map_of_mem hy)
    rw [lookup, inorder, List.find?_append, List.find?_cons]
    obtain hLt | rfl | hGt := lt_trichotomy k (key x)
    · have hNone : (inorder right).find? (fun y => decide (key y = k)) = none := by
        simpa using fun y hy => (hLt.trans (hAbove y hy)).ne'
      simp [hLt, ihLeft hLeft, hLt.ne', hNone]
    · have hNone : (inorder left).find? (fun y => decide (key y = key x)) = none := by
        simpa using fun y hy => (hBelow y hy).ne
      simp [hNone]
    · have hNone : (inorder left).find? (fun y => decide (key y = k)) = none := by
        simpa using fun y hy => ((hBelow y hy).trans hGt).ne
      simp [hGt, hGt.asymm, ihRight hRight, hGt.ne, hNone]

theorem find_eq_some_iff {l : List α} (hNodup : (l.map key).Nodup) {k : κ} {x : α} :
    l.find? (fun x => decide (key x = k)) = some x ↔ x ∈ l ∧ key x = k := by
  constructor
  · intro h
    exact ⟨List.mem_of_find?_eq_some h, by simpa using List.find?_some h⟩
  · rintro ⟨hMem, rfl⟩
    cases hFind : l.find? fun y => decide (key y = key x) with
    | none => simpa using List.find?_eq_none.mp hFind x hMem
    | some y =>
      have hKey : key y = key x := by simpa using List.find?_some hFind
      exact congrArg some
        (List.inj_on_of_nodup_map hNodup (List.mem_of_find?_eq_some hFind) hMem hKey)

theorem find_perm {l l' : List α} (hPerm : l.Perm l') (hNodup : (l'.map key).Nodup) (k : κ) :
    l.find? (fun x => decide (key x = k)) = l'.find? fun x => decide (key x = k) := by
  apply Option.ext
  intro x
  rw [find_eq_some_iff ((hPerm.map key).nodup_iff.mpr hNodup), find_eq_some_iff hNodup,
    hPerm.mem_iff]

theorem lookup_eq_find {t : BinaryTree α} {l : List α} (hOrdered : Ordered key t)
    (hHolds : (inorder t).Perm l) (hNodup : (l.map key).Nodup) (k : κ) :
    lookup key k t = l.find? fun x => decide (key x = k) := by
  have hDistinct : ((inorder t).map key).Nodup := (hHolds.map key).nodup_iff.mpr hNodup
  have hIncreasing : ((inorder t).map key).Pairwise (· < ·) := by
    apply (hOrdered.and hDistinct).imp
    rintro a b ⟨hLe, hNe⟩
    exact lt_of_le_of_ne hLe hNe
  rw [lookup_eq_find_inorder hIncreasing, find_perm hHolds hNodup]

/-- The records of a list, each at the right of the one before it. -/
def spine : List α → BinaryTree α
  | [] => .nil
  | x :: xs => .node x .nil (spine xs)

theorem inorder_spine (l : List α) : inorder (spine l) = l := by
  induction l with
  | nil => rfl
  | cons x xs ih => rw [spine, inorder, inorder, ih, List.nil_append]

theorem exists_tree (key : α → κ) (l : List α) : ∃ t, Ordered key t ∧ (inorder t).Perm l := by
  have hSorted : (l.mergeSort fun x y => decide (key x ≤ key y)).Pairwise fun x y =>
      decide (key x ≤ key y) = true :=
    List.pairwise_mergeSort (by simpa using fun _ _ _ => le_trans)
      (by simpa using fun _ _ => le_total _ _) l
  refine ⟨spine (l.mergeSort fun x y => decide (key x ≤ key y)), ?_, ?_⟩
  · rw [Ordered, inorder_spine, List.pairwise_map]
    simpa using hSorted
  · rw [inorder_spine]
    exact l.mergeSort_perm _

end SearchTree

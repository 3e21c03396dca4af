import Mathlib.Data.Nat.Basic
import GrpcClient.Lib.SearchTree
import GrpcClient.Waits

/-! # The tree of the ongoing tasks

nginx holds the ongoing tasks in a red-black tree, and `ngx_grpc_cli_lookup_task`
goes down from its root. All that is used of the tree is that nginx keeps it in
the order of its keys, with the nodes that were inserted and not deleted.
-/

namespace GrpcClient

open Fallible SearchTree

namespace State

/-- What `ngx_rbtree_insert` and `ngx_rbtree_delete` keep. -/
structure KeepsTasks (s : State) (tree : BinaryTree Node) : Prop where
  ordered : Ordered Node.key tree
  holds : (inorder tree).Perm s.cli.ongoingTasks

instance (s : State) (tree : BinaryTree Node) : Decidable (s.KeepsTasks tree) :=
  decidable_of_iff (Ordered Node.key tree ∧ (inorder tree).Perm s.cli.ongoingTasks)
    ⟨fun h => ⟨h.1, h.2⟩, fun h => ⟨h.ordered, h.holds⟩⟩

/-- `threadPostEventHandler` with the loop of `ngx_grpc_cli_lookup_task`. -/
def threadPostEventHandlerOn (tree : BinaryTree Node) (s : State) : Except Stop State :=
  if s.draining then
    match s.thread.occupied with
    | [] => .ok { s with draining := false }
    | r :: occupied =>
      let thread := { s.thread with
        occupied, free := s.thread.free ++ [r], processed := s.thread.processed ++ [r] }
      match lookup Node.key r.taskId tree with
      | none => .ok { s with thread, mem := s.mem.freeBuf r.buf }
      | some _ => do
        let (freed, cli) ← s.cli.deliver r
        .ok { s with cli, thread, mem := s.mem.freeBuf freed }
  else .error .blocked

def stepOn (tree : BinaryTree Node) (s : State) (a : Action) : Except Stop State :=
  match a with
  | .drain => s.threadPostEventHandlerOn tree
  | a => s.step a

/-- A run of the worker with its tree. nginx may give the tree any shape. -/
inductive TreeRun (ok : State → Action → Prop) : State → BinaryTree Node → Prop
  | init : TreeRun ok init .nil
  | step {s t : State} {tree tree' : BinaryTree Node} {a : Action} (hRun : TreeRun ok s tree)
      (hOk : ok s a) (hStep : s.stepOn tree a = .ok t) (hKeeps : t.KeepsTasks tree') :
      TreeRun ok t tree'

variable {s : State} {tree : BinaryTree Node} {ok : State → Action → Prop}

theorem KeepsTasks.lookup_eq (h : s.KeepsTasks tree) (hv : s.Valid) (p : Ptr) :
    lookup Node.key p tree = s.cli.lookupTask p :=
  lookup_eq_find h.ordered h.holds hv.cli.registry.keys_nodup p

theorem KeepsTasks.stepOn_eq (h : s.KeepsTasks tree) (hv : s.Valid) (a : Action) :
    s.stepOn tree a = s.step a := by
  cases a with
  | drain =>
    simp only [stepOn, threadPostEventHandlerOn, h.lookup_eq hv]
    rfl
  | _ => rfl

theorem TreeRun.keeps (h : TreeRun ok s tree) : s.KeepsTasks tree := by
  cases h with
  | init => exact ⟨.nil, .nil⟩
  | step _ _ _ hKeeps => exact hKeeps

theorem TreeRun.run (h : TreeRun ok s tree) : Run ok s := by
  induction h with
  | init => exact .refl
  | step hRun hOk hStep _ ih =>
    rw [hRun.keeps.stepOn_eq ih.valid] at hStep
    exact .tail ih hOk hStep

theorem KeepsTasks.of_init (h : init.KeepsTasks tree) : tree = .nil := by
  cases tree with
  | nil => rfl
  | node n left right => simpa [inorder] using h.holds.eq_nil

theorem Run.treeRun (h : Run ok s) (hKeeps : s.KeepsTasks tree) : TreeRun ok s tree := by
  induction h generalizing tree with
  | refl =>
    rw [hKeeps.of_init]
    exact .init
  | @tail s t a hRun hOk hStep ih =>
    -- the tree before the step is one of many
    obtain ⟨before, hOrdered, hHolds⟩ := exists_tree Node.key s.cli.ongoingTasks
    have hBefore : s.KeepsTasks before := ⟨hOrdered, hHolds⟩
    rw [← hBefore.stepOn_eq (Run.valid hRun)] at hStep
    exact .step (ih hBefore) hOk hStep hKeeps

/-- The worker with a tree comes to the states of the worker with a list of its
tasks, and in each of them to every tree that holds the tasks. -/
theorem tree_refined : TreeRun ok s tree ↔ Run ok s ∧ s.KeepsTasks tree := by
  constructor
  · exact fun h => ⟨h.run, h.keeps⟩
  · rintro ⟨hRun, hKeeps⟩
    exact hRun.treeRun hKeeps

/-- Down any tree the loop comes to the node of an sctx if a coroutine waits on it,
and to no other node. -/
theorem lookup_finds_waiter (h : TreeRun ok s tree) (p : Ptr) :
    (∀ n, lookup Node.key p tree = some n → n.key = p ∧
      ∃ sc, s.cli.sctxs p = some sc ∧ sc.node = some n.addr) ∧
    ((lookup Node.key p tree).isSome ↔ ∃ co f, s.cli.frames co = some f ∧ f.sctx = p) := by
  have hv := h.run.valid
  rw [h.keeps.lookup_eq hv]
  constructor
  · intro n hFind
    have hKey : n.key = p := by simpa using List.find?_some hFind
    obtain ⟨sc, hsc, hNode⟩ := hv.cli.registry.node_sctx n (List.mem_of_find?_eq_some hFind)
    exact ⟨hKey, sc, hKey ▸ hsc, hNode⟩
  · exact hv.cli.lookupTask_isSome p

/-- Two calls wait, and the node of the second is the root. -/
def twoWaiting : List Action := [
  .connect (some 1) (.ok []) 50,
  .call 0 1 7 true ⟨true, none, true, some 100, some 10⟩,
  .call 0 2 7 true ⟨true, none, true, some 101, some 11⟩]

theorem lookup_finds_waiter_twoWaiting :
    ∃ s : State, s.cli.ongoingTasks = [⟨101, 11⟩, ⟨100, 10⟩] ∧
      ((lookup Node.key 10 (.node ⟨101, 11⟩ (.node ⟨100, 10⟩ .nil .nil) .nil)).isSome ↔
        ∃ co f, s.cli.frames co = some f ∧ f.sctx = 10) := by
  have hRun := run_after (fun _ _ => True) twoWaiting (by decide +kernel)
  have hTree : TreeRun _ _ (.node ⟨101, 11⟩ (.node ⟨100, 10⟩ .nil .nil) .nil) :=
    hRun.treeRun (by decide +kernel)
  exact ⟨_, by decide +kernel, (lookup_finds_waiter hTree 10).2⟩

end State

end GrpcClient

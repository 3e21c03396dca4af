import Mathlib.Data.Nat.Digits.Defs

/-! # Words in memory

A word is stored as a fixed number of bytes in one of two byte orders. A record
of several words is written into a buffer field by field, records of one size
follow each other in an array, and the low bits of an aligned address carry a
tag.
-/

namespace Words

inductive ByteOrder
  | littleEndian
  | bigEndian
deriving DecidableEq, Repr

/-- The `n` low bytes of `x`, the least significant one first. -/
def bytesLE : Nat → Nat → List UInt8
  | 0, _ => []
  | n + 1, x => UInt8.ofNat (x % 256) :: bytesLE n (x / 256)

def ofBytesLE (bs : List UInt8) : Nat := Nat.ofDigits 256 (bs.map UInt8.toNat)

def ByteOrder.store (order : ByteOrder) (n x : Nat) : List UInt8 :=
  match order with
  | .littleEndian => bytesLE n x
  | .bigEndian => (bytesLE n x).reverse

def ByteOrder.load (order : ByteOrder) (bs : List UInt8) : Nat :=
  match order with
  | .littleEndian => ofBytesLE bs
  | .bigEndian => ofBytesLE bs.reverse

@[simp] theorem length_bytesLE (n x : Nat) : (bytesLE n x).length = n := by
  induction n generalizing x with
  | zero => rfl
  | succ n ih => simp [bytesLE, ih]

theorem ofBytesLE_bytesLE (n x : Nat) : ofBytesLE (bytesLE n x) = x % 256 ^ n := by
  induction n generalizing x with
  | zero => simp [bytesLE, ofBytesLE, Nat.mod_one]
  | succ n ih =>
    have hByte : (UInt8.ofNat (x % 256)).toNat = x % 256 := by
      rw [UInt8.toNat_ofNat']
      omega
    have hRest : Nat.ofDigits 256 ((bytesLE n (x / 256)).map UInt8.toNat) = x / 256 % 256 ^ n :=
      ih (x / 256)
    simp only [ofBytesLE, bytesLE, List.map_cons, Nat.ofDigits_cons, hByte, hRest]
    rw [pow_succ', Nat.mod_mul]

@[simp] theorem length_store (order : ByteOrder) (n x : Nat) : (order.store n x).length = n := by
  cases order with
  | littleEndian => exact length_bytesLE n x
  | bigEndian => simp [ByteOrder.store]

theorem load_store (order : ByteOrder) {n x : Nat} (h : x < 256 ^ n) :
    order.load (order.store n x) = x := by
  have hLE : ofBytesLE (bytesLE n x) = x := by
    rw [ofBytesLE_bytesLE, Nat.mod_eq_of_lt h]
  cases order with
  | littleEndian => exact hLE
  | bigEndian => simpa [ByteOrder.store, ByteOrder.load] using hLE

theorem store_zero (order : ByteOrder) (n : Nat) : order.store n 0 = List.replicate n 0 := by
  have hLE : bytesLE n 0 = List.replicate n 0 := by
    induction n with
    | zero => rfl
    | succ n ih => rw [bytesLE, Nat.zero_div, ih, List.replicate_succ]; rfl
  cases order with
  | littleEndian => exact hLE
  | bigEndian => rw [ByteOrder.store, hLE, List.reverse_replicate]

/-! ## Buffers and arrays -/

section Memory

variable {α : Type*} {a bs xs : List α} {lo : Nat}

/-- Writes `xs` over the elements of `bs` from `lo` on. -/
def overwrite (bs : List α) (lo : Nat) (xs : List α) : List α :=
  bs.take lo ++ xs ++ bs.drop (lo + xs.length)

theorem length_overwrite (h : lo + xs.length ≤ bs.length) :
    (overwrite bs lo xs).length = bs.length := by
  simp only [overwrite, List.length_append, List.length_take, List.length_drop]
  omega

theorem overwrite_zero : overwrite bs 0 xs = xs ++ bs.drop xs.length := by
  simp [overwrite]

theorem overwrite_append (h : lo = a.length) :
    overwrite (a ++ bs) lo xs = a ++ (xs ++ bs.drop xs.length) := by
  subst h
  simp [overwrite, ← List.drop_drop]

theorem overwrite_middle (a b xs bs : List α) (h : lo = a.length) (hLength : xs.length = b.length) :
    overwrite (a ++ (b ++ bs)) lo xs = a ++ (xs ++ bs) := by
  rw [overwrite_append h, hLength, List.drop_left]

/-- The first `n` records of `w` elements. -/
def records (w : Nat) : Nat → List α → List (List α)
  | 0, _ => []
  | n + 1, bs => bs.take w :: records w n (bs.drop w)

theorem records_flatten {w : Nat} (rs : List (List α)) (h : ∀ r ∈ rs, r.length = w) :
    records w rs.length rs.flatten = rs := by
  induction rs with
  | nil => rfl
  | cons r rs ih =>
    have hr : r.length = w := h r List.mem_cons_self
    have hTail := ih fun r' hr' => h r' (List.mem_cons_of_mem _ hr')
    simp only [List.length_cons, List.flatten_cons, records]
    rw [← hr, List.take_left, List.drop_left, hr, hTail]

theorem length_flatten_records {w : Nat} (rs : List (List α)) (h : ∀ r ∈ rs, r.length = w) :
    rs.flatten.length = w * rs.length := by
  induction rs with
  | nil => rfl
  | cons r rs ih =>
    have hTail := ih fun r' hr' => h r' (List.mem_cons_of_mem _ hr')
    rw [List.flatten_cons, List.length_append, h r List.mem_cons_self, hTail, List.length_cons,
      Nat.mul_succ, Nat.add_comm]

end Memory

/-! ## Memory by address -/

section Read

variable {w : Nat} {mem : BitVec w → UInt8} {p : BitVec w}

/-- The `n` bytes from address `p` on. -/
def readMem (mem : BitVec w → UInt8) (p : BitVec w) (n : Nat) : List UInt8 :=
  (List.range n).map fun i => mem (p + BitVec.ofNat w i)

@[simp] theorem length_readMem (mem : BitVec w → UInt8) (p : BitVec w) (n : Nat) :
    (readMem mem p n).length = n := by
  simp [readMem]

theorem readMem_add (m n : Nat) :
    readMem mem p (m + n) = readMem mem p m ++ readMem mem (p + BitVec.ofNat w m) n := by
  simp only [readMem, List.range_add, List.map_append, List.map_map]
  congr 1
  apply List.map_congr_left
  intro i _
  simp only [Function.comp_apply, BitVec.ofNat_add, BitVec.add_assoc]

end Read

/-! ## Tagged addresses -/

section Tag

variable {w k : Nat} {p t : BitVec w}

/-- The bits below `k` are zero. -/
def Aligned (k : Nat) (p : BitVec w) : Prop := ∀ i, i < k → p.getLsbD i = false

/-- Only the bits below `k` may be set. -/
def Below (k : Nat) (t : BitVec w) : Prop := ∀ i, k ≤ i → t.getLsbD i = false

theorem aligned_of_mod (h : p.toNat % 2 ^ k = 0) : Aligned k p := by
  intro i hi
  obtain ⟨q, hq⟩ := Nat.dvd_of_mod_eq_zero h
  rw [BitVec.getLsbD, hq, Nat.testBit_two_pow_mul]
  simp [hi]

theorem below_of_lt (h : t.toNat < 2 ^ k) : Below k t := by
  intro i hi
  exact Nat.testBit_lt_two_pow (h.trans_le (Nat.pow_le_pow_right (by decide) hi))

theorem tag_and_mask (hp : Aligned k p) (ht : Below k t) :
    (p ||| t) &&& BitVec.ofNat w (2 ^ k - 1) = t := by
  apply BitVec.eq_of_getLsbD_eq
  intro i hi
  rw [BitVec.getLsbD_and, BitVec.getLsbD_or, BitVec.getLsbD_ofNat, Nat.testBit_two_pow_sub_one]
  by_cases hk : i < k
  · simp only [hp i hk, hi, hk, decide_true, Bool.false_or, Bool.and_true]
  · simp only [ht i (by omega), hk, decide_false, Bool.and_false]

/-- The sign bits that the shift to the right brings in leave with the shift back. -/
theorem untag_shift (hp : Aligned k p) (ht : Below k t) :
    (p ||| t).sshiftRight k <<< k = p := by
  apply BitVec.eq_of_getLsbD_eq
  intro i hi
  rw [BitVec.getLsbD_shiftLeft, BitVec.getLsbD_sshiftRight, BitVec.getLsbD_or]
  by_cases hk : i < k
  · simp [hk, hp i hk]
  · have hBit : k + (i - k) = i := by omega
    have hIn : ¬ w ≤ i - k := by omega
    simp only [hi, hk, hBit, hIn, ht i (by omega), decide_true, decide_false, Bool.not_false,
      Bool.true_and, if_true, Bool.or_false]

end Tag

end Words

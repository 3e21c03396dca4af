import GrpcClient.Records

/-! # The metadata of a call in memory

`attach_metadata` of `lib/resty/grpc.lua` lays the pairs out as an array of structs
that point into the strings of Lua, and `convertMetadata` of `grpc-engine/main.go`
walks along this array and copies the strings.
-/

namespace GrpcClient.Metadata

open Words

/-! ## The Lua side -/

structure LuaString where
  addr : BitVec 64
  data : Bytes

/-- `opt.metadata`, with the border of it that `#` returns. -/
structure PairTable where
  get : Nat → Option (LuaString × LuaString)
  border : Nat
  some_border : border = 0 ∨ get border ≠ none
  none_next : get (border + 1) = none

/-- What `ipairs` goes through: the pairs up to the first nil. -/
def PairTable.ipairs (t : PairTable) : List (LuaString × LuaString) :=
  (((List.range (t.border + 1)).map fun i => t.get (i + 1)).takeWhile Option.isSome).filterMap id

def attachPair (host : ByteOrder) (bs : Bytes) (i : Nat) (pair : LuaString × LuaString) : Bytes :=
  let bs := overwrite bs (24 * i + 8) (host.store 8 pair.1.addr.toNat)
  let bs := overwrite bs (24 * i) (host.store 4 pair.1.data.length)
  let bs := overwrite bs (24 * i + 16) (host.store 8 pair.2.addr.toNat)
  overwrite bs (24 * i + 4) (host.store 4 pair.2.data.length)

def attachLoop (host : ByteOrder) : Nat → Bytes → List (LuaString × LuaString) → Bytes
  | _, bs, [] => bs
  | i, bs, pair :: pairs => attachLoop host (i + 1) (attachPair host bs i pair) pairs

def metadataLen (t : PairTable) : BitVec 32 := BitVec.ofNat 32 t.border

/-- `attach_metadata`: the array at `opt_ptr.metadata`, which `ffi.new` fills with zeros. -/
def attachMetadata (host : ByteOrder) (t : PairTable) : Bytes :=
  attachLoop host 0 (List.replicate (24 * t.border) 0) t.ipairs

/-! ## The engine -/

structure Pair where
  keyLen : BitVec 32
  valueLen : BitVec 32
  key : BitVec 64
  value : BitVec 64

def Pair.read (host : ByteOrder) (bs : Bytes) : Pair where
  keyLen := BitVec.ofNat 32 (host.load (bs.take 4))
  valueLen := BitVec.ofNat 32 (host.load ((bs.drop 4).take 4))
  key := BitVec.ofNat 64 (host.load ((bs.drop 8).take 8))
  value := BitVec.ofNat 64 (host.load ((bs.drop 16).take 8))

/-- `C.GoStringN`. A negative length panics. -/
def goStringN (mem : BitVec 64 → UInt8) (p : BitVec 64) (n : BitVec 32) : Option Bytes :=
  if n.toInt < 0 then none else some (readMem mem p n.toNat)

def convertLoop (host : ByteOrder) (mem : BitVec 64 → UInt8) :
    Nat → BitVec 64 → Option (List Bytes)
  | 0, _ => some []
  | k + 1, pair => do
    let md := Pair.read host (readMem mem pair 24)
    let key ← goStringN mem md.key md.keyLen
    let value ← goStringN mem md.value md.valueLen
    let rest ← convertLoop host mem k (pair + 24)
    some (key :: value :: rest)

/-- `convertMetadata`. The product is a C `int`, and `make` panics where it is negative. -/
def convertMetadata (host : ByteOrder) (mem : BitVec 64 → UInt8) (len : BitVec 32)
    (metadata : BitVec 64) : Option (List Bytes) :=
  if len = 0 then some []
  else if (len * 2).toInt < 0 then none
  else convertLoop host mem ((len * 2).toNat / 2) metadata

/-! ## The structs of the array -/

def Pair.bytes (host : ByteOrder) (p : Pair) : Bytes :=
  host.store 4 p.keyLen.toNat ++ (host.store 4 p.valueLen.toNat ++
    (host.store 8 p.key.toNat ++ host.store 8 p.value.toNat))

@[simp] theorem Pair.length_bytes (host : ByteOrder) (p : Pair) : (p.bytes host).length = 24 := by
  simp [Pair.bytes]

theorem Pair.read_bytes (host : ByteOrder) (p : Pair) : Pair.read host (p.bytes host) = p := by
  have h32 : ∀ v : BitVec 32, BitVec.ofNat 32 (host.load (host.store 4 v.toNat)) = v := by
    intro v
    have hBound : v.toNat < 256 ^ 4 := v.isLt
    rw [load_store host hBound, BitVec.ofNat_toNat, BitVec.setWidth_eq]
  obtain ⟨keyLen, valueLen, key, value⟩ := p
  have hKeyLen : ((Pair.bytes host ⟨keyLen, valueLen, key, value⟩).take 4) =
      host.store 4 keyLen.toNat := List.take_left' (length_store host 4 _)
  have hRest : ((Pair.bytes host ⟨keyLen, valueLen, key, value⟩).drop 4) =
      host.store 4 valueLen.toNat ++ (host.store 8 key.toNat ++ host.store 8 value.toNat) :=
    List.drop_left' (length_store host 4 _)
  have hKey : ((Pair.bytes host ⟨keyLen, valueLen, key, value⟩).drop 8) =
      host.store 8 key.toNat ++ host.store 8 value.toNat := by
    rw [Pair.bytes, ← List.append_assoc]
    exact List.drop_left' (by simp)
  have hValue : ((Pair.bytes host ⟨keyLen, valueLen, key, value⟩).drop 16) =
      host.store 8 value.toNat := by
    rw [Pair.bytes, ← List.append_assoc, ← List.append_assoc]
    exact List.drop_left' (by simp)
  rw [Pair.read, hKeyLen, hRest, hKey, hValue, List.take_left' (length_store host 4 _),
    List.take_left' (length_store host 8 _), List.take_of_length_le (by simp), h32, h32,
    ofNat_load_store, ofNat_load_store]

theorem attachPair_eq (host : ByteOrder) {a c : Bytes} {i : Nat} (pair : LuaString × LuaString)
    (hLength : 24 * i = a.length) :
    attachPair host (a ++ (List.replicate 24 0 ++ c)) i pair =
      a ++ (host.store 4 pair.1.data.length ++ (host.store 4 pair.2.data.length ++
        (host.store 8 pair.1.addr.toNat ++ host.store 8 pair.2.addr.toNat)) ++ c) := by
  have hZeros : List.replicate 24 (0 : UInt8) = List.replicate 4 0 ++ (List.replicate 4 0 ++
      (List.replicate 8 0 ++ List.replicate 8 0)) := rfl
  generalize hKeyLen : host.store 4 pair.1.data.length = keyLen
  generalize hValueLen : host.store 4 pair.2.data.length = valueLen
  generalize hKey : host.store 8 pair.1.addr.toNat = key
  generalize hValue : host.store 8 pair.2.addr.toNat = value
  have h4 : keyLen.length = 4 := hKeyLen ▸ length_store host 4 _
  have h8 : key.length = 8 := hKey ▸ length_store host 8 _
  have h4' : valueLen.length = 4 := hValueLen ▸ length_store host 4 _
  have h8' : value.length = 8 := hValue ▸ length_store host 8 _
  have hFirst : overwrite _ (24 * i + 8) key = _ :=
    overwrite_middle (a ++ (List.replicate 4 0 ++ List.replicate 4 0)) (List.replicate 8 0) key
      (List.replicate 8 0 ++ c) (by simp [hLength]) (by simp [h8])
  have hSecond : overwrite _ (24 * i) keyLen = _ :=
    overwrite_middle a (List.replicate 4 0) keyLen
      (List.replicate 4 0 ++ (key ++ (List.replicate 8 0 ++ c))) hLength (by simp [h4])
  have hThird : overwrite _ (24 * i + 16) value = _ :=
    overwrite_middle (a ++ (keyLen ++ (List.replicate 4 0 ++ key))) (List.replicate 8 0) value c
      (by simp [hLength, h4, h8]) (by simp [h8'])
  have hFourth : overwrite _ (24 * i + 4) valueLen = _ :=
    overwrite_middle (a ++ keyLen) (List.replicate 4 0) valueLen (key ++ (value ++ c))
      (by simp [hLength, h4]) (by simp [h4'])
  simp only [List.append_assoc] at hFirst hSecond hThird hFourth
  simp only [attachPair, hKeyLen, hValueLen, hKey, hValue, hZeros, List.append_assoc, hFirst,
    hSecond, hThird, hFourth]

def Fits (s : LuaString) : Prop := s.data.length < 2 ^ 31

def Pair.ofStrings (pair : LuaString × LuaString) : Pair :=
  ⟨BitVec.ofNat 32 pair.1.data.length, BitVec.ofNat 32 pair.2.data.length, pair.1.addr, pair.2.addr⟩

theorem Fits.toNat {s : LuaString} (h : Fits s) :
    (BitVec.ofNat 32 s.data.length).toNat = s.data.length := by
  unfold Fits at h
  rw [BitVec.toNat_ofNat]
  omega

theorem Fits.toInt {s : LuaString} (h : Fits s) : 0 ≤ (BitVec.ofNat 32 s.data.length).toInt := by
  have hNat := h.toNat
  unfold Fits at h
  rw [BitVec.toInt_eq_toNat_cond, hNat, if_pos (by omega)]
  exact Int.natCast_nonneg _

theorem attachLoop_eq (host : ByteOrder) {a : Bytes} {i m : Nat}
    {pairs : List (LuaString × LuaString)} (hLength : 24 * i = a.length)
    (hRoom : pairs.length ≤ m) (hFits : ∀ pair ∈ pairs, Fits pair.1 ∧ Fits pair.2) :
    attachLoop host i (a ++ List.replicate (24 * m) 0) pairs =
      a ++ ((pairs.map fun pair => (Pair.ofStrings pair).bytes host).flatten ++
        List.replicate (24 * (m - pairs.length)) 0) := by
  induction pairs generalizing a i m with
  | nil => rfl
  | cons pair pairs ih =>
    obtain _ | m := m
    · cases hRoom
    obtain ⟨hKey, hValue⟩ := hFits pair List.mem_cons_self
    have hBytes := attachPair_eq host (c := List.replicate (24 * m) 0) pair hLength
    have hSplit : List.replicate (24 * (m + 1)) (0 : UInt8) =
        List.replicate 24 0 ++ List.replicate (24 * m) 0 := by
      rw [List.replicate_append_replicate]
      congr 1
      omega
    have hPair : host.store 4 pair.1.data.length ++ (host.store 4 pair.2.data.length ++
        (host.store 8 pair.1.addr.toNat ++ host.store 8 pair.2.addr.toNat)) =
        (Pair.ofStrings pair).bytes host := by
      simp only [Pair.bytes, Pair.ofStrings, hKey.toNat, hValue.toNat]
    rw [attachLoop, hSplit, hBytes, hPair, ← List.append_assoc, ih]
    · simp only [List.map_cons, List.flatten_cons, List.append_assoc, List.length_cons,
        Nat.add_sub_add_right]
    · simp only [List.length_append, Pair.length_bytes]
      omega
    · simpa using hRoom
    · exact fun pair' hMem => hFits pair' (List.mem_cons_of_mem pair hMem)

def Pair.zero : Pair := ⟨0, 0, 0, 0⟩

theorem zeros_eq (host : ByteOrder) (k : Nat) : List.replicate (24 * k) (0 : UInt8) =
    ((List.replicate k Pair.zero).map (Pair.bytes host)).flatten := by
  have hZero : Pair.zero.bytes host = List.replicate 24 0 := by
    have h4 : host.store 4 (BitVec.toNat (0 : BitVec 32)) = _ := store_zero host 4
    have h8 : host.store 8 (BitVec.toNat (0 : BitVec 64)) = _ := store_zero host 8
    rw [Pair.bytes, Pair.zero, h4, h8]
    rfl
  induction k with
  | zero => rfl
  | succ k ih =>
    rw [List.replicate_succ, List.map_cons, List.flatten_cons, ← ih, hZero,
      List.replicate_append_replicate]
    congr 1
    omega

theorem PairTable.length_ipairs (t : PairTable) : t.ipairs.length ≤ t.border := by
  have hStops : (((List.range (t.border + 1)).map fun i => t.get (i + 1)).takeWhile
      Option.isSome).length ≤ t.border := by
    rw [List.range_succ, List.map_append, List.takeWhile_append]
    split
    · simp [t.none_next]
    · exact (List.takeWhile_prefix _).length_le.trans (by simp)
  exact (List.length_filterMap_le _ _).trans hStops

/-- The structs of the array: those of the pairs, and behind a nil only zeros. -/
def PairTable.structs (t : PairTable) : List Pair :=
  t.ipairs.map Pair.ofStrings ++ List.replicate (t.border - t.ipairs.length) Pair.zero

theorem PairTable.length_structs (t : PairTable) : t.structs.length = t.border := by
  have hLength := t.length_ipairs
  simp only [structs, List.length_append, List.length_map, List.length_replicate]
  omega

theorem attachMetadata_eq (host : ByteOrder) {t : PairTable}
    (hFits : ∀ pair ∈ t.ipairs, Fits pair.1 ∧ Fits pair.2) :
    attachMetadata host t = (t.structs.map (Pair.bytes host)).flatten := by
  have hLoop := attachLoop_eq host (a := []) (i := 0) rfl t.length_ipairs hFits
  rw [List.nil_append, List.nil_append, zeros_eq host (t.border - t.ipairs.length)] at hLoop
  rw [attachMetadata, hLoop, PairTable.structs, List.map_append, List.flatten_append,
    List.map_map]
  rfl

/-! ## What the engine reads -/

theorem convertLoop_eq (host : ByteOrder) {mem : BitVec 64 → UInt8} {ps : List Pair}
    {p : BitVec 64} (hMem : readMem mem p (24 * ps.length) = (ps.map (Pair.bytes host)).flatten)
    (hLen : ∀ md ∈ ps, 0 ≤ md.keyLen.toInt ∧ 0 ≤ md.valueLen.toInt) :
    convertLoop host mem ps.length p = some (ps.flatMap fun md =>
      [readMem mem md.key md.keyLen.toNat, readMem mem md.value md.valueLen.toNat]) := by
  induction ps generalizing p with
  | nil => rfl
  | cons md ps ih =>
    obtain ⟨hKey, hValue⟩ := hLen md List.mem_cons_self
    have hSplit : 24 * (md :: ps).length = 24 + 24 * ps.length := by
      rw [List.length_cons]
      omega
    rw [hSplit, readMem_add, List.map_cons, List.flatten_cons] at hMem
    obtain ⟨hHead, hTail⟩ := List.append_inj hMem (by simp)
    have hRest := ih hTail fun md' hMem => hLen md' (List.mem_cons_of_mem md hMem)
    have hNext : p + BitVec.ofNat 64 24 = p + 24 := rfl
    rw [hNext] at hRest
    rw [List.length_cons, convertLoop, hHead, Pair.read_bytes, hRest]
    simp only [goStringN, if_neg (not_lt.mpr hKey), if_neg (not_lt.mpr hValue)]
    rfl

def Held (mem : BitVec 64 → UInt8) (s : LuaString) : Prop :=
  readMem mem s.addr s.data.length = s.data

/-- The pairs that `ipairs` goes through, and an empty one for each place from the first
nil to the border. -/
def PairTable.passed (t : PairTable) : List (Bytes × Bytes) :=
  t.ipairs.map (fun pair => (pair.1.data, pair.2.data)) ++
    List.replicate (t.border - t.ipairs.length) ([], [])

theorem PairTable.structs_lengths {t : PairTable}
    (hFits : ∀ pair ∈ t.ipairs, Fits pair.1 ∧ Fits pair.2) :
    ∀ md ∈ t.structs, 0 ≤ md.keyLen.toInt ∧ 0 ≤ md.valueLen.toInt := by
  intro md hMem
  obtain hMem | hMem := List.mem_append.mp hMem
  · obtain ⟨pair, hPair, rfl⟩ := List.mem_map.mp hMem
    exact ⟨(hFits pair hPair).1.toInt, (hFits pair hPair).2.toInt⟩
  · rw [List.eq_of_mem_replicate hMem]
    exact ⟨le_rfl, le_rfl⟩

theorem PairTable.strings_eq {t : PairTable} {mem : BitVec 64 → UInt8}
    (hFits : ∀ pair ∈ t.ipairs, Fits pair.1 ∧ Fits pair.2)
    (hHeld : ∀ pair ∈ t.ipairs, Held mem pair.1 ∧ Held mem pair.2) :
    (t.structs.flatMap fun md =>
      [readMem mem md.key md.keyLen.toNat, readMem mem md.value md.valueLen.toNat]) =
      t.passed.flatMap fun md => [md.1, md.2] := by
  rw [structs, passed, List.flatMap_append, List.flatMap_append, List.flatMap_map,
    List.flatMap_map]
  congr 1
  · apply List.flatMap_congr
    intro pair hPair
    simp only [Pair.ofStrings, (hFits pair hPair).1.toNat, (hFits pair hPair).2.toNat]
    rw [(hHeld pair hPair).1, (hHeld pair hPair).2]
  · rw [List.flatMap_replicate, List.flatMap_replicate]
    rfl

/-- The engine gets the keys and values that Lua has, in the order of the table. That
the strings and the array are still in memory when the engine reads them is
assumed: nothing in the Lua code keeps the array, and the options keep the
strings. -/
theorem metadata_passed (host : ByteOrder) {t : PairTable} {mem : BitVec 64 → UInt8}
    {metadata : BitVec 64} (hMany : t.border < 2 ^ 30)
    (hFits : ∀ pair ∈ t.ipairs, Fits pair.1 ∧ Fits pair.2)
    (hHeld : ∀ pair ∈ t.ipairs, Held mem pair.1 ∧ Held mem pair.2)
    (hArray : readMem mem metadata (24 * t.border) = attachMetadata host t) :
    convertMetadata host mem (metadataLen t) metadata =
      some (t.passed.flatMap fun md => [md.1, md.2]) := by
  rw [attachMetadata_eq host hFits, ← t.length_structs] at hArray
  have hLoop := convertLoop_eq host hArray (t.structs_lengths hFits)
  rw [t.length_structs, t.strings_eq hFits hHeld] at hLoop
  have hNat : (metadataLen t).toNat = t.border := by
    rw [metadataLen, BitVec.toNat_ofNat]
    omega
  have hTwice : (metadataLen t * 2).toNat = 2 * t.border := by
    have hTwo : (2 : BitVec 32).toNat = 2 := rfl
    rw [BitVec.toNat_mul, hNat, hTwo]
    omega
  unfold convertMetadata
  split
  · rename_i hZero
    have hNone : t.border = 0 := by
      rw [← hNat, hZero]
      rfl
    rw [← hLoop, hNone]
    rfl
  · split
    · rename_i hNegative
      rw [BitVec.toInt_eq_toNat_cond, hTwice, if_pos (by omega)] at hNegative
      omega
    · rw [hTwice, Nat.mul_div_cancel_left _ (by decide)]
      exact hLoop

/-- Two pairs with a nil between them, where `#` returns the larger border. -/
def holed : PairTable where
  get
    | 1 => some (⟨0x1000, [107]⟩, ⟨0x1001, [118]⟩)
    | 3 => some (⟨0x1000, [107]⟩, ⟨0x1001, [118]⟩)
    | _ => none
  border := 3
  some_border := .inr (by decide)
  none_next := rfl

def holedMem (p : BitVec 64) : UInt8 :=
  if p = 0x1000 then 107
  else if p = 0x1001 then 118
  else (attachMetadata .littleEndian holed).getD (p - 0x2000).toNat 0

theorem metadata_passed_holed :
    convertMetadata .littleEndian holedMem (metadataLen holed) 0x2000 =
      some [[107], [118], [], [], [], []] :=
  metadata_passed .littleEndian (by decide) (by unfold Fits; decide +kernel)
    (by unfold Held; decide +kernel) (by decide +kernel)

end GrpcClient.Metadata

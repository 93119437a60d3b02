import Rosetta.Channel.MsgId

/-!
# Hex renderings

`get_hex_buffer` writes bytes out in hex, for ids and for log lines. `get_binary_string` reads them
back, and it takes letters of either case. Its index is an `int`, that of `get_hex_buffer` a
`size_t`.

* `pack_hexPairs` — what is written is read back
* `InCase` — the ids in one letter case
* `getString_of_long` — the ids for which the index does not suffice
* `hex_survives` — which ids have a wire id of their own
-/

namespace Rosetta

/-! ## The functions of `helper.h` -/

def PRINT_HEX_SIZE : Nat := 128

def getHexChar (p : UInt8) : UInt8 := if p.toNat ≤ 9 then 48 + p else 97 + (p - 10)

/-- `s.append(tmp)` of a C string. -/
def appendC (s tmp : Bytes) : Bytes := s ++ cString tmp

def getHexBuffer (buf : Bytes) : Bytes :=
  let minSize := min buf.length PRINT_HEX_SIZE
  let s := (buf.take minSize).foldl
    (fun (s : Bytes) (p : UInt8) =>
      appendC s [getHexChar (p >>> 4), getHexChar (p &&& 0x0F)]) []
  if minSize < buf.length then s ++ List.replicate 3 46 else s

/-! ## One byte -/

def toUpper (c : UInt8) : UInt8 := if 97 ≤ c.toNat ∧ c.toNat ≤ 122 then c - 32 else c

/-- The sixteen digits. -/
theorem getHexChar_spec {n : Nat} (h : n < 16) :
    getHexIndex (getHexChar (UInt8.ofNat n)) = n ∧
      isHexDigit (getHexChar (UInt8.ofNat n)) = true := by
  have hall : ∀ d ∈ List.range 16, getHexIndex (getHexChar (UInt8.ofNat d)) = d ∧
      isHexDigit (getHexChar (UInt8.ofNat d)) = true := by decide
  exact hall n (List.mem_range.mpr h)

theorem ne_zero_of_isHexDigit {c : UInt8} (h : isHexDigit c = true) : c ≠ 0 := by
  rintro rfl
  exact absurd h (by decide)

theorem shiftRight_four (p : UInt8) : p >>> 4 = UInt8.ofNat (p.toNat / 16) := by
  rw [← UInt8.toNat_inj, UInt8.toNat_shiftRight, UInt8.toNat_ofNat']
  have hlt := p.toNat_lt
  rw [Nat.mod_eq_of_lt (by omega : p.toNat / 16 < 2 ^ 8)]
  exact Nat.shiftRight_eq_div_pow p.toNat 4

theorem and_fifteen (p : UInt8) : p &&& 0x0F = UInt8.ofNat (p.toNat % 16) := by
  rw [← UInt8.toNat_inj, UInt8.toNat_and, UInt8.toNat_ofNat']
  rw [Nat.mod_eq_of_lt (by omega : p.toNat % 16 < 2 ^ 8)]
  exact Nat.and_two_pow_sub_one_eq_mod p.toNat 4

/-- The digits of a byte. -/
def hexPair (p : UInt8) : Bytes := [getHexChar (p >>> 4), getHexChar (p &&& 0x0F)]

theorem isHexDigit_hexPair {p c : UInt8} (h : c ∈ hexPair p) : isHexDigit c = true := by
  have hlt := p.toNat_lt
  rw [hexPair, shiftRight_four, and_fifteen] at h
  rcases List.mem_cons.mp h with rfl | h
  · exact (getHexChar_spec (by omega)).2
  · obtain rfl := List.mem_singleton.mp h
    exact (getHexChar_spec (by omega)).2

theorem getChar_hexPair (p : UInt8) :
    getChar (getHexChar (p >>> 4)) (getHexChar (p &&& 0x0F)) = p := by
  have hlt := p.toNat_lt
  obtain ⟨hhigh, hdigit⟩ := getHexChar_spec (by omega : p.toNat / 16 < 16)
  obtain ⟨hlow, hdigit'⟩ := getHexChar_spec (by omega : p.toNat % 16 < 16)
  rw [shiftRight_four, and_fifteen, ← UInt8.toNat_inj, getChar_toNat hdigit hdigit', hhigh, hlow]
  omega

/-! ## All bytes -/

theorem appendC_hexPair (s : Bytes) (p : UInt8) : appendC s (hexPair p) = s ++ hexPair p := by
  rw [appendC, cString_of_not_mem]
  intro hzero
  exact ne_zero_of_isHexDigit (isHexDigit_hexPair hzero) rfl

theorem foldl_hexPair (buf s : Bytes) :
    buf.foldl (fun s p => appendC s (hexPair p)) s = s ++ buf.flatMap hexPair := by
  induction buf generalizing s with
  | nil => simp
  | cons p buf ih => rw [List.foldl_cons, appendC_hexPair, ih, List.flatMap_cons, List.append_assoc]

theorem getHexBuffer_eq {buf : Bytes} (h : buf.length ≤ PRINT_HEX_SIZE) :
    getHexBuffer buf = buf.flatMap hexPair := by
  have hmin : min buf.length PRINT_HEX_SIZE = buf.length := Nat.min_eq_left h
  simp only [getHexBuffer, hmin, List.take_length, Nat.lt_irrefl, if_false]
  exact foldl_hexPair buf []

theorem length_hexPairs (buf : Bytes) : (buf.flatMap hexPair).length = 2 * buf.length := by
  induction buf with
  | nil => rfl
  | cons p buf ih =>
    rw [List.flatMap_cons, List.length_append, ih, List.length_cons, hexPair, List.length_cons,
      List.length_singleton]
    omega

theorem hexId_hexPairs (buf : Bytes) : HexId (buf.flatMap hexPair) := by
  refine ⟨List.all_eq_true.mpr fun c hc => ?_, by rw [length_hexPairs]; omega⟩
  obtain ⟨p, -, hp⟩ := List.mem_flatMap.mp hc
  exact isHexDigit_hexPair hp

/-- **What is written is read back.** -/
theorem pack_hexPairs (buf : Bytes) : pack (buf.flatMap hexPair) = buf := by
  induction buf with
  | nil => rfl
  | cons p buf ih =>
    show getChar (getHexChar (p >>> 4)) (getHexChar (p &&& 0x0F)) :: pack (buf.flatMap hexPair) = _
    rw [getChar_hexPair, ih]

/-! ## The case of letters -/

theorem toNat_toUpper (c : UInt8) :
    (toUpper c).toNat = if 97 ≤ c.toNat ∧ c.toNat ≤ 122 then c.toNat - 32 else c.toNat := by
  unfold toUpper
  split
  · next h =>
    rw [UInt8.toNat_sub_of_le _ _ (by rw [UInt8.le_iff_toNat_le]; exact le_trans (by decide) h.1)]
    rfl
  · rfl

theorem isHexDigit_toUpper {c : UInt8} (h : isHexDigit c = true) :
    isHexDigit (toUpper c) = true := by
  rw [isHexDigit_iff, toNat_toUpper]
  rw [isHexDigit_iff] at h
  split <;> omega

theorem toLower_toUpper (c : UInt8) : toLower (toUpper c) = toLower c := by
  rw [← UInt8.toNat_inj, toNat_toLower, toNat_toLower, toNat_toUpper]
  by_cases h : 97 ≤ c.toNat ∧ c.toNat ≤ 122
  · rw [if_pos h, if_pos (by omega), if_neg (by omega)]
    omega
  · rw [if_neg h]

theorem toUpper_toLower (c : UInt8) : toUpper (toLower c) = toUpper c := by
  rw [← UInt8.toNat_inj, toNat_toUpper, toNat_toUpper, toNat_toLower]
  by_cases h : 65 ≤ c.toNat ∧ c.toNat ≤ 90
  · rw [if_pos h, if_pos (by omega), if_neg (by omega)]
    omega
  · rw [if_neg h]

theorem hexId_map_toUpper {id : Bytes} (h : HexId id) : HexId (id.map toUpper) := by
  refine ⟨List.all_eq_true.mpr fun c hc => ?_, by rw [List.length_map]; exact h.2⟩
  obtain ⟨d, hd, rfl⟩ := List.mem_map.mp hc
  exact isHexDigit_toUpper (List.all_eq_true.mp h.1 d hd)

/-- The case of letters is not in what is packed. -/
theorem pack_map_toUpper {id : Bytes} (h : HexId id) : pack (id.map toUpper) = pack id := by
  rw [pack_eq_iff (hexId_map_toUpper h) h, List.map_map]
  exact List.map_congr_left fun c _ => toLower_toUpper c

theorem getBinaryString_eq {id : Bytes} (h : HexId id) (hlen : id.length < 2 ^ 31) :
    getBinaryString id = .ok (pack id) := by
  rw [← getString_eq h hlen, getString, cString_hexId h]

inductive LetterCase where
  | lower | upper
  deriving DecidableEq, Repr

def LetterCase.apply : LetterCase → UInt8 → UInt8
  | .lower => toLower
  | .upper => toUpper

/-- A hex id of even length whose letters are all of one case. -/
def InCase (k : LetterCase) (id : Bytes) : Prop := HexId id ∧ id.map k.apply = id

instance (k : LetterCase) : DecidablePred (InCase k) := fun _ => inferInstanceAs (Decidable (_ ∧ _))

/-- Ids of one case that differ at most in the case of letters are the same. -/
theorem InCase.eq_of_map_toLower {k : LetterCase} {a b : Bytes} (ha : InCase k a) (hb : InCase k b)
    (h : a.map toLower = b.map toLower) : a = b := by
  cases k with
  | lower => exact ha.2.symm.trans (h.trans hb.2)
  | upper =>
    have hmap : ∀ id : Bytes, (id.map toLower).map toUpper = id.map toUpper := by
      intro id
      rw [List.map_map]
      exact List.map_congr_left fun c _ => toUpper_toLower c
    calc a = a.map toUpper := ha.2.symm
      _ = (b.map toLower).map toUpper := by rw [← hmap a, h]
      _ = b := (hmap b).trans hb.2

/-! ## Ids that are too long -/

/-- The index leaves the `int` before the loop ends. -/
theorem binaryLoop_of_long : ∀ (str pre : Bytes), str.length % 2 = 0 → 2 * pre.length < 2 ^ 31 →
    2 ^ 31 ≤ 2 * pre.length + str.length →
    binaryLoop (pre ++ List.replicate (str.length / 2) 0) (2 * pre.length) str = .error .overflow
  | [], _, _, hlt, hle => by
    rw [List.length_nil] at hle
    omega
  | [_], _, heven, _, _ => by simp at heven
  | c1 :: c2 :: rest, pre, heven, hlt, hle => by
    simp only [List.length_cons] at heven hle
    have hhalf : (c1 :: c2 :: rest).length / 2 = rest.length / 2 + 1 := by
      simp only [List.length_cons]
      omega
    have hput := putChar_append (i := 2 * pre.length / 2) (k := rest.length / 2)
      (by omega : _ = pre.length) (getChar c1 c2)
    rw [hhalf, binaryLoop, hput, Exec.ok_bind]
    by_cases hnext : 2 * pre.length + 2 < 2 ^ 31
    · have hnext' : nextIndex (2 * pre.length) = .ok (2 * (pre ++ [getChar c1 c2]).length) := by
        rw [nextIndex, if_pos hnext, List.length_append, List.length_singleton, Nat.mul_add]
      rw [hnext', Exec.ok_bind]
      refine binaryLoop_of_long rest (pre ++ [getChar c1 c2]) (by omega) ?_ ?_
      · rw [List.length_append, List.length_singleton]
        omega
      · rw [List.length_append, List.length_singleton]
        omega
    · rw [nextIndex, if_neg hnext]
      rfl

theorem getString_of_long {id w : Bytes} (h : HexId id) (hlen : 2 ^ 31 ≤ id.length) :
    getString id ≠ .ok w := by
  intro heq
  rw [getString, cString_hexId h, getBinaryString] at heq
  obtain ⟨-, -, heq⟩ := Exec.bind_eq_ok.mp heq
  have hloop := binaryLoop_of_long id [] h.2 (by rw [List.length_nil]; omega)
    (by rw [List.length_nil]; omega)
  exact absurd (hloop.symm.trans heq) (by simp)

/-! ## What survives -/

/-- The id has a wire id of half its length, which no other id of its case has. -/
def Survives (k : LetterCase) (id : Bytes) : Prop :=
  ∃ w, getString id = .ok w ∧ 2 * w.length = id.length ∧
    ∀ id', InCase k id' → getString id' = .ok w → id' = id

theorem length_lt_of_getString {id w : Bytes} (h : HexId id) (hw : getString id = .ok w) :
    id.length < 2 ^ 31 := by
  by_contra hlen
  exact getString_of_long h (by omega) hw

theorem InCase.survives {k : LetterCase} {id : Bytes} (h : InCase k id)
    (hlen : id.length < 2 ^ 31) : Survives k id := by
  have heven := h.1.2
  refine ⟨pack id, getString_eq h.1 hlen, by rw [length_pack]; omega, fun id' h' hw => ?_⟩
  have hlen' := length_lt_of_getString h'.1 hw
  have hsame : getString id' = getString id := hw.trans (getString_eq h.1 hlen).symm
  exact h'.eq_of_map_toLower h ((getString_eq_iff h'.1 hlen' h.1 hlen).mp hsame)

/-- **Which hex ids survive.** A rendering is read back in either case, and an id of one case has a
wire id of its own exactly when the `int` can count its characters. -/
theorem hex_survives (b : Bytes) (k : LetterCase) (id : Bytes) :
    (b.length ≤ PRINT_HEX_SIZE → getBinaryString (getHexBuffer b) = .ok b ∧
      getBinaryString ((getHexBuffer b).map toUpper) = .ok b) ∧
    (InCase k id → (Survives k id ↔ id.length < 2 ^ 31)) ∧
    (HexId id → id.length ≤ 508 → ∃ w, getString id = .ok w ∧ w.length ≤ 254) := by
  refine ⟨fun hb => ?_, fun hid => ⟨?_, hid.survives⟩, fun hid hlen => ?_⟩
  · have hlen : (b.flatMap hexPair).length < 2 ^ 31 := by
      rw [length_hexPairs]
      unfold PRINT_HEX_SIZE at hb
      omega
    have hid := hexId_hexPairs b
    rw [getHexBuffer_eq hb, getBinaryString_eq hid hlen,
      getBinaryString_eq (hexId_map_toUpper hid) (by rwa [List.length_map]), pack_map_toUpper hid,
      pack_hexPairs]
    exact ⟨rfl, rfl⟩
  · rintro ⟨w, hw, -, -⟩
    exact length_lt_of_getString hid.1 hw
  · refine ⟨pack id, getString_eq hid (by omega), ?_⟩
    rw [length_pack]
    omega

/-- The two bytes `00 ff`, and the id `aa0f`. -/
theorem hex_survives_small : getBinaryString (getHexBuffer [0, 255]) = .ok [0, 255] ∧
    Survives .lower [97, 97, 48, 102] := by
  obtain ⟨htrip, hsurvives, -⟩ := hex_survives [0, 255] .lower [97, 97, 48, 102]
  exact ⟨(htrip (by decide)).1, (hsurvives (by decide)).mpr (by decide)⟩

/-- An id of `2 ^ 31` zeros. -/
theorem not_survives : ∃ id : Bytes, InCase .lower id ∧ ¬ Survives .lower id := by
  have hid : HexId (List.replicate (2 ^ 31) 48) := by
    refine ⟨List.all_eq_true.mpr fun c hc => ?_, ?_⟩
    · obtain rfl := List.eq_of_mem_replicate hc
      rfl
    · rw [List.length_replicate]
      rfl
  refine ⟨List.replicate (2 ^ 31) 48, ⟨hid, ?_⟩, ?_⟩
  · rw [List.map_replicate]
    rfl
  · rintro ⟨w, hw, -, -⟩
    exact getString_of_long hid (by rw [List.length_replicate]) hw

end Rosetta

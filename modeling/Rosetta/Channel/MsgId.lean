import Rosetta.Machine

/-!
# Message ids

`TCPChannel::Send` and `TCPChannel::Recv` turn the id of a message into the id on the wire: with
`DEBUG_MSG_ID` off, an id "is in hex" (`internal_channel.h`) and is packed, two characters into one
byte.

* `getString_of_even` — an id of even length is packed without any fault
* `getString_eq_iff` — two of these have one wire id exactly when they differ at most in the case of
  letters
-/

namespace Rosetta

/-! ## The functions of `io_channel_impl.cpp` -/

def getHexIndex (c : UInt8) : Nat :=
  if 48 ≤ c.toNat ∧ c.toNat ≤ 57 then
    c.toNat - 48
  else if 65 ≤ c.toNat ∧ c.toNat ≤ 90 then
    10 + c.toNat - 65
  else if 97 ≤ c.toNat ∧ c.toNat ≤ 122 then
    10 + c.toNat - 97
  else
    0

def getChar (c1 c2 : UInt8) : UInt8 := UInt8.ofNat (getHexIndex c1 <<< 4 ||| getHexIndex c2)

/-- `ret[i] = c`. Behind the last character a `string` has a `'\0'`, and may be given this. -/
def putChar (ret : Bytes) (i : Nat) (c : UInt8) : Exec Bytes :=
  if i < ret.length ∨ (i = ret.length ∧ c = 0) then .ok (ret.set i c) else .error .outOfBounds

/-- `i += 2` on an `int`. -/
def nextIndex (i : Nat) : Exec Nat := if i + 2 < 2 ^ 31 then .ok (i + 2) else .error .overflow

/-- The loop of `get_binary_string`; the characters from `str[i]` on are given. -/
def binaryLoop (ret : Bytes) (i : Nat) : Bytes → Exec Bytes
  | [] => .ok ret
  | [c1] => do
    -- `str[i + 1]` is the character behind the last one, a `'\0'`
    let ret' ← putChar ret (i / 2) (getChar c1 0)
    let _ ← nextIndex i
    .ok ret'
  | c1 :: c2 :: rest => do
    let ret' ← putChar ret (i / 2) (getChar c1 c2)
    let i' ← nextIndex i
    binaryLoop ret' i' rest

def getBinaryString (str : Bytes) : Exec Bytes := do
  resize (str.length / 2)
  binaryLoop (List.replicate (str.length / 2) 0) 0 str

/-- `get_string(s)`. -/
def getString (s : Bytes) : Exec Bytes := getBinaryString (cString s)

/-! ## Hex digits -/

def isHexDigit (c : UInt8) : Bool :=
  (48 ≤ c.toNat && c.toNat ≤ 57) || (65 ≤ c.toNat && c.toNat ≤ 70) ||
    (97 ≤ c.toNat && c.toNat ≤ 102)

def toLower (c : UInt8) : UInt8 := if 65 ≤ c.toNat ∧ c.toNat ≤ 90 then c + 32 else c

/-- The ids that `internal_channel.h` describes. -/
def HexId (id : Bytes) : Prop := id.all isHexDigit = true ∧ id.length % 2 = 0

instance : DecidablePred HexId := fun _ => inferInstanceAs (Decidable (_ ∧ _))

theorem isHexDigit_iff {c : UInt8} : isHexDigit c = true ↔
    (48 ≤ c.toNat ∧ c.toNat ≤ 57) ∨ (65 ≤ c.toNat ∧ c.toNat ≤ 70) ∨
      (97 ≤ c.toNat ∧ c.toNat ≤ 102) := by
  simp [isHexDigit, or_assoc]

theorem toNat_toLower (c : UInt8) :
    (toLower c).toNat = if 65 ≤ c.toNat ∧ c.toNat ≤ 90 then c.toNat + 32 else c.toNat := by
  unfold toLower
  split
  · next h =>
    rw [UInt8.toNat_add, show (32 : UInt8).toNat = 32 from rfl]
    exact Nat.mod_eq_of_lt (by omega)
  · rfl

/-- The three ranges of digits, with the value and the lower case of each. -/
theorem hexDigit_cases {c : UInt8} (h : isHexDigit c = true) :
    (c.toNat ≤ 57 ∧ getHexIndex c = c.toNat - 48 ∧ 48 ≤ c.toNat ∧ (toLower c).toNat = c.toNat) ∨
    (c.toNat ≤ 70 ∧ getHexIndex c = c.toNat - 55 ∧ 65 ≤ c.toNat ∧
      (toLower c).toNat = c.toNat + 32) ∨
    (c.toNat ≤ 102 ∧ getHexIndex c = c.toNat - 87 ∧ 97 ≤ c.toNat ∧
      (toLower c).toNat = c.toNat) := by
  rw [toNat_toLower]
  rcases isHexDigit_iff.mp h with ⟨h1, h2⟩ | ⟨h1, h2⟩ | ⟨h1, h2⟩
  · refine Or.inl ⟨h2, ?_, h1, if_neg (by omega)⟩
    rw [getHexIndex, if_pos ⟨h1, h2⟩]
  · refine Or.inr (Or.inl ⟨h2, ?_, h1, if_pos (by omega)⟩)
    rw [getHexIndex, if_neg (by omega), if_pos (by omega)]
    omega
  · refine Or.inr (Or.inr ⟨h2, ?_, h1, if_neg (by omega)⟩)
    rw [getHexIndex, if_neg (by omega), if_neg (by omega), if_pos (by omega)]
    omega

theorem getHexIndex_lt {c : UInt8} (h : isHexDigit c = true) : getHexIndex c < 16 := by
  rcases hexDigit_cases h with ⟨h1, h2, -⟩ | ⟨h1, h2, -⟩ | ⟨h1, h2, -⟩
  · omega
  · omega
  · omega

/-- The value of a hex digit tells the digit, but for its case. -/
theorem getHexIndex_eq_iff {c d : UInt8} (hc : isHexDigit c = true) (hd : isHexDigit d = true) :
    getHexIndex c = getHexIndex d ↔ toLower c = toLower d := by
  rw [← UInt8.toNat_inj]
  rcases hexDigit_cases hc with ⟨c1, c2, c3, c4⟩ | ⟨c1, c2, c3, c4⟩ | ⟨c1, c2, c3, c4⟩ <;>
  rcases hexDigit_cases hd with ⟨d1, d2, d3, d4⟩ | ⟨d1, d2, d3, d4⟩ | ⟨d1, d2, d3, d4⟩ <;>
  omega

theorem getChar_toNat {c1 c2 : UInt8} (h1 : isHexDigit c1 = true) (h2 : isHexDigit c2 = true) :
    (getChar c1 c2).toNat = getHexIndex c1 * 16 + getHexIndex c2 := by
  have hlt1 := getHexIndex_lt h1
  have hlt2 := getHexIndex_lt h2
  rw [getChar, UInt8.toNat_ofNat', ← Nat.shiftLeft_add_eq_or_of_lt (i := 4) hlt2,
    Nat.shiftLeft_eq]
  exact Nat.mod_eq_of_lt (by omega)

/-! ## Packing -/

/-- Each two characters in one byte. -/
def pack : Bytes → Bytes
  | c1 :: c2 :: rest => getChar c1 c2 :: pack rest
  | _ => []

theorem length_pack : ∀ id : Bytes, (pack id).length = id.length / 2
  | [] => rfl
  | [_] => by simp [pack]
  | _ :: _ :: rest => by
    have ih := length_pack rest
    simp only [pack, List.length_cons, ih]
    omega

theorem HexId.tail {c1 c2 : UInt8} {rest : Bytes} (h : HexId (c1 :: c2 :: rest)) :
    isHexDigit c1 = true ∧ isHexDigit c2 = true ∧ HexId rest := by
  obtain ⟨hall, hlen⟩ := h
  simp only [List.all_cons, Bool.and_eq_true] at hall
  simp only [List.length_cons] at hlen
  exact ⟨hall.1, hall.2.1, hall.2.2, by omega⟩

theorem not_hexId_single (c : UInt8) : ¬ HexId [c] := fun h => by simpa using h.2

theorem putChar_append {pre : Bytes} {i k : Nat} (hi : i = pre.length) (c : UInt8) :
    putChar (pre ++ List.replicate (k + 1) 0) i c
      = .ok ((pre ++ [c]) ++ List.replicate k 0) := by
  have hlt : i < (pre ++ List.replicate (k + 1) 0).length := by
    rw [List.length_append, List.length_replicate]
    omega
  rw [putChar, if_pos (.inl hlt), hi, List.set_append_right _ _ (Nat.le_refl _), Nat.sub_self,
    List.replicate_succ, List.set_cons_zero, List.append_assoc]
  rfl

/-- The loop puts the packed rest behind what it has already filled in. -/
theorem binaryLoop_eq : ∀ (str pre : Bytes), str.length % 2 = 0 →
    2 * pre.length + str.length < 2 ^ 31 →
    binaryLoop (pre ++ List.replicate (str.length / 2) 0) (2 * pre.length) str
      = .ok (pre ++ pack str)
  | [], pre, _, _ => rfl
  | [_], _, heven, _ => by simp at heven
  | c1 :: c2 :: rest, pre, heven, hlt => by
    simp only [List.length_cons] at heven hlt
    have hhalf : (c1 :: c2 :: rest).length / 2 = rest.length / 2 + 1 := by
      simp only [List.length_cons]
      omega
    have hput := putChar_append (i := 2 * pre.length / 2) (k := rest.length / 2)
      (by omega : _ = pre.length) (getChar c1 c2)
    have hnext : nextIndex (2 * pre.length) = .ok (2 * (pre ++ [getChar c1 c2]).length) := by
      rw [nextIndex, if_pos (by omega), List.length_append, List.length_singleton, Nat.mul_add]
    have ih := binaryLoop_eq rest (pre ++ [getChar c1 c2]) (by omega)
      (by rw [List.length_append, List.length_singleton]; omega)
    rw [hhalf, binaryLoop, hput, Exec.ok_bind, hnext, Exec.ok_bind, ih, List.append_assoc]
    rfl

/-- **An id of even length is packed, and no index leaves a string.** -/
theorem getString_of_even {id : Bytes} (heven : (cString id).length % 2 = 0)
    (hlen : (cString id).length < 2 ^ 31) : getString id = .ok (pack (cString id)) := by
  have hsmall : (cString id).length / 2 ≤ maxAlloc := by
    unfold maxAlloc
    omega
  have hloop := binaryLoop_eq (cString id) [] heven (by rw [List.length_nil]; omega)
  rw [getString, getBinaryString, resize_of_le hsmall, Exec.ok_bind]
  exact hloop

/-- No hex digit is a `'\0'`. -/
theorem cString_hexId {id : Bytes} (h : HexId id) : cString id = id := by
  refine cString_of_not_mem fun hzero => ?_
  have hdigit : isHexDigit 0 = true := List.all_eq_true.mp h.1 0 hzero
  exact absurd hdigit (by decide)

theorem getString_eq {id : Bytes} (h : HexId id) (hlen : id.length < 2 ^ 31) :
    getString id = .ok (pack id) := by
  have hself := cString_hexId h
  rw [getString_of_even (by rw [hself]; exact h.2) (by rwa [hself]), hself]

/-! ## Which ids are packed into the same bytes -/

theorem getChar_eq_iff {c1 c2 d1 d2 : UInt8} (hc1 : isHexDigit c1 = true)
    (hc2 : isHexDigit c2 = true) (hd1 : isHexDigit d1 = true) (hd2 : isHexDigit d2 = true) :
    getChar c1 c2 = getChar d1 d2 ↔ toLower c1 = toLower d1 ∧ toLower c2 = toLower d2 := by
  have h1 := getHexIndex_lt hc2
  have h2 := getHexIndex_lt hd2
  rw [← getHexIndex_eq_iff hc1 hd1, ← getHexIndex_eq_iff hc2 hd2, ← UInt8.toNat_inj,
    getChar_toNat hc1 hc2, getChar_toNat hd1 hd2]
  constructor
  · intro h
    exact ⟨by omega, by omega⟩
  · rintro ⟨he1, he2⟩
    rw [he1, he2]

theorem pack_eq_iff : ∀ {a b : Bytes}, HexId a → HexId b →
    (pack a = pack b ↔ a.map toLower = b.map toLower)
  | [], [], _, _ => Iff.rfl
  | [c], _, ha, _ => absurd ha (not_hexId_single c)
  | _, [c], _, hb => absurd hb (not_hexId_single c)
  | [], _ :: _ :: _, _, _ => by simp [pack]
  | _ :: _ :: _, [], _, _ => by simp [pack]
  | c1 :: c2 :: a, d1 :: d2 :: b, ha, hb => by
    obtain ⟨hc1, hc2, ha⟩ := ha.tail
    obtain ⟨hd1, hd2, hb⟩ := hb.tail
    have ih := pack_eq_iff ha hb
    simp only [pack, List.map_cons, List.cons.injEq]
    rw [getChar_eq_iff hc1 hc2 hd1 hd2, ih, and_assoc]

/-- **Hex ids share a wire id exactly when they differ at most in the case of letters.** -/
theorem getString_eq_iff {a b : Bytes} (ha : HexId a) (hla : a.length < 2 ^ 31) (hb : HexId b)
    (hlb : b.length < 2 ^ 31) : getString a = getString b ↔ a.map toLower = b.map toLower := by
  rw [getString_eq ha hla, getString_eq hb hlb, ← pack_eq_iff ha hb]
  exact ⟨Except.ok.inj, congrArg _⟩

end Rosetta

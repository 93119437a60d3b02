import Rosetta.CycleBuffer.Refine
import Rosetta.Lib.Framing

/-!
# Frames

`simple_buffer` packs an id and data into one frame:

    8 bytes  total length
    1 byte   length of the id plus one
    id
    data

The length of the id goes through a `uint8_t`, so a frame can be read back only if the id has at
most 254 bytes. `Frame` holds an id and data for which this and the reader's size test work out.
-/

namespace Rosetta

open Lib CycleBuffer

/-! ## Writing a frame -/

/-- `len_`. Both strings are in memory, so the sum does not wrap. -/
def frameLen (id data : Bytes) : Nat := 9 + id.length + data.length

/-- The bytes of `buf_`. -/
def frameBytes (id data : Bytes) : Bytes :=
  toBytes64 (frameLen id data) ++ UInt8.ofNat (1 + id.length) :: (id ++ data)

/-- `simple_buffer(id, data, length, node_id)`. -/
def simpleBuffer (id data : Bytes) : Exec Bytes := do
  newChar (frameLen id data)
  .ok (frameBytes id data)

@[simp] theorem length_frameBytes (id data : Bytes) :
    (frameBytes id data).length = frameLen id data := by
  simp only [frameBytes, frameLen, List.length_append, length_toBytes64, List.length_cons]
  omega

theorem simpleBuffer_eq_ok {id data buf : Bytes} (h : simpleBuffer id data = .ok buf) :
    buf = frameBytes id data ∧ frameLen id data ≤ maxAlloc := by
  obtain ⟨u, hu, hbuf⟩ := Exec.bind_eq_ok.mp h
  exact ⟨(Except.ok.inj hbuf).symm, newChar_le hu⟩

/-! ## Splitting a frame -/

/-- The byte behind the length prefix. -/
def idLenByte (q : Bytes) : Nat := (q.getD 8 0).toNat

/-- The id-length byte is at least one, and the id ends inside the frame. -/
def Splits (len : Nat) (tmp : Bytes) : Prop := 1 ≤ idLenByte tmp ∧ 8 + idLenByte tmp ≤ len

instance (len : Nat) (tmp : Bytes) : Decidable (Splits len tmp) :=
  inferInstanceAs (Decidable (_ ∧ _))

theorem idLenByte_lt (q : Bytes) : idLenByte q < 256 := UInt8.toNat_lt_size _

theorem toNat_getD_eight (q : Bytes) : (q.getD 8 0).toNat = idLenByte q := rfl

theorem getElem?_eight {tmp : Bytes} (h : 9 < tmp.length) : tmp[8]? = some (tmp.getD 8 0) := by
  rw [List.getD_eq_getElem?_getD, List.getElem?_eq_getElem (by omega)]
  rfl

theorem splitFrame_of_splits {len : Nat} {tmp : Bytes} (htmp : tmp.length = len) (h9 : 9 < len)
    (hmax : len ≤ maxAlloc) (hs : Splits len tmp) :
    splitFrame len tmp
      = .ok ((tmp.drop 9).take (idLenByte tmp - 1), tmp.drop (8 + idLenByte tmp)) := by
  obtain ⟨h1, h2⟩ := hs
  have hlt := idLenByte_lt tmp
  have hbig : len < 2 ^ 63 := by unfold maxAlloc at hmax; omega
  have hid : wrapSub64 (idLenByte tmp) 1 = idLenByte tmp - 1 := wrapSub64_of_le h1 (by omega)
  have hdata : wrapSub64 (wrapSub64 len 8) (idLenByte tmp) = len - 8 - idLenByte tmp := by
    rw [wrapSub64_of_le (by omega : 8 ≤ len) (by omega)]
    exact wrapSub64_of_le (by omega) (by omega)
  unfold splitFrame
  rw [getElem?_eight (by omega)]
  simp only [toNat_getD_eight, hid, hdata]
  have hall : (tmp.drop (8 + idLenByte tmp)).take (len - 8 - idLenByte tmp)
      = tmp.drop (8 + idLenByte tmp) :=
    List.take_of_length_le (by rw [List.length_drop]; omega)
  rw [resize_of_le (by omega), Exec.ok_bind, substr, if_pos (by omega), Exec.ok_bind,
    resize_of_le (by omega), Exec.ok_bind, substr, if_pos (by omega), Exec.ok_bind, hall]

/-- The other heads: `resize` throws, or a `memcpy` reads behind `tmp`. -/
theorem splitFrame_of_not {len : Nat} {tmp : Bytes} (htmp : tmp.length = len) (h9 : 9 < len)
    (hs : ¬ Splits len tmp) : ∃ e, splitFrame len tmp = .error e := by
  have hlt := idLenByte_lt tmp
  unfold splitFrame
  rw [getElem?_eight (by omega)]
  simp only [toNat_getD_eight]
  by_cases h1 : 1 ≤ idLenByte tmp
  · have h2 : ¬ 8 + idLenByte tmp ≤ len := fun h2 => hs ⟨h1, h2⟩
    have hid : wrapSub64 (idLenByte tmp) 1 = idLenByte tmp - 1 := wrapSub64_of_le h1 (by omega)
    refine ⟨.outOfBounds, ?_⟩
    rw [hid, resize_of_le (by unfold maxAlloc; omega), Exec.ok_bind, substr, if_neg (by omega),
      Exec.error_bind]
  · have hid : wrapSub64 (idLenByte tmp) 1 = 2 ^ 64 - (1 - idLenByte tmp) :=
      wrapSub64_of_lt (by omega) (by omega)
    refine ⟨.lengthError, ?_⟩
    rw [hid, resize_of_lt (by unfold maxString; omega), Exec.error_bind]

/-- An id that was read has at most 254 bytes. -/
theorem length_le_of_splitFrame {len : Nat} {tmp id data : Bytes} (htmp : tmp.length = len)
    (h9 : 9 < len) (hmax : len ≤ maxAlloc) (h : splitFrame len tmp = .ok (id, data)) :
    id.length ≤ 254 := by
  have hlt := idLenByte_lt tmp
  by_cases hs : Splits len tmp
  · rw [splitFrame_of_splits htmp h9 hmax hs] at h
    obtain ⟨rfl, -⟩ := Prod.mk.inj (Except.ok.inj h)
    rw [List.length_take]
    omega
  · obtain ⟨e, he⟩ := splitFrame_of_not htmp h9 hs
    rw [he] at h
    cases h

/-! ## The head of a queue that starts with a frame -/

theorem headLen_frameBytes_append {id data : Bytes} (h : frameLen id data < 2 ^ 64)
    (rest : Bytes) : headLen (frameBytes id data ++ rest) = frameLen id data := by
  rw [headLen, frameBytes, List.append_assoc, List.take_left' (length_toBytes64 _),
    ofBytes64_toBytes64 h]

theorem idLenByte_frameBytes {id : Bytes} (h : id.length ≤ 254) (data : Bytes) :
    idLenByte (frameBytes id data) = 1 + id.length := by
  have hget : (frameBytes id data).getD 8 0 = UInt8.ofNat (1 + id.length) := by
    rw [frameBytes, List.getD_eq_getElem?_getD,
      List.getElem?_append_right (by rw [length_toBytes64]), length_toBytes64]
    rfl
  rw [idLenByte, hget, UInt8.toNat_ofNat']
  exact Nat.mod_eq_of_lt (by omega)

/-- **A frame with a short id is split into its id and its data.** -/
theorem splitFrame_frameBytes {id data : Bytes} (hid : id.length ≤ 254)
    (hne : id ≠ [] ∨ data ≠ []) (hmax : frameLen id data ≤ maxAlloc) :
    splitFrame (frameLen id data) (frameBytes id data) = .ok (id, data) := by
  have h9 : 9 < frameLen id data := by
    unfold frameLen
    rcases hne with h | h
    · have := List.length_pos_iff.mpr h
      omega
    · have := List.length_pos_iff.mpr h
      omega
  have hbyte := idLenByte_frameBytes hid data
  rw [splitFrame_of_splits (length_frameBytes id data) h9 hmax
    ⟨by omega, by unfold frameLen; omega⟩, hbyte]
  have hfront : (toBytes64 (frameLen id data) ++ [UInt8.ofNat (1 + id.length)]).length = 9 := by
    rw [List.length_append, length_toBytes64]
    rfl
  have hcut : frameBytes id data
      = (toBytes64 (frameLen id data) ++ [UInt8.ofNat (1 + id.length)]) ++ (id ++ data) := by
    rw [frameBytes, List.append_assoc]
    rfl
  have hdrop : (frameBytes id data).drop 9 = id ++ data := by
    rw [hcut, List.drop_left' hfront]
  rw [hdrop, show 8 + (1 + id.length) = 9 + id.length by omega, ← List.drop_drop, hdrop,
    show 1 + id.length - 1 = id.length by omega, List.take_left, List.drop_left]

/-! ## Frames as messages of a stream -/

/-- An id and data that come back out of the frame they are packed into. -/
structure Frame where
  id : Bytes
  data : Bytes
  short : id.length ≤ 254
  nonempty : id ≠ [] ∨ data ≠ []
  fits : frameLen id data ≤ maxAlloc

namespace Frame

def bytes (f : Frame) : Bytes := frameBytes f.id f.data

def len (f : Frame) : Nat := frameLen f.id f.data

@[simp] theorem length_bytes (f : Frame) : f.bytes.length = f.len := length_frameBytes _ _

theorem nine_lt_len (f : Frame) : 9 < f.len := by
  unfold len frameLen
  rcases f.nonempty with h | h
  · have := List.length_pos_iff.mpr h
    omega
  · have := List.length_pos_iff.mpr h
    omega

theorem len_lt (f : Frame) : f.len < 2 ^ 64 := by
  have h : f.len ≤ maxAlloc := f.fits
  unfold maxAlloc at h
  omega

theorem split (f : Frame) : splitFrame f.len f.bytes = .ok (f.id, f.data) :=
  splitFrame_frameBytes f.short f.nonempty f.fits

/-- The frames of a connection, as messages in a byte stream. -/
def framing : Framing UInt8 Frame where
  encode := bytes
  head := 8
  len := headLen
  head_pos := by decide
  head_le f := by
    have h := f.nine_lt_len
    rw [length_bytes]
    omega
  len_take s := by
    rw [headLen, headLen, List.take_take, Nat.min_self]
  len_encode f := by
    have h := headLen_frameBytes_append f.len_lt []
    rwa [List.append_nil, ← length_frameBytes] at h

end Frame

end Rosetta

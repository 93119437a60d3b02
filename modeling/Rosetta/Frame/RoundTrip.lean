import Rosetta.Frame.Basic

/-!
# Reading back what `simple_buffer` wrote

A frame at the head of a ring is read back exactly when its id has at most 254 bytes and id and
data are not both empty (`roundTrip_iff`).

* a longer id does not fit the `uint8_t` that holds its length plus one
* a frame of nine bytes is not longer than nine bytes, which is what both `can_read()` and `read`
  ask for
-/

namespace Rosetta

open Lib CycleBuffer

variable {b : CycleBuffer}

/-! ## Frames at the head -/

theorem headLen_of_frame {f : Frame} {rest : Bytes} (hc : b.contents = f.bytes ++ rest) :
    headLen b.contents = f.len := by
  rw [hc]
  exact headLen_frameBytes_append f.len_lt rest

theorem len_le_size_of_frame {f : Frame} {rest : Bytes} (hc : b.contents = f.bytes ++ rest) :
    f.len ≤ b.size := by
  rw [← length_contents, hc, List.length_append, Frame.length_bytes]
  omega

theorem hasFrame_of_frame {f : Frame} {rest : Bytes} (hc : b.contents = f.bytes ++ rest) :
    HasFrame b.contents := by
  refine ⟨?_, ?_⟩
  · rw [headLen_of_frame hc]
    exact f.nine_lt_len
  · rw [headLen_of_frame hc, length_contents]
    exact len_le_size_of_frame hc

theorem canRead_of_frame (hi : Inv b) {f : Frame} {rest : Bytes}
    (hc : b.contents = f.bytes ++ rest) : b.canRead = .ok true := by
  have hlen := len_le_size_of_frame hc
  have h9 := f.nine_lt_len
  rw [canRead_eq hi, headLen_of_frame hc, decide_eq_true ⟨by omega, hlen⟩]

/-- **A frame at the head is read back, and exactly its bytes are removed.** -/
theorem readFrame_of_bytes (hi : Inv b) {f : Frame} {rest : Bytes}
    (hc : b.contents = f.bytes ++ rest) :
    b.readFrame = .ok ⟨f.len, f.id, f.data, b.removed f.len⟩ := by
  have htake : b.contents.take f.len = f.bytes := by
    rw [hc, ← f.length_bytes, List.take_left]
  rw [readFrame_of_frame hi (hasFrame_of_frame hc), headLen_of_frame hc, htake, f.split,
    Exec.ok_bind]

theorem contents_removed_frame (hi : Inv b) {f : Frame} {rest : Bytes}
    (hc : b.contents = f.bytes ++ rest) : (b.removed f.len).contents = rest := by
  rw [contents_removed hi (len_le_size_of_frame hc), hc, ← f.length_bytes, List.drop_left]

/-! ## What the reader does with any id and data -/

/-- The reader gives the id and data back, and leaves what followed the frame. -/
def RoundTrip (b : CycleBuffer) (id data rest : Bytes) : Prop :=
  b.canRead = .ok true ∧ ∃ r, b.readFrame = .ok r ∧ r.ret = frameLen id data ∧ r.id = id ∧
    r.data = data ∧ Inv r.buf ∧ r.buf.contents = rest

theorem roundTrip_of_frame (hi : Inv b) {f : Frame} {rest : Bytes}
    (hc : b.contents = f.bytes ++ rest) : RoundTrip b f.id f.data rest :=
  ⟨canRead_of_frame hi hc, _, readFrame_of_bytes hi hc, rfl, rfl, rfl,
    hi.removed (len_le_size_of_frame hc), contents_removed_frame hi hc⟩

/-- A frame that was taken off the ring was longer than nine bytes and its id shorter than 255. -/
theorem short_of_readFrame (hi : Inv b) {r : FrameRead} (h : b.readFrame = .ok r)
    (hret : r.ret ≠ 0) : 9 < headLen b.contents ∧ r.id.length ≤ 254 := by
  by_cases hf : HasFrame b.contents
  · have h9 := hf.1
    have hl := hf.2
    have hs := hi.size_le
    have hn := hi.n_le
    rw [length_contents] at hl
    rw [readFrame_of_frame hi hf] at h
    obtain ⟨⟨id, data⟩, hsplit, hr⟩ := Exec.bind_eq_ok.mp h
    obtain rfl := Except.ok.inj hr
    have hlen : (b.contents.take (headLen b.contents)).length = headLen b.contents := by
      rw [List.length_take, length_contents]
      omega
    exact ⟨h9, length_le_of_splitFrame hlen h9 (by omega) hsplit⟩
  · rw [readFrame_of_not hi hf] at h
    obtain rfl := Except.ok.inj h
    exact absurd rfl hret

theorem short_of_roundTrip (hi : Inv b) {id data rest : Bytes} (h : RoundTrip b id data rest) :
    id.length ≤ 254 := by
  obtain ⟨-, r, hr, hret, hid, -⟩ := h
  have hne : r.ret ≠ 0 := by
    rw [hret]
    unfold frameLen
    omega
  rw [← hid]
  exact (short_of_readFrame hi hr hne).2

theorem nonempty_of_roundTrip (hi : Inv b) {id data rest : Bytes}
    (hlen : headLen b.contents = frameLen id data) (h : RoundTrip b id data rest) :
    id ≠ [] ∨ data ≠ [] := by
  obtain ⟨-, r, hr, hret, -⟩ := h
  have hne : r.ret ≠ 0 := by
    rw [hret]
    unfold frameLen
    omega
  have h9 := (short_of_readFrame hi hr hne).1
  rw [hlen, frameLen] at h9
  by_cases hid : id = []
  · refine Or.inr fun hdata => ?_
    rw [hid, hdata] at h9
    simp at h9
  · exact Or.inl hid

/--
**Decoding undoes encoding exactly for short ids and frames that are not empty**, whatever
follows the frame and wherever it lies in the ring.
-/
theorem roundTrip_iff (hi : Inv b) {id data buf rest : Bytes} (hbuf : simpleBuffer id data = .ok buf)
    (hc : b.contents = buf ++ rest) :
    RoundTrip b id data rest ↔ id.length ≤ 254 ∧ (id ≠ [] ∨ data ≠ []) := by
  obtain ⟨rfl, hfits⟩ := simpleBuffer_eq_ok hbuf
  constructor
  · intro h
    have hlen : headLen b.contents = frameLen id data := by
      rw [hc]
      exact headLen_frameBytes_append (by unfold maxAlloc at hfits; omega) rest
    exact ⟨short_of_roundTrip hi h, nonempty_of_roundTrip hi hlen h⟩
  · rintro ⟨hid, hne⟩
    exact roundTrip_of_frame (f := ⟨id, data, hid, hne, hfits⟩) hi hc

/-- A frame with id `a` and three bytes of data, wrapped around the end of a ring of 20 bytes. -/
theorem roundTrip_iff_small : RoundTrip (place 20 15 (frameBytes [97] [1, 2, 3] ++ [5])) [97]
    [1, 2, 3] [5] :=
  have h := place_spec (n := 20) (r := 15) (q := frameBytes [97] [1, 2, 3] ++ [5]) (by decide)
    (by decide) (by decide)
  (roundTrip_iff h.1 rfl h.2).mpr (by decide)

/-- An id of 255 bytes, and the frame of nine bytes. -/
theorem not_roundTrip : (∃ b : CycleBuffer, Inv b ∧
      b.contents = frameBytes (List.replicate 255 97) [49] ∧
      ¬ RoundTrip b (List.replicate 255 97) [49] []) ∧
    ∃ b : CycleBuffer, Inv b ∧ b.contents = frameBytes [] [] ++ [7] ∧ ¬ RoundTrip b [] [] [7] := by
  have hlong := place_spec (n := 300) (r := 290) (q := frameBytes (List.replicate 255 97) [49])
    (by decide) (by rw [length_frameBytes, frameLen, List.length_replicate]; decide) (by decide)
  have hempty := place_spec (n := 16) (r := 12) (q := frameBytes [] [] ++ [7]) (by decide)
    (by decide) (by decide)
  refine ⟨⟨_, hlong.1, hlong.2, fun h => ?_⟩, ⟨_, hempty.1, hempty.2, fun h => ?_⟩⟩
  · have hshort := short_of_roundTrip hlong.1 h
    rw [List.length_replicate] at hshort
    omega
  · have hlen : headLen (place 16 12 (frameBytes [] [] ++ [7])).contents = frameLen [] [] := by
      rw [hempty.2]
      decide
    have hne := nonempty_of_roundTrip hempty.1 hlen h
    exact hne.elim (fun h => h rfl) (fun h => h rfl)

end Rosetta

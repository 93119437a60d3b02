import Rosetta.CycleBuffer.Basic

/-!
# `cycle_buffer` is a queue of bytes

The queue that a ring holds is what is read from `r_pos_` on, modulo `n_` (`contents`). Under the
invariant `Inv` every operation does to this queue what its name says, and no copy leaves the
block.

The invariant is one equation modulo `n_`. Every proof splits it into the three shapes a ring can
have (`Layout`) and is linear arithmetic from there.
-/

namespace Rosetta.CycleBuffer

open Lib

/-- The queued bytes, oldest first. -/
def contents (b : CycleBuffer) : Bytes := window b.buffer b.n b.rPos b.size

structure Inv (b : CycleBuffer) : Prop where
  rPos_lt : b.rPos < b.n
  wPos_lt : b.wPos < b.n
  remain_le : b.remainSpace ≤ b.n
  wrap : (b.rPos + b.size) % b.n = b.wPos
  n_le : b.n ≤ maxAlloc

/-- The three shapes of a ring. `r_pos_ = w_pos_` is the empty ring or the full one. -/
inductive Layout (b : CycleBuffer) : Prop
  | straight (hpos : b.rPos < b.wPos) (hsize : b.size = b.wPos - b.rPos)
  | wrapped (hpos : b.wPos ≤ b.rPos) (hsize : b.size = b.n - b.rPos + b.wPos)
  | empty (hpos : b.wPos = b.rPos) (hsize : b.size = 0)

variable {b : CycleBuffer}

theorem size_of_le (hr : b.remainSpace ≤ b.n) (hn : b.n ≤ maxAlloc) :
    b.size = b.n - b.remainSpace := by
  unfold maxAlloc at hn
  exact wrapSub64_of_le hr (by omega)

theorem Inv.size_eq (h : Inv b) : b.size = b.n - b.remainSpace := size_of_le h.remain_le h.n_le

theorem Inv.size_le (h : Inv b) : b.size ≤ b.n := by
  rw [h.size_eq]
  omega

theorem Inv.n_lt (h : Inv b) : b.n < 2 ^ 63 := by
  have hn := h.n_le
  unfold maxAlloc at hn
  omega

@[simp] theorem length_contents (b : CycleBuffer) : b.contents.length = b.size := by
  simp [contents]

theorem Inv.layout (h : Inv b) : Layout b := by
  have hr := h.rPos_lt
  have hs := h.size_le
  have hw := h.wrap
  rw [mod_eq_ite (by omega)] at hw
  split at hw
  · by_cases hz : b.size = 0
    · exact .empty (by omega) hz
    · exact .straight (by omega) (by omega)
  · exact .wrapped (by omega) (by omega)

theorem Inv.of_layout (hr : b.rPos < b.n) (hw : b.wPos < b.n) (hrem : b.remainSpace ≤ b.n)
    (hn : b.n ≤ maxAlloc) (hl : Layout b) : Inv b := by
  have hs := size_of_le hrem hn
  refine ⟨hr, hw, hrem, ?_, hn⟩
  rw [mod_eq_ite (by omega)]
  cases hl with
  | straight hpos hsize =>
    rw [if_pos (by omega)]
    omega
  | wrapped hpos hsize =>
    rw [if_neg (by omega)]
    omega
  | empty hpos hsize =>
    rw [if_pos (by omega)]
    omega

/-! ## Checked copies -/

theorem copyOut_of_le {pos len : Nat} (h : pos + len ≤ b.n) :
    b.copyOut pos len = .ok (cells b.buffer pos len) := if_pos h

theorem copyIn_of_le {pos : Nat} {data : Bytes} (h : pos + data.length ≤ b.n) :
    b.copyIn pos data = .ok { b with buffer := overwrite b.buffer pos data } := if_pos h

theorem add64_pos {a c : Nat} (ha : a < 2 ^ 63) (hc : c < 2 ^ 63) : add64 a c = a + c :=
  add64_of_lt (by omega)

/-! ## The head of the queue -/

/-- The first `len` bytes, when they lie in one stretch. -/
theorem take_contents_of_le {len : Nat} (hlen : len ≤ b.size) (h : b.rPos + len ≤ b.n) :
    b.contents.take len = cells b.buffer b.rPos len := by
  rw [contents, take_window _ _ _ hlen, window_eq_cells _ h]

/-- The first `len` bytes, when they run past the end of the block. -/
theorem take_contents_of_wrap {len : Nat} (hi : Inv b) (hlen : len ≤ b.size)
    (h : b.n - b.rPos ≤ len) :
    b.contents.take len
      = cells b.buffer b.rPos (b.n - b.rPos) ++ cells b.buffer 0 (len - (b.n - b.rPos)) := by
  have hs := hi.size_le
  rw [contents, take_window _ _ _ hlen, window_eq_append _ hi.rPos_lt h (by omega)]

theorem peekCopy_eq (hi : Inv b) {len : Nat} (hlen : len ≤ b.size) :
    b.peekCopy len = .ok (b.contents.take len) := by
  have hr := hi.rPos_lt
  have hw := hi.wPos_lt
  have hs := hi.size_le
  unfold peekCopy
  cases hi.layout with
  | straight hpos hsize =>
    rw [if_neg (by omega), if_pos hpos, copyOut_of_le (by omega),
      take_contents_of_le hlen (by omega)]
  | wrapped hpos hsize =>
    rw [if_pos ⟨hpos, by omega⟩, sub64_of_le (by omega), Exec.ok_bind]
    by_cases hl : b.rPos ≤ b.n - len
    · rw [if_pos hl, copyOut_of_le (by omega), take_contents_of_le hlen (by omega)]
    · rw [if_neg hl, sub64_of_le (by omega), Exec.ok_bind, sub64_of_le (by omega), Exec.ok_bind,
        copyOut_of_le (by omega), Exec.ok_bind, copyOut_of_le (by omega), Exec.ok_bind,
        take_contents_of_wrap hi hlen (by omega)]
  | empty hpos hsize =>
    have hz : len = 0 := by omega
    rw [if_neg (by omega), if_neg (by omega), hz, List.take_zero]

theorem peek_eq (hi : Inv b) {len : Nat} (hlen : len ≤ b.size) :
    b.peek len = .ok (b.contents.take len) := by
  rw [peek, if_pos hlen, peekCopy_eq hi hlen]

theorem lenBytes_eq (hi : Inv b) (h8 : 8 ≤ b.size) : b.lenBytes = .ok (b.contents.take 8) := by
  have hr := hi.rPos_lt
  have hs := hi.size_le
  unfold lenBytes
  rw [sub64_of_le (by omega), Exec.ok_bind]
  by_cases hl : b.rPos ≤ b.n - 8
  · rw [if_pos hl, copyOut_of_le (by omega), take_contents_of_le h8 (by omega)]
  · rw [if_neg hl, sub64_of_le (by omega), Exec.ok_bind, sub64_of_le (by omega), Exec.ok_bind,
      copyOut_of_le (by omega), Exec.ok_bind, copyOut_of_le (by omega), Exec.ok_bind,
      take_contents_of_wrap hi h8 (by omega)]

/-- The length prefix at the head of a queue. -/
def headLen (q : Bytes) : Nat := ofBytes64 (q.take 8)

/-- `can_read()` says whether the queue is longer than a bare header and holds the whole frame. -/
theorem canRead_eq (hi : Inv b) :
    b.canRead = .ok (decide (9 < b.size ∧ headLen b.contents ≤ b.size)) := by
  have hr := hi.rPos_lt
  have hw := hi.wPos_lt
  have hs := hi.size_le
  unfold canRead
  by_cases h9 : 9 < b.size
  · rw [if_pos h9]
    cases hi.layout with
    | straight hpos hsize =>
      rw [if_pos hpos, copyOut_of_le (by omega), Exec.ok_bind]
      simp only [headLen, h9, true_and, take_contents_of_le (by omega : 8 ≤ b.size)
        (by omega : b.rPos + 8 ≤ b.n)]
    | wrapped hpos hsize =>
      rw [if_neg (by omega), if_pos (by omega), lenBytes_eq hi (by omega), Exec.ok_bind]
      simp only [headLen, h9, true_and]
    | empty hpos hsize => omega
  · rw [if_neg h9]
    simp [h9]

/-! ## Removing from the head -/

/-- The ring after its first `len` bytes were taken. -/
def removed (b : CycleBuffer) (len : Nat) : CycleBuffer :=
  { b with rPos := (b.rPos + len) % b.n, remainSpace := b.remainSpace + len }

theorem removed_zero (hi : Inv b) : b.removed 0 = b := by
  have hmod : b.rPos % b.n = b.rPos := Nat.mod_eq_of_lt hi.rPos_lt
  simp only [removed, Nat.add_zero, hmod]

theorem size_removed (hi : Inv b) {len : Nat} (hlen : len ≤ b.size) :
    (b.removed len).size = b.size - len := by
  have hs := hi.size_eq
  have hn := hi.remain_le
  have hsize := size_of_le (b := b.removed len) (by show b.remainSpace + len ≤ b.n; omega) hi.n_le
  rw [hsize, hs]
  show b.n - (b.remainSpace + len) = _
  omega

theorem Inv.removed (hi : Inv b) {len : Nat} (hlen : len ≤ b.size) : Inv (b.removed len) := by
  have hs := hi.size_eq
  have hr := hi.rPos_lt
  have hn := hi.remain_le
  refine ⟨Nat.mod_lt _ (by show 0 < b.n; omega), hi.wPos_lt, ?_, ?_, hi.n_le⟩
  · show b.remainSpace + len ≤ b.n
    omega
  · rw [size_removed hi hlen]
    show ((b.rPos + len) % b.n + (b.size - len)) % b.n = b.wPos
    rw [Nat.mod_add_mod, show b.rPos + len + (b.size - len) = b.rPos + b.size by omega]
    exact hi.wrap

theorem contents_removed (hi : Inv b) {len : Nat} (hlen : len ≤ b.size) :
    (b.removed len).contents = b.contents.drop len := by
  rw [contents, contents, drop_window _ _ _ hlen, size_removed hi hlen]
  rfl

theorem readTake_eq (hi : Inv b) {len : Nat} (hlen : len ≤ b.size) :
    b.readTake len = .ok (b.contents.take len, b.removed len) := by
  have hr := hi.rPos_lt
  have hw := hi.wPos_lt
  have hs := hi.size_le
  have hn := hi.n_lt
  have hrem := hi.remain_le
  have hadd : add64 b.rPos len = b.rPos + len := add64_pos (by omega) (by omega)
  have hadd' : add64 b.remainSpace len = b.remainSpace + len := add64_pos (by omega) (by omega)
  unfold readTake
  rw [hadd, hadd']
  cases hi.layout with
  | straight hpos hsize =>
    have hmod : (b.rPos + len) % b.n = b.rPos + len := Nat.mod_eq_of_lt (by omega)
    rw [if_neg (by omega), if_pos hpos, copyOut_of_le (by omega), Exec.ok_bind,
      take_contents_of_le hlen (by omega), removed, hmod]
  | wrapped hpos hsize =>
    rw [if_pos ⟨hpos, by omega⟩, sub64_of_le (by omega), Exec.ok_bind]
    by_cases hl : b.rPos ≤ b.n - len
    · rw [if_pos hl, copyOut_of_le (by omega), Exec.ok_bind, take_contents_of_le hlen (by omega),
        removed]
    · have hmod : (b.rPos + len) % b.n = len - (b.n - b.rPos) := by
        rw [mod_eq_ite (by omega), if_neg (by omega)]
        omega
      rw [if_neg hl, sub64_of_le (by omega), Exec.ok_bind, sub64_of_le (by omega), Exec.ok_bind,
        copyOut_of_le (by omega), Exec.ok_bind, copyOut_of_le (by omega), Exec.ok_bind,
        take_contents_of_wrap hi hlen (by omega), removed, hmod]
  | empty hpos hsize =>
    have hz : len = 0 := by omega
    rw [if_neg (by omega), if_neg (by omega), hz, List.take_zero, removed_zero hi]

theorem read_eq (hi : Inv b) {len : Nat} (hlen : len ≤ b.size) :
    b.read len = .ok (b.contents.take len, b.removed len) := by
  rw [read, if_pos hlen, readTake_eq hi hlen]

/-! ## The frame reader -/

theorem fetchFrame_eq (hi : Inv b) (h9 : 9 < b.size) :
    b.fetchFrame = .ok (headLen b.contents,
      if headLen b.contents ≤ b.size then b.contents.take (headLen b.contents) else []) := by
  have hr := hi.rPos_lt
  have hw := hi.wPos_lt
  have hs := hi.size_le
  have hn := hi.n_le
  unfold fetchFrame
  cases hi.layout with
  | straight hpos hsize =>
    rw [if_pos hpos, copyOut_of_le (by omega), Exec.ok_bind,
      ← take_contents_of_le (by omega : 8 ≤ b.size) (by omega : b.rPos + 8 ≤ b.n), ← headLen]
    by_cases hl : headLen b.contents ≤ b.size
    · simp only [if_pos hl]
      rw [resize_of_le (by omega), Exec.ok_bind, copyOut_of_le (by omega), Exec.ok_bind,
        take_contents_of_le hl (by omega)]
    · simp only [if_neg hl]
  | wrapped hpos hsize =>
    rw [if_neg (by omega), if_pos (by omega), lenBytes_eq hi (by omega), Exec.ok_bind, ← headLen]
    by_cases hl : headLen b.contents ≤ b.size
    · simp only [if_pos hl]
      rw [resize_of_le (by omega), Exec.ok_bind, sub64_of_le (by omega), Exec.ok_bind]
      by_cases hf : headLen b.contents ≤ b.n - b.rPos
      · rw [if_pos hf, copyOut_of_le (by omega), Exec.ok_bind, take_contents_of_le hl (by omega)]
      · rw [if_neg hf, sub64_of_le (by omega), Exec.ok_bind, copyOut_of_le (by omega),
          Exec.ok_bind, copyOut_of_le (by omega), Exec.ok_bind,
          take_contents_of_wrap hi hl (by omega)]
    · simp only [if_neg hl]
  | empty hpos hsize => omega

/-- The frame at the head is there in full, and is longer than a bare header. -/
def HasFrame (q : Bytes) : Prop := 9 < headLen q ∧ headLen q ≤ q.length

instance (q : Bytes) : Decidable (HasFrame q) := inferInstanceAs (Decidable (_ ∧ _))

/-- A head that is no frame is left alone. -/
theorem readFrame_of_not (hi : Inv b) (h : ¬ HasFrame b.contents) :
    b.readFrame = .ok ⟨0, [], [], b⟩ := by
  unfold HasFrame at h
  rw [length_contents] at h
  unfold readFrame
  by_cases h9 : 9 < b.size
  · rw [if_pos h9, fetchFrame_eq hi h9, Exec.ok_bind]
    by_cases hl : headLen b.contents ≤ b.size
    · simp only [if_pos hl, List.length_take, length_contents]
      rw [if_neg (by omega)]
    · simp only [if_neg hl, List.length_nil]
      rw [if_neg (by omega)]
  · rw [if_neg h9]

/-- A frame at the head is split as `splitFrame` does it, and its bytes are removed. -/
theorem readFrame_of_frame (hi : Inv b) (h : HasFrame b.contents) :
    b.readFrame = splitFrame (headLen b.contents) (b.contents.take (headLen b.contents)) >>=
      fun p => .ok ⟨headLen b.contents, p.1, p.2, b.removed (headLen b.contents)⟩ := by
  obtain ⟨h9, hl⟩ := h
  rw [length_contents] at hl
  have hr := hi.rPos_lt
  have hn := hi.n_lt
  have hs := hi.size_le
  have hrem := hi.remain_le
  have hlen : (b.contents.take (headLen b.contents)).length = headLen b.contents := by
    rw [List.length_take, length_contents]
    omega
  have hadd : add64 b.rPos (headLen b.contents) = b.rPos + headLen b.contents :=
    add64_pos (by omega) (by omega)
  have hadd' : add64 b.remainSpace (headLen b.contents) = b.remainSpace + headLen b.contents :=
    add64_pos (by omega) (by omega)
  unfold readFrame
  rw [if_pos (by omega), fetchFrame_eq hi (by omega), Exec.ok_bind]
  simp only [if_pos hl, hlen, if_pos h9, hadd, hadd', removed]

/-! ## Appending at the tail

The three writing branches differ in where the bytes go. What they share is said once: if the cells
from `w_pos_` on hold `data` and the queued cells are untouched, `data` was appended.
-/

theorem Inv.appended {b' : CycleBuffer} {data : Bytes} (hi : Inv b)
    (hfit : data.length ≤ b.remainSpace) (hr : b'.rPos = b.rPos) (hn : b'.n = b.n)
    (hrem : b'.remainSpace = b.remainSpace - data.length)
    (hw : b'.wPos = (b.wPos + data.length) % b.n)
    (hnew : window b'.buffer b.n b.wPos data.length = data)
    (hold : ∀ i < b.size, b'.buffer ((b.rPos + i) % b.n) = b.buffer ((b.rPos + i) % b.n)) :
    Inv b' ∧ b'.contents = b.contents ++ data := by
  have hs := hi.size_eq
  have hle := hi.remain_le
  have hmax := hi.n_le
  have hpos := hi.rPos_lt
  have hsize : b'.size = b.size + data.length := by
    rw [size_of_le (by omega) (by omega), hs]
    omega
  refine ⟨⟨by omega, ?_, by omega, ?_, by omega⟩, ?_⟩
  · rw [hw, hn]
    exact Nat.mod_lt _ (by omega)
  · rw [hr, hsize, hn, hw, ← hi.wrap, Nat.mod_add_mod, Nat.add_assoc]
  · rw [contents, hsize, hr, hn, window_add, hi.wrap, hnew, contents, window_congr hold]

theorem writePlace_eq (hi : Inv b) {data : Bytes} (hfit : data.length ≤ b.remainSpace) :
    ∃ b', b.writePlace data = .ok b' ∧ b'.rPos = b.rPos ∧ b'.n = b.n ∧
      b'.remainSpace = b.remainSpace ∧ b'.wPos = (b.wPos + data.length) % b.n ∧
      window b'.buffer b.n b.wPos data.length = data ∧
      ∀ i < b.size, b'.buffer ((b.rPos + i) % b.n) = b.buffer ((b.rPos + i) % b.n) := by
  have hr := hi.rPos_lt
  have hw := hi.wPos_lt
  have hs := hi.size_eq
  have hle := hi.remain_le
  have hn := hi.n_lt
  have hadd : add64 b.wPos data.length = b.wPos + data.length := add64_pos (by omega) (by omega)
  unfold writePlace
  rw [hadd]
  by_cases htail : b.rPos ≤ b.wPos ∧ 0 < b.remainSpace
  · -- the queued bytes are `[r, w)`, the free ones `[w, n)` and `[0, r)`
    have hsize : b.size = b.wPos - b.rPos := by
      cases hi.layout with
      | straight hpos hsize => exact hsize
      | wrapped hpos hsize => omega
      | empty hpos hsize => omega
    have hidx : ∀ i < b.size, (b.rPos + i) % b.n = b.rPos + i := fun i hlt =>
      Nat.mod_eq_of_lt (by omega)
    rw [if_pos htail, sub64_of_le (by omega), Exec.ok_bind]
    by_cases hl : b.wPos ≤ b.n - data.length
    · rw [if_pos hl, copyIn_of_le (by omega), Exec.ok_bind]
      refine ⟨_, rfl, rfl, rfl, rfl, rfl, ?_, ?_⟩
      · rw [window_eq_cells _ (by omega)]
        exact cells_overwrite_self _ _ _
      · intro i hlt
        rw [hidx i hlt]
        exact overwrite_of_lt _ _ (by omega)
    · have htake : (data.take (b.n - b.wPos)).length = b.n - b.wPos := by
        rw [List.length_take]
        omega
      have hdrop : (data.drop (b.n - b.wPos)).length = data.length - (b.n - b.wPos) := by
        rw [List.length_drop]
      rw [if_neg hl, sub64_of_le (by omega), Exec.ok_bind, sub64_of_le (by omega), Exec.ok_bind,
        copyIn_of_le (by omega), Exec.ok_bind,
        copyIn_of_le (by show 0 + _ ≤ b.n; omega), Exec.ok_bind]
      refine ⟨_, rfl, rfl, rfl, rfl, ?_, ?_, ?_⟩
      · rw [mod_eq_ite (by omega), if_neg (by omega)]
        show data.length - (b.n - b.wPos) = _
        omega
      · rw [window_eq_append _ hw (by omega) (by omega),
          cells_overwrite_of_disjoint _ _ (Or.inr (by omega))]
        have hfirst := cells_overwrite_self b.buffer b.wPos (data.take (b.n - b.wPos))
        have hsecond := cells_overwrite_self
          (overwrite b.buffer b.wPos (data.take (b.n - b.wPos))) 0 (data.drop (b.n - b.wPos))
        rw [htake] at hfirst
        rw [hdrop] at hsecond
        rw [hfirst, hsecond, List.take_append_drop]
      · intro i hlt
        show overwrite (overwrite b.buffer _ _) 0 _ _ = _
        rw [hidx i hlt, overwrite_of_le _ _ (by omega), overwrite_of_lt _ _ (by omega)]
  · rw [if_neg htail]
    by_cases hmid : b.wPos < b.rPos
    · -- the free bytes are `[w, r)`
      have hsize : b.size = b.n - b.rPos + b.wPos := by
        cases hi.layout with
        | straight hpos hsize => omega
        | wrapped hpos hsize => exact hsize
        | empty hpos hsize => omega
      rw [if_pos hmid, copyIn_of_le (by omega), Exec.ok_bind]
      refine ⟨_, rfl, rfl, rfl, rfl, ?_, ?_, ?_⟩
      · rw [Nat.mod_eq_of_lt (by omega)]
      · rw [window_eq_cells _ (by omega)]
        exact cells_overwrite_self _ _ _
      · intro i hlt
        show overwrite b.buffer _ _ _ = _
        rw [mod_eq_ite (by omega)]
        split
        · exact overwrite_of_le _ _ (by omega)
        · exact overwrite_of_lt _ _ (by omega)
    · have hz : data = [] := by
        refine List.length_eq_zero_iff.mp ?_
        cases hi.layout with
        | straight hpos hsize => omega
        | wrapped hpos hsize => omega
        | empty hpos hsize => omega
      subst hz
      rw [if_neg hmid]
      exact ⟨b, rfl, rfl, rfl, rfl, (Nat.mod_eq_of_lt hw).symm, rfl, fun _ _ => rfl⟩

theorem writeCopy_eq (hi : Inv b) (data : Bytes) (hfit : data.length ≤ b.remainSpace) :
    ∃ b', b.writeCopy data = .ok b' ∧ Inv b' ∧ b'.contents = b.contents ++ data ∧ b'.n = b.n := by
  obtain ⟨b', hb', hr, hn, hrem, hw, hnew, hold⟩ := writePlace_eq hi hfit
  have happ : Inv { b' with remainSpace := b.remainSpace - data.length } ∧
      contents { b' with remainSpace := b.remainSpace - data.length } = b.contents ++ data :=
    hi.appended hfit hr hn rfl hw hnew hold
  refine ⟨{ b' with remainSpace := b.remainSpace - data.length }, ?_, happ.1, happ.2, hn⟩
  rw [writeCopy, hb', Exec.ok_bind, hrem, sub64_of_le hfit, Exec.ok_bind]

/-! ## Growing -/

/-- The capacity that `realloc(length)` computes, before it is cut to 64 bits. -/
def wantCapacity (b : CycleBuffer) (length : Nat) : Nat := b.n * (length / b.n + 2)

theorem newCapacity_eq (hi : Inv b) {length : Nat} (h : b.wantCapacity length < 2 ^ 64) :
    b.newCapacity length = b.wantCapacity length := by
  have hr := hi.rPos_lt
  have hle : length / b.n + 2 ≤ b.wantCapacity length := Nat.le_mul_of_pos_left _ (by omega)
  unfold newCapacity wantCapacity at *
  rw [add64_of_lt (by omega), mul64_of_lt h]

/-- The new block has room for the queue and for `length` bytes more. -/
theorem lt_wantCapacity (hi : Inv b) (length : Nat) : length + b.n < b.wantCapacity length := by
  have hr := hi.rPos_lt
  have hmod := Nat.mod_lt length (show 0 < b.n by omega)
  have hdiv := Nat.div_add_mod length b.n
  unfold wantCapacity
  rw [Nat.mul_add]
  omega

/-- A block with the queue at its start is a ring with the same contents. -/
theorem Inv.relinear (hi : Inv b) {buf : Nat → UInt8} {newN : Nat} (hn : b.n < newN)
    (hmax : newN ≤ maxAlloc) (hbuf : cells buf 0 b.size = b.contents) :
    Inv ⟨0, b.size, newN, newN - b.size, buf⟩ ∧
      contents ⟨0, b.size, newN, newN - b.size, buf⟩ = b.contents := by
  have hs := hi.size_le
  have hsize : size ⟨0, b.size, newN, newN - b.size, buf⟩ = b.size := by
    rw [size_of_le (Nat.sub_le _ _) hmax]
    show newN - (newN - b.size) = b.size
    omega
  refine ⟨⟨?_, ?_, ?_, ?_, hmax⟩, ?_⟩
  · show 0 < newN
    omega
  · show b.size < newN
    omega
  · exact Nat.sub_le _ _
  · rw [hsize]
    show (0 + b.size) % newN = b.size
    rw [Nat.zero_add, Nat.mod_eq_of_lt (by omega)]
  · rw [contents, hsize, window_eq_cells _ (by show 0 + b.size ≤ newN; omega)]
    exact hbuf

theorem realloc_eq (hi : Inv b) {length : Nat} (hfull : b.remainSpace < length)
    (hmax : b.wantCapacity length ≤ maxAlloc) :
    ∃ buf, b.realloc length = .ok ⟨0, b.size, b.wantCapacity length,
        b.wantCapacity length - b.size, buf⟩ ∧ cells buf 0 b.size = b.contents := by
  have hr := hi.rPos_lt
  have hw := hi.wPos_lt
  have hs := hi.size_le
  have hlt := lt_wantCapacity hi length
  have hcap : b.newCapacity length = b.wantCapacity length :=
    newCapacity_eq hi (by unfold maxAlloc at hmax; omega)
  have htake : b.contents.take b.size = b.contents := by
    rw [← length_contents, List.take_length]
  unfold realloc
  simp only [hcap, if_neg (Nat.not_le.mpr hfull)]
  rw [newChar_of_le hmax, Exec.ok_bind, sub64_of_le (by omega), Exec.ok_bind]
  cases hi.layout with
  | straight hpos hsize =>
    have hstretch := take_contents_of_le (Nat.le_refl b.size) (by omega : b.rPos + b.size ≤ b.n)
    rw [htake] at hstretch
    rw [if_pos hpos, copyOut_of_le (by omega), Exec.ok_bind, ← hstretch]
    rw [copyIn_of_le (by rw [length_contents]; show 0 + b.size ≤ b.wantCapacity length; omega)]
    refine ⟨_, rfl, ?_⟩
    have hself := cells_overwrite_self (fun _ => 0) 0 b.contents
    rwa [length_contents] at hself
  | wrapped hpos hsize =>
    have hstretch := take_contents_of_wrap hi (Nat.le_refl b.size) (by omega)
    rw [htake] at hstretch
    have hfirst : (cells b.buffer b.rPos (b.n - b.rPos)).length = b.n - b.rPos := length_cells _ _ _
    rw [if_neg (by omega), if_pos (by omega), sub64_of_le (by omega), Exec.ok_bind,
      copyOut_of_le (by omega), Exec.ok_bind]
    rw [copyIn_of_le (by rw [hfirst]; show 0 + (b.n - b.rPos) ≤ b.wantCapacity length; omega),
      Exec.ok_bind]
    by_cases hmore : b.n - b.rPos < b.size
    · have hsecond : (cells b.buffer 0 (b.size - (b.n - b.rPos))).length = b.size - (b.n - b.rPos) :=
        length_cells _ _ _
      rw [if_pos hmore, sub64_of_le (by omega), Exec.ok_bind, copyOut_of_le (by omega),
        Exec.ok_bind]
      rw [copyIn_of_le (by
        rw [hsecond]
        show b.n - b.rPos + (b.size - (b.n - b.rPos)) ≤ b.wantCapacity length
        omega)]
      refine ⟨_, rfl, ?_⟩
      have hsplit : b.n - b.rPos + (b.size - (b.n - b.rPos)) = b.size := by omega
      have htwo := cells_overwrite_append (fun _ => 0) (cells b.buffer b.rPos (b.n - b.rPos))
        (cells b.buffer 0 (b.size - (b.n - b.rPos)))
      rw [hfirst, hsecond, hsplit, ← hstretch] at htwo
      exact htwo
    · rw [if_neg hmore]
      refine ⟨_, rfl, ?_⟩
      have hall : b.size = b.n - b.rPos := by omega
      have hself := cells_overwrite_self (fun _ => 0) 0 (cells b.buffer b.rPos (b.n - b.rPos))
      rw [hfirst] at hself
      rw [hstretch, hall, Nat.sub_self, cells_zero, List.append_nil]
      exact hself
  | empty hpos hsize =>
    rw [if_neg (by omega), if_neg (by omega)]
    refine ⟨_, rfl, ?_⟩
    rw [hsize, cells_zero]
    exact (List.length_eq_zero_iff.mp (by rw [length_contents, hsize])).symm

/-- **`write` appends.** The ring grows when the bytes do not fit. -/
theorem write_eq (hi : Inv b) {data : Bytes}
    (hfit : data.length ≤ b.remainSpace ∨ b.wantCapacity data.length ≤ maxAlloc) :
    ∃ b', b.write data = .ok b' ∧ Inv b' ∧ b'.contents = b.contents ++ data := by
  by_cases hroom : data.length ≤ b.remainSpace
  · obtain ⟨b', hb', hinv, hc, -⟩ := writeCopy_eq hi data hroom
    refine ⟨b', ?_, hinv, hc⟩
    rw [write, realloc, if_pos hroom, Exec.ok_bind, if_pos hroom, hb']
  · have hmax : b.wantCapacity data.length ≤ maxAlloc := hfit.resolve_left hroom
    have hlt := lt_wantCapacity hi data.length
    have hs := hi.size_le
    obtain ⟨buf, hbuf, hcells⟩ := realloc_eq hi (by omega) hmax
    obtain ⟨hinv, hc⟩ := hi.relinear (by omega) hmax hcells
    obtain ⟨b', hb', hinv', hc', -⟩ := writeCopy_eq hinv data
      (by show data.length ≤ b.wantCapacity data.length - b.size; omega)
    refine ⟨b', ?_, hinv', ?_⟩
    · rw [write, hbuf, Exec.ok_bind,
        if_pos (by show data.length ≤ b.wantCapacity data.length - b.size; omega), hb']
    · rw [hc', hc]

theorem realloc_badAlloc (hi : Inv b) {length : Nat} (hroom : b.remainSpace < length)
    (hfit : b.wantCapacity length < 2 ^ 64) (hmax : maxAlloc < b.wantCapacity length) :
    b.realloc length = .error .badAlloc := by
  unfold realloc
  simp only [newCapacity_eq hi hfit, if_neg (Nat.not_le.mpr hroom)]
  rw [newChar_of_lt hmax, Exec.error_bind]

/-- When the new block cannot be allocated, `write` throws before it has changed anything. -/
theorem write_badAlloc (hi : Inv b) {data : Bytes} (hroom : b.remainSpace < data.length)
    (hfit : b.wantCapacity data.length < 2 ^ 64) (hmax : maxAlloc < b.wantCapacity data.length) :
    b.write data = .error .badAlloc := by
  rw [write, realloc_badAlloc hi hroom hfit hmax, Exec.error_bind]

/-- Data that are in memory get a capacity of fewer than 64 bits. -/
theorem wantCapacity_lt (hi : Inv b) {length : Nat} (h : length ≤ maxAlloc) :
    b.wantCapacity length < 2 ^ 64 := by
  have hn := hi.n_le
  have hmul := Nat.mul_div_le length b.n
  have hcap : b.wantCapacity length = b.n * (length / b.n) + b.n * 2 := Nat.mul_add _ _ _
  unfold maxAlloc at *
  omega

/-- **A `realloc` that returns has made room**, and has kept the queue. -/
theorem realloc_ok (hi : Inv b) {length : Nat} (hlen : length ≤ maxAlloc) {b' : CycleBuffer}
    (h : b.realloc length = .ok b') :
    Inv b' ∧ b'.contents = b.contents ∧ length ≤ b'.remainSpace := by
  by_cases hroom : length ≤ b.remainSpace
  · rw [realloc, if_pos hroom] at h
    obtain rfl := Except.ok.inj h
    exact ⟨hi, rfl, hroom⟩
  · have hlt := lt_wantCapacity hi length
    have hs := hi.size_le
    by_cases hmax : b.wantCapacity length ≤ maxAlloc
    · obtain ⟨buf, hbuf, hcells⟩ := realloc_eq hi (by omega) hmax
      obtain rfl := Except.ok.inj (hbuf.symm.trans h)
      obtain ⟨hinv, hc⟩ := hi.relinear (by omega) hmax hcells
      refine ⟨hinv, hc, ?_⟩
      show length ≤ b.wantCapacity length - b.size
      omega
    · rw [realloc_badAlloc hi (by omega) (wantCapacity_lt hi hlen) (by omega)] at h
      cases h

/-- A `write` that leaves little in the ring returns: either the block is large and has room, or
it is small enough to grow. -/
theorem write_small (hi : Inv b) {data : Bytes} (h : b.size + data.length ≤ 2 ^ 54) :
    ∃ b', b.write data = .ok b' ∧ Inv b' ∧ b'.contents = b.contents ++ data := by
  refine write_eq hi ?_
  by_cases hroom : data.length ≤ b.remainSpace
  · exact Or.inl hroom
  · right
    have hs := hi.size_eq
    have hmul := Nat.mul_div_le data.length b.n
    have hcap : b.wantCapacity data.length = b.n * (data.length / b.n) + b.n * 2 :=
      Nat.mul_add _ _ _
    unfold maxAlloc
    omega

/-- **A `write` that returns has appended the data.** -/
theorem write_ok (hi : Inv b) {data : Bytes} (hdata : data.length ≤ maxAlloc) {b' : CycleBuffer}
    (h : b.write data = .ok b') : Inv b' ∧ b'.contents = b.contents ++ data := by
  by_cases hfit : data.length ≤ b.remainSpace ∨ b.wantCapacity data.length ≤ maxAlloc
  · obtain ⟨b'', hb'', hinv, hc⟩ := write_eq hi hfit
    rw [hb''] at h
    obtain rfl := Except.ok.inj h
    exact ⟨hinv, hc⟩
  · obtain ⟨hroom, hmax⟩ := not_or.mp hfit
    rw [write_badAlloc hi (by omega) (wantCapacity_lt hi hdata) (by omega)] at h
    cases h

/-! ## The fresh ring -/

theorem new_eq_ok {n : Nat} (h : new n = .ok b) :
    b = { n := n, remainSpace := n, buffer := fun _ => 0 } ∧ n ≤ maxAlloc := by
  obtain ⟨u, hu, hb⟩ := Exec.bind_eq_ok.mp h
  exact ⟨(Except.ok.inj hb).symm, newChar_le hu⟩

theorem inv_new {n : Nat} (hn : 1 ≤ n) (h : new n = .ok b) : Inv b ∧ b.contents = [] := by
  obtain ⟨rfl, hmax⟩ := new_eq_ok h
  have hsize := size_of_le (b := { n := n, remainSpace := n, buffer := fun _ => 0 })
    (Nat.le_refl n) hmax
  refine ⟨Inv.of_layout hn hn (Nat.le_refl n) hmax (.empty rfl ?_), ?_⟩
  · rw [hsize]
    exact Nat.sub_self n
  · refine List.length_eq_zero_iff.mp ?_
    rw [length_contents, hsize]
    exact Nat.sub_self n

/-! ## Any contents at any offset -/

/-- A ring of capacity `n` that holds `q` from position `r` on. -/
def place (n r : Nat) (q : Bytes) : CycleBuffer :=
  { rPos := r, wPos := (r + q.length) % n, n := n, remainSpace := n - q.length,
    buffer := fun j => q.getD ((j + (n - r)) % n) 0 }

theorem place_spec {n r : Nat} {q : Bytes} (hr : r < n) (hq : q.length ≤ n) (hn : n ≤ maxAlloc) :
    Inv (place n r q) ∧ (place n r q).contents = q := by
  have hsize : (place n r q).size = q.length := by
    rw [size_of_le (Nat.sub_le _ _) hn]
    show n - (n - q.length) = q.length
    omega
  refine ⟨⟨hr, Nat.mod_lt _ (by show 0 < n; omega), Nat.sub_le _ _, ?_, hn⟩, ?_⟩
  · rw [hsize]
    rfl
  · rw [contents, hsize]
    refine List.ext_getElem (length_window _ _ _ _) ?_
    intro i h1 h2
    have hidx : ((r + i) % n + (n - r)) % n = i := by
      rw [Nat.mod_add_mod, show r + i + (n - r) = i + n by omega, Nat.add_mod_right,
        Nat.mod_eq_of_lt (by omega)]
    rw [getElem_window]
    show q.getD (((r + i) % n + (n - r)) % n) 0 = q[i]
    rw [hidx, List.getD_eq_getElem?_getD, List.getElem?_eq_getElem h2]
    rfl

end Rosetta.CycleBuffer

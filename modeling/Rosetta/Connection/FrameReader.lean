import Rosetta.Connection.Halves
import Rosetta.CycleBuffer.Queue

/-!
# What a peer can do to `loop_recv`

`can_read()` lets every head of more than nine bytes through whose announced length has arrived.
The frame reader needs more than that (`WellFramed`):

* a frame of nine bytes or less is not read, and the next iteration finds the same buffer
* with an id-length byte of `0`, or an id that ends behind the frame, the sizes are negative

`progress_iff` says that these are the only heads on which an iteration goes wrong.
-/

namespace Rosetta

open Lib CycleBuffer

/-- A state in which the connection is given up. -/
def ConnState.isError : ConnState → Bool
  | .closing | .closed | .failed => true
  | _ => false

namespace RecvHalf

variable {r : RecvHalf}

/-- The iteration returns from `read`, with fewer bytes in `buffer_` or in an error state. -/
def Progress (r : RecvHalf) : Prop :=
  ∃ r', r.loopRecvTake = .ok r' ∧
    (r'.buffer.size < r.buffer.size ∨ (r'.state ≠ r.state ∧ r'.state.isError = true))

/-! ## One iteration -/

theorem loopRecvTake_eq {task : Bytes} (hloop : r.loop = .wait task)
    (hread : r.buffer.canRead = .ok true) :
    r.loopRecvTake = r.buffer.readFrame >>= fun f =>
      .ok { r with buffer := f.buf, loop := .busy task (f.id, f.data) } := by
  simp only [loopRecvTake, hloop, hread, Exec.ok_bind, if_true]

theorem loopRecvTake_state {r' : RecvHalf} {task : Bytes} (hloop : r.loop = .wait task)
    (hread : r.buffer.canRead = .ok true) (h : r.loopRecvTake = .ok r') : r'.state = r.state := by
  rw [loopRecvTake_eq hloop hread] at h
  obtain ⟨f, -, hr⟩ := Exec.bind_eq_ok.mp h
  obtain rfl := Except.ok.inj hr
  rfl

/-- A well-formed frame is taken off `buffer_`. -/
theorem loopRecvTake_of_wellFramed (hi : Inv r.buffer) {task : Bytes}
    (hloop : r.loop = .wait task) (hread : r.buffer.canRead = .ok true)
    (h : WellFramed r.buffer.contents) :
    ∃ r', r.loopRecvTake = .ok r' ∧ Inv r'.buffer ∧
      r'.buffer.contents = r.buffer.contents.drop (headLen r.buffer.contents) := by
  have hle := (canRead_eq_true hi hread).2
  rw [loopRecvTake_eq hloop hread, readFrame_of_wellFramed hi h, Exec.ok_bind]
  exact ⟨_, rfl, hi.removed hle, contents_removed hi hle⟩

/-- An announced length of nine or less: no byte is taken, and an empty message goes to the
empty id. -/
theorem loopRecvTake_of_short (hi : Inv r.buffer) {task : Bytes} (hloop : r.loop = .wait task)
    (hread : r.buffer.canRead = .ok true) (h : headLen r.buffer.contents ≤ 9) :
    r.loopRecvTake = .ok { r with loop := .busy task ([], []) } := by
  have hframe : ¬ HasFrame r.buffer.contents := fun hf => Nat.not_lt.mpr h hf.1
  rw [loopRecvTake_eq hloop hread, readFrame_of_not hi hframe, Exec.ok_bind]

/-- A frame whose id does not fit: `read` leaves by an exception or reads behind the frame. -/
theorem loopRecvTake_of_not_splits (hi : Inv r.buffer) {task : Bytes}
    (hloop : r.loop = .wait task) (hread : r.buffer.canRead = .ok true)
    (h9 : 9 < headLen r.buffer.contents)
    (h : ¬ Splits (headLen r.buffer.contents) r.buffer.contents) :
    ∃ e, r.loopRecvTake = .error e := by
  have hle := (canRead_eq_true hi hread).2
  have hframe : HasFrame r.buffer.contents := ⟨h9, by rw [length_contents]; exact hle⟩
  have hlen : (r.buffer.contents.take (headLen r.buffer.contents)).length
      = headLen r.buffer.contents := by
    rw [List.length_take, length_contents]
    omega
  have hsplit : ¬ Splits (headLen r.buffer.contents)
      (r.buffer.contents.take (headLen r.buffer.contents)) := by
    unfold Splits at h ⊢
    rwa [idLenByte_take (by omega)]
  obtain ⟨e, he⟩ := splitFrame_of_not hlen h9 hsplit
  refine ⟨e, ?_⟩
  rw [loopRecvTake_eq hloop hread, readFrame_of_frame hi hframe, he]
  rfl

/--
**An iteration of `loop_recv` makes progress exactly on a well-formed frame.**

`state_` is not touched by the iteration, so on every other head it repeats itself, throws, or
reads memory behind the frame.
-/
theorem progress_iff (hi : Inv r.buffer) {task : Bytes} (hloop : r.loop = .wait task)
    (hread : r.buffer.canRead = .ok true) : Progress r ↔ WellFramed r.buffer.contents := by
  have hle := (canRead_eq_true hi hread).2
  constructor
  · rintro ⟨r', hr', hprog⟩
    have hstate := loopRecvTake_state hloop hread hr'
    have hless : r'.buffer.size < r.buffer.size := by
      rcases hprog with hless | ⟨hne, -⟩
      · exact hless
      · exact absurd hstate hne
    by_cases h9 : 9 < headLen r.buffer.contents
    · refine ⟨⟨h9, by rw [length_contents]; exact hle⟩, ?_⟩
      by_contra hsplit
      obtain ⟨e, he⟩ := loopRecvTake_of_not_splits hi hloop hread h9 hsplit
      rw [hr'] at he
      cases he
    · rw [loopRecvTake_of_short hi hloop hread (by omega)] at hr'
      obtain rfl := Except.ok.inj hr'
      exact absurd hless (Nat.lt_irrefl _)
  · intro h
    obtain ⟨r', hr', -, hc⟩ := loopRecvTake_of_wellFramed hi hloop hread h
    refine ⟨r', hr', Or.inl ?_⟩
    have h9 := h.1.1
    rw [← length_contents, hc, List.length_drop, length_contents]
    omega

/-- The frame of id `a` and data `b`, with one byte of the next frame behind it. -/
theorem progress_iff_small :
    Progress { buffer := place 16 9 (frameBytes [97] [98] ++ [1]), loop := .wait [116] } :=
  have h := place_spec (n := 16) (r := 9) (q := frameBytes [97] [98] ++ [1]) (by decide)
    (by decide) (by decide)
  (progress_iff h.1 rfl (by rw [canRead_eq h.1, h.2]; rfl)).mpr
    (by rw [h.2]; decide)

/-- Ten zero bytes are acceptable to `can_read()`, and so is a frame of ten bytes whose id-length
byte is `0`. The first is found again by the next iteration, the second throws. -/
theorem not_progress :
    (∃ r : RecvHalf, Inv r.buffer ∧ r.buffer.contents = List.replicate 10 0 ∧
      r.loop = .wait [116] ∧ r.buffer.canRead = .ok true ∧ ¬ Progress r ∧
      ∃ r', r.loopRecvTake = .ok r' ∧ r'.buffer = r.buffer ∧ r'.state = r.state) ∧
    ∃ r : RecvHalf, Inv r.buffer ∧ r.buffer.contents = [10, 0, 0, 0, 0, 0, 0, 0, 0, 0] ∧
      r.loop = .wait [116] ∧ r.buffer.canRead = .ok true ∧ ¬ Progress r ∧
      r.loopRecvTake = .error .lengthError := by
  have hzero := place_spec (n := 16) (r := 12) (q := List.replicate 10 0) (by decide)
    (by decide) (by decide)
  have hten := place_spec (n := 16) (r := 12) (q := [10, 0, 0, 0, 0, 0, 0, 0, 0, 0]) (by decide)
    (by decide) (by decide)
  have hread : (place 16 12 (List.replicate 10 0)).canRead = .ok true := by
    rw [canRead_eq hzero.1, hzero.2]
    rfl
  have hshort : headLen (place 16 12 (List.replicate 10 0)).contents ≤ 9 := by
    rw [hzero.2]
    decide
  have hread' : (place 16 12 [10, 0, 0, 0, 0, 0, 0, 0, 0, 0]).canRead = .ok true := by
    rw [canRead_eq hten.1, hten.2]
    rfl
  refine ⟨⟨{ buffer := _, loop := .wait [116] }, hzero.1, hzero.2, rfl, hread, ?_, ?_⟩,
    ⟨{ buffer := _, loop := .wait [116] }, hten.1, hten.2, rfl, hread', ?_, rfl⟩⟩
  · rintro ⟨r', hr', hprog⟩
    rw [loopRecvTake_of_short hzero.1 rfl hread hshort] at hr'
    obtain rfl := Except.ok.inj hr'
    rcases hprog with hless | ⟨hne, -⟩
    · exact Nat.lt_irrefl _ hless
    · exact hne rfl
  · exact ⟨_, loopRecvTake_of_short hzero.1 rfl hread hshort,
      rfl, rfl⟩
  · rintro ⟨r', hr', -⟩
    cases (show Except.ok r' = Except.error Fault.lengthError from hr'.symm)

end RecvHalf

end Rosetta

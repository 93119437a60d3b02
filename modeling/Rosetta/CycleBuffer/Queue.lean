import Rosetta.Frame.Basic
import Rosetta.Lib.Run

/-!
# Sequences of `cycle_buffer` operations

`Queue.exec` says what the operations are for, on a list of bytes without any capacity.
`refines_queue` runs a ring and the list side by side through any sequence of operations.

A call that waits or faults is no step. Within the preconditions (`Allowed`) the only such call is
a `write` whose new block `new char[]` cannot deliver, and it leaves the ring as it was.
-/

namespace Rosetta

open Lib CycleBuffer

/-- A call on a ring. -/
inductive RingOp where
  | write (data : Bytes)
  | read (length : Nat)
  | peek (length : Nat)
  | readFrame
  | canReadLen (length : Nat)
  | canRead

/-- What a call hands back. -/
inductive Reply where
  | done
  | bytes (data : Bytes)
  | frame (ret : Nat) (id data : Bytes)
  | flag (value : Bool)
  deriving DecidableEq

/-- A complete frame longer than nine bytes, whose id-length byte is at least one and whose id ends
inside the frame. -/
def WellFramed (q : Bytes) : Prop := HasFrame q ∧ Splits (headLen q) q

instance (q : Bytes) : Decidable (WellFramed q) := inferInstanceAs (Decidable (_ ∧ _))

/-! ## The queue of bytes -/

namespace Queue

def exec (q : Bytes) : RingOp → Bytes × Reply
  | .write data => (q ++ data, .done)
  | .read length => (q.drop length, .bytes (q.take length))
  | .peek length => (q, .bytes (q.take length))
  | .readFrame =>
    (q.drop (headLen q), .frame (headLen q) ((q.drop 9).take (idLenByte q - 1))
      ((q.take (headLen q)).drop (8 + idLenByte q)))
  | .canReadLen length => (q, .flag (decide (length ≤ q.length)))
  | .canRead => (q, .flag (decide (9 < q.length ∧ headLen q ≤ q.length)))

/-- One call, and its reply noted behind the earlier ones. -/
def step (s : Bytes × List Reply) (op : RingOp) : Option (Bytes × List Reply) :=
  some ((exec s.1 op).1, s.2 ++ [(exec s.1 op).2])

end Queue

/-! ## The ring -/

namespace CycleBuffer

def exec (b : CycleBuffer) : RingOp → Exec (CycleBuffer × Reply)
  | .write data => do
    let b' ← b.write data
    .ok (b', .done)
  | .read length => do
    let (data, b') ← b.read length
    .ok (b', .bytes data)
  | .peek length => do
    let data ← b.peek length
    .ok (b, .bytes data)
  | .readFrame => do
    let r ← b.readFrame
    .ok (r.buf, .frame r.ret r.id r.data)
  | .canReadLen length => .ok (b, .flag (b.canReadLen length))
  | .canRead => do
    let flag ← b.canRead
    .ok (b, .flag flag)

def step (s : CycleBuffer × List Reply) (op : RingOp) : Option (CycleBuffer × List Reply) :=
  match s.1.exec op with
  | .ok (b', r) => some (b', s.2 ++ [r])
  | .error _ => none

/-- The preconditions of the calls. -/
def Allowed (b : CycleBuffer) : RingOp → Prop
  | .write data => data.length ≤ b.remainSpace ∨ b.wantCapacity data.length < 2 ^ 64
  | .read length => length ≤ b.size
  | .peek length => length ≤ b.size
  | .readFrame => WellFramed b.contents
  | .canReadLen _ => True
  | .canRead => True

instance (b : CycleBuffer) : ∀ op, Decidable (Allowed b op)
  | .write _ => inferInstanceAs (Decidable (_ ∨ _))
  | .read _ => inferInstanceAs (Decidable (_ ≤ _))
  | .peek _ => inferInstanceAs (Decidable (_ ≤ _))
  | .readFrame => inferInstanceAs (Decidable (WellFramed _))
  | .canReadLen _ => isTrue trivial
  | .canRead => isTrue trivial

/-- A `write` that needs a larger block than there can be. -/
def Refused (b : CycleBuffer) (op : RingOp) : Prop :=
  ∃ data, op = .write data ∧ b.remainSpace < data.length ∧ maxAlloc < b.wantCapacity data.length

variable {b : CycleBuffer}

theorem drop_take_head {q : Bytes} (h : WellFramed q) :
    ((q.take (headLen q)).drop 9).take (idLenByte q - 1)
      = (q.drop 9).take (idLenByte q - 1) := by
  obtain ⟨-, -, h8⟩ := h
  rw [List.drop_take, List.take_take, Nat.min_eq_left (by omega)]

theorem idLenByte_take {q : Bytes} {k : Nat} (h : 8 < k) :
    idLenByte (q.take k) = idLenByte q := by
  rw [idLenByte, idLenByte, List.getD_eq_getElem?_getD, List.getD_eq_getElem?_getD,
    List.getElem?_take_of_lt h]

theorem readFrame_of_wellFramed (hi : Inv b) (h : WellFramed b.contents) :
    b.readFrame = .ok ⟨headLen b.contents,
      (b.contents.drop 9).take (idLenByte b.contents - 1),
      (b.contents.take (headLen b.contents)).drop (8 + idLenByte b.contents),
      b.removed (headLen b.contents)⟩ := by
  have hframe := h.1
  obtain ⟨h9, hl⟩ := h.1
  have hs := hi.size_le
  have hn := hi.n_le
  have hlen : (b.contents.take (headLen b.contents)).length = headLen b.contents := by
    rw [List.length_take]
    omega
  have hbyte : idLenByte (b.contents.take (headLen b.contents)) = idLenByte b.contents :=
    idLenByte_take (by omega)
  have hsplit : Splits (headLen b.contents) (b.contents.take (headLen b.contents)) := by
    unfold Splits
    rw [hbyte]
    exact h.2
  rw [length_contents] at hl
  rw [readFrame_of_frame hi hframe, splitFrame_of_splits hlen h9 (by omega) hsplit, Exec.ok_bind,
    hbyte, drop_take_head h]

/-- **One call.** It does to the contents what `Queue.exec` says, or it is a refused `write`. -/
theorem exec_eq (hi : Inv b) {op : RingOp} (hop : Allowed b op) :
    (∃ b' r, b.exec op = .ok (b', r) ∧ Inv b' ∧ Queue.exec b.contents op = (b'.contents, r)) ∨
      (Refused b op ∧ b.exec op = .error .badAlloc) := by
  cases op with
  | write data =>
    by_cases hfit : data.length ≤ b.remainSpace ∨ b.wantCapacity data.length ≤ maxAlloc
    · obtain ⟨b', hb', hinv, hc⟩ := write_eq hi hfit
      refine Or.inl ⟨b', .done, ?_, hinv, ?_⟩
      · rw [exec, hb', Exec.ok_bind]
      · rw [hc]
        rfl
    · obtain ⟨hroom, hmax⟩ := not_or.mp hfit
      have hsmall : b.wantCapacity data.length < 2 ^ 64 := hop.resolve_left hroom
      refine Or.inr ⟨⟨data, rfl, by omega, by omega⟩, ?_⟩
      rw [exec, write_badAlloc hi (by omega) hsmall (by omega), Exec.error_bind]
  | read length =>
    refine Or.inl ⟨b.removed length, .bytes (b.contents.take length), ?_, hi.removed hop, ?_⟩
    · rw [exec, read_eq hi hop, Exec.ok_bind]
    · rw [contents_removed hi hop]
      rfl
  | peek length =>
    refine Or.inl ⟨b, .bytes (b.contents.take length), ?_, hi, rfl⟩
    rw [exec, peek_eq hi hop, Exec.ok_bind]
  | readFrame =>
    have hl : headLen b.contents ≤ b.size := by
      rw [← length_contents]
      exact hop.1.2
    refine Or.inl ⟨b.removed (headLen b.contents), (Queue.exec b.contents .readFrame).2, ?_,
      hi.removed hl, ?_⟩
    · rw [exec, readFrame_of_wellFramed hi hop, Exec.ok_bind]
      rfl
    · rw [contents_removed hi hl]
      rfl
  | canReadLen length =>
    refine Or.inl ⟨b, _, rfl, hi, ?_⟩
    rw [Queue.exec, length_contents, canReadLen]
  | canRead =>
    refine Or.inl ⟨b, .flag (decide (9 < b.size ∧ headLen b.contents ≤ b.size)), ?_, hi, ?_⟩
    · rw [exec, canRead_eq hi, Exec.ok_bind]
    · rw [Queue.exec, length_contents]

/-- The ring and the list hold the same bytes and have given the same replies. -/
def Same (s : CycleBuffer × List Reply) (t : Bytes × List Reply) : Prop :=
  Inv s.1 ∧ t = (s.1.contents, s.2)

theorem same_step (s : CycleBuffer × List Reply) (t : Bytes × List Reply) (op : RingOp)
    (s' : CycleBuffer × List Reply) (h : Same s t) (hop : Allowed s.1 op) (hs : step s op = some s') :
    ∃ t', Queue.step t op = some t' ∧ Same s' t' := by
  obtain ⟨hi, rfl⟩ := h
  unfold step at hs
  rcases exec_eq hi hop with ⟨b', r, hb', hinv, hq⟩ | ⟨-, he⟩
  · rw [hb'] at hs
    obtain rfl := Option.some.inj hs
    refine ⟨(b'.contents, s.2 ++ [r]), ?_, hinv, rfl⟩
    rw [Queue.step, hq]
  · rw [he] at hs
    cases hs

/--
**`cycle_buffer` refines an unbounded queue of bytes.**

Along every sequence of allowed calls on a fresh ring, the contents and all replies are those of
the list, the invariant holds, and the next allowed call returns as well. No `memcpy` outside the
block and no underflow is left as an outcome; only a refused `write` throws.
-/
theorem refines_queue {n : Nat} (hn : 1 ≤ n) {b₀ b : CycleBuffer} {ops : List RingOp}
    {rs : List Reply} (hnew : new n = .ok b₀)
    (hops : AllSteps step (fun s op => Allowed s.1 op) (b₀, []) ops)
    (hrun : run step (b₀, []) ops = some (b, rs)) :
    run Queue.step ([], []) ops = some (b.contents, rs) ∧ b.size = b.contents.length ∧ Inv b ∧
      ∀ op, Allowed b op → (∃ b' r, b.exec op = .ok (b', r) ∧
          Queue.exec b.contents op = (b'.contents, r)) ∨
        (Refused b op ∧ b.exec op = .error .badAlloc) := by
  obtain ⟨hinv, hc⟩ := inv_new hn hnew
  have hsame : Same (b₀, []) ([], []) := ⟨hinv, by rw [hc]⟩
  obtain ⟨t, ht, hi, rfl⟩ := run_simulation_of same_step hsame hops hrun
  refine ⟨ht, (length_contents b).symm, hi, ?_⟩
  intro op hop
  rcases exec_eq hi hop with ⟨b', r, hb', -, hq⟩ | hrefused
  · exact Or.inl ⟨b', r, hb', hq⟩
  · exact Or.inr hrefused

/-- A capacity of four: the writes wrap, fill the ring and make it grow twice. -/
theorem refines_queue_small : ∃ b : CycleBuffer,
    run Queue.step ([], []) [.write [1, 2, 3], .read 2, .write [4, 5, 6], .peek 3, .read 3,
        .canReadLen 2, .write (frameBytes [97] [7, 8]), .read 1, .canRead, .readFrame]
      = some (b.contents, [.done, .bytes [1, 2], .done, .bytes [3, 4, 5], .bytes [3, 4, 5],
        .flag false, .done, .bytes [6], .flag true, .frame 12 [97] [7, 8]]) ∧ Inv b :=
  have h := refines_queue (n := 4) (by decide) rfl (by decide) rfl
  ⟨_, h.1, h.2.2.1⟩

end CycleBuffer

end Rosetta

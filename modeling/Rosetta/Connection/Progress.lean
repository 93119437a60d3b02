import Rosetta.Connection.Flow

/-!
# A frame that was sent arrives

As long as a frame is on its way and both loops run, some step of the workers or of the socket is
possible (`Flow.progress`). No step can be refused for lack of memory where it matters: the ring
that has to take more bytes holds less than a frame.
-/

namespace Rosetta

open Lib CycleBuffer

/-- The steps of the loops and of the socket. -/
def DirAct.isNet : DirAct → Bool
  | .drain | .flush | .deliver _ | .take | .store => true
  | _ => false

theorem Loop.cases_of_ne_idle {β : Type} {l : Loop β} (h : l ≠ .idle) :
    (∃ t, l = .wait t) ∨ ∃ t x, l = .busy t x := by
  cases l with
  | idle => exact absurd rfl h
  | wait t => exact Or.inl ⟨t, rfl⟩
  | busy t x => exact Or.inr ⟨t, x, rfl⟩

namespace Direction

variable {d : Direction} {stored hand pend : List Frame}

/-! ## Steps that are possible -/

theorem exec_drain (hi : Inv d.snd.sendBuffer) {task : Bytes} (hloop : d.snd.loop = .wait task)
    (hne : 0 < d.snd.sendBuffer.size) : ∃ d', d.exec .drain = .ok d' := by
  have hle : d.snd.sendBuffer.size ≤ maxAlloc := hi.size_le.trans hi.n_le
  rw [exec, SendHalf.loopSendTake, hloop]
  simp only [if_pos hne, newChar_of_le hle, Exec.ok_bind, read_eq hi (Nat.le_refl _)]
  exact ⟨_, rfl⟩

theorem exec_flush {task data : Bytes} (hloop : d.snd.loop = .busy task data) :
    ∃ d', d.exec .flush = .ok d' := by
  rw [exec, SendHalf.loopSendWrite, hloop]
  exact ⟨_, rfl⟩

theorem exec_deliver_one (hi : Inv d.rcv.buffer) (hwire : d.wire ≠ [])
    (hsmall : d.rcv.buffer.size ≤ 2 ^ 53) : ∃ d', d.exec (.deliver 1) = .ok d' := by
  have hpos := List.length_pos_iff.mpr hwire
  have hone : (d.wire.take 1).length = 1 := by
    rw [List.length_take]
    omega
  have hroom : d.rcv.buffer.size + (d.wire.take 1).length ≤ 2 ^ 54 := by omega
  obtain ⟨b, hb, -⟩ := write_small hi hroom
  rw [exec, if_pos ⟨Nat.one_pos, hpos⟩, newChar_of_le (by decide), Exec.ok_bind, RecvHalf.write, hb]
  exact ⟨_, rfl⟩

theorem exec_take (hi : Inv d.rcv.buffer) {task : Bytes} (hloop : d.rcv.loop = .wait task)
    {f : Frame} {rest : Bytes} (hc : d.rcv.buffer.contents = f.bytes ++ rest) :
    ∃ d', d.exec .take = .ok d' := by
  rw [exec, RecvHalf.loopRecvTake, hloop]
  simp only [canRead_of_frame hi hc, Exec.ok_bind, if_true, readFrame_of_bytes hi hc]
  exact ⟨_, rfl⟩

theorem exec_store (hm : BoxInv d.rcv.mapbuffer) {task id data : Bytes}
    (hloop : d.rcv.loop = .busy task (id, data))
    (hsmall : (box d.rcv.mapbuffer id).length + data.length ≤ 2 ^ 54) :
    ∃ d', d.exec .store = .ok d' := by
  obtain ⟨b, hb, hi, hlen⟩ : ∃ b, RecvHalf.ringFor d.rcv.mapbuffer id = .ok b ∧ Inv b ∧
      b.size = (box d.rcv.mapbuffer id).length := by
    unfold RecvHalf.ringFor
    cases hl : d.rcv.mapbuffer.lookup id with
    | some b =>
      refine ⟨b, rfl, hm id b hl, ?_⟩
      rw [box_of_lookup hl, length_contents]
    | none =>
      obtain ⟨hi, hc⟩ := inv_new (b := ⟨0, 0, 1024 * 8, 1024 * 8, fun _ => 0⟩) (n := 1024 * 8)
        (by decide) rfl
      refine ⟨_, rfl, hi, ?_⟩
      rw [← length_contents, hc, box, hl]
  have hroom : b.size + data.length ≤ 2 ^ 54 := by omega
  obtain ⟨b', hb', -⟩ := write_small hi hroom
  rw [exec, RecvHalf.loopRecvStore, hloop]
  simp only [RecvHalf.store, hb, Exec.ok_bind, hb']
  exact ⟨_, rfl⟩

theorem exec_send (hi : Inv d.snd.sendBuffer) {id data : Bytes}
    (hsmall : d.snd.sendBuffer.size + frameLen id data ≤ 2 ^ 54) :
    ∃ d', d.exec (.send id data) = .ok d' := by
  have hfits : frameLen id data ≤ maxAlloc := by
    unfold maxAlloc
    omega
  have hroom : d.snd.sendBuffer.size + (frameBytes id data).length ≤ 2 ^ 54 := by
    rwa [length_frameBytes]
  obtain ⟨b, hb, -⟩ := write_small hi hroom
  have hsimple : simpleBuffer id data = .ok (frameBytes id data) := by
    rw [simpleBuffer, newChar_of_le hfits, Exec.ok_bind]
  rw [exec, SendHalf.send, hsimple, Exec.ok_bind, SendHalf.putIntoSendBuffer, hb]
  exact ⟨_, rfl⟩

theorem exec_recv (hm : BoxInv d.rcv.mapbuffer) {call : RecvCall} (hpos : 0 < call.length)
    (hlen : call.length ≤ (box d.rcv.mapbuffer call.id).length) :
    ∃ d', d.exec (.recv call) = .ok d' := by
  obtain ⟨b, hb⟩ : ∃ b, d.rcv.mapbuffer.lookup call.id = some b := by
    cases hl : d.rcv.mapbuffer.lookup call.id with
    | some b => exact ⟨b, rfl⟩
    | none =>
      rw [box, hl] at hlen
      exact absurd hlen (Nat.not_le.mpr hpos)
  rw [box_of_lookup hb, length_contents] at hlen
  obtain ⟨x, hx⟩ : ∃ x, d.rcv.recv call = .ok x := by
    simp only [RecvHalf.recv]
    generalize (if call.timeout < 0 then 1000 * 1000000 else call.timeout) = timeout
    split
    · exact ⟨_, rfl⟩
    · split
      · exact ⟨_, rfl⟩
      · rw [hb]
        simp only [canReadLen, decide_eq_true hlen, if_true, read_eq (hm _ b hb) hlen, Exec.ok_bind]
        exact ⟨_, rfl⟩
  rw [exec, hx]
  exact ⟨_, rfl⟩

/-! ## Progress -/

/-- A first frame that is not complete in `buffer_` is longer than what is there. -/
theorem size_lt_of_not_complete {b : CycleBuffer} {rest : Bytes} {f : Frame} {fs : List Frame}
    (hstream : b.contents ++ rest = Frame.framing.stream (f :: fs))
    (h : ¬ Frame.framing.Complete b.contents) : b.size < f.len := by
  by_contra hge
  have h9 := f.nine_lt_len
  have hlen : headLen b.contents = f.bytes.length :=
    Frame.framing.len_of_prefix hstream (by show 8 ≤ b.contents.length; rw [length_contents]; omega)
  refine h ⟨?_, ?_⟩
  · show 8 ≤ b.contents.length
    rw [length_contents]
    omega
  · show headLen b.contents ≤ b.contents.length
    rw [hlen, Frame.length_bytes, length_contents]
    omega

/-- **While a frame is on its way, a worker or the socket can take a step.** -/
theorem Flow.progress (h : Flow d stored hand pend) (hsnd : d.snd.loop ≠ .idle)
    (hrcv : d.rcv.loop ≠ .idle) (hne : hand ≠ [] ∨ pend ≠ [])
    (hsmall : ∀ f ∈ hand ++ pend, f.len ≤ 2 ^ 53)
    (hbox : ∀ f ∈ hand, (box d.rcv.mapbuffer f.id).length ≤ 2 ^ 53) :
    ∃ a d', DirAct.isNet a = true ∧ d.exec a = .ok d' := by
  rcases Loop.cases_of_ne_idle hrcv with ⟨task, hwait⟩ | ⟨task, x, hbusy⟩
  · have hhand : hand = [] := by
      have hheld := h.held
      rw [hwait] at hheld
      exact List.map_eq_nil_iff.mp hheld.symm
    obtain ⟨f, pend', rfl⟩ := List.exists_cons_of_ne_nil (hne.resolve_left (absurd hhand))
    have hf : f.len ≤ 2 ^ 53 := hsmall f (List.mem_append_right _ List.mem_cons_self)
    by_cases hcomplete : Frame.framing.Complete d.rcv.buffer.contents
    · obtain ⟨g, fs, hg, hsplit, -⟩ := Frame.framing.exists_cons h.pipe hcomplete
      obtain ⟨d', hd'⟩ := exec_take h.recvInv hwait (f := g) hsplit
      exact ⟨.take, d', rfl, hd'⟩
    · have hshort := size_lt_of_not_complete h.pipe hcomplete
      by_cases hwire : d.wire = []
      · -- the rest of the frame is still at the sender
        have hrest : d.snd.loop.held.flatten ++ d.snd.sendBuffer.contents ≠ [] := by
          intro hnil
          have hpipe := h.pipe
          rw [inFlight, hwire, hnil, List.append_nil, List.append_nil] at hpipe
          exact hcomplete (Frame.framing.complete_of_all hpipe (List.cons_ne_nil _ _))
        rcases Loop.cases_of_ne_idle hsnd with ⟨t, hw⟩ | ⟨t, data, hb⟩
        · have hpos : 0 < d.snd.sendBuffer.size := by
            rw [hw] at hrest
            rw [← length_contents]
            exact List.length_pos_iff.mpr hrest
          obtain ⟨d', hd'⟩ := exec_drain h.sendInv hw hpos
          exact ⟨.drain, d', rfl, hd'⟩
        · obtain ⟨d', hd'⟩ := exec_flush hb
          exact ⟨.flush, d', rfl, hd'⟩
      · obtain ⟨d', hd'⟩ := exec_deliver_one h.recvInv hwire (by omega)
        exact ⟨.deliver 1, d', rfl, hd'⟩
  · obtain ⟨f, hfm, hf⟩ : ∃ f, f.message = x ∧ f ∈ hand := by
      have hheld := h.held
      rw [hbusy] at hheld
      obtain ⟨f, hand', rfl, hf, -⟩ := List.map_eq_cons_iff.mp hheld.symm
      exact ⟨f, hf, List.mem_cons_self⟩
    have hflen : f.len ≤ 2 ^ 53 := hsmall f (List.mem_append_left _ hf)
    have hdata : f.data.length ≤ f.len := by
      unfold Frame.len frameLen
      omega
    have hb := hbox f hf
    have hloop : d.rcv.loop = .busy task (f.id, f.data) := by
      rw [hbusy, ← hfm]
      rfl
    obtain ⟨d', hd'⟩ := exec_store h.boxInv hloop (by omega)
    exact ⟨.store, d', rfl, hd'⟩

end Direction

end Rosetta

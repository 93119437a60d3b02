import Mathlib.Algebra.Order.BigOperators.Group.List
import Rosetta.Connection.Progress

/-!
# What was sent is delivered

The steps of the loops and of the socket use up what there is to move (`work`), so they come to an
end; and as long as a frame is on its way, one of them is possible (`Flow.progress`). Where they
have come to an end, everything that was sent has been received or waits in `mapbuffer_`
(`delivered`), whatever the steps were.

The bound of 2 ^ 53 bytes on what was sent keeps all rings far below the largest size that can be
allocated.
-/

namespace Rosetta

open Lib CycleBuffer

theorem SendHalf.loopSendTake_pos {s s' : SendHalf} (h : s.loopSendTake = .ok s') :
    0 < s.sendBuffer.size := by
  unfold loopSendTake at h
  split at h
  · split at h
    · next hpos => exact hpos
    · cases h
  · cases h

instance {β : Type} : (l : Loop β) → Decidable (l = .idle)
  | .idle => isTrue rfl
  | .wait _ | .busy _ _ => isFalse fun h => nomatch h

namespace Direction

variable {d d' : Direction} {stored hand pend : List Frame}

/-! ## The steps come to an end -/

/-- A bound on the number of steps that the loops and the socket can take. Each of them brings bytes
to where they weigh less. -/
def work (d : Direction) : Nat :=
  6 * d.snd.sendBuffer.size + (d.snd.loop.held.map fun data => 4 * data.length + 1).sum
    + 3 * d.wire.length + 2 * d.rcv.buffer.size + d.rcv.loop.held.length

/-- The worker threads run. -/
def Running (d : Direction) : Prop := d.snd.loop ≠ .idle ∧ d.rcv.loop ≠ .idle

instance (d : Direction) : Decidable d.Running := inferInstanceAs (Decidable (_ ∧ _))

/-- What a step of the loops or of the socket leaves alone, and what it uses up. -/
structure NetStep (d d' : Direction) : Prop where
  sent : d'.sent = d.sent
  received : d'.received = d.received
  running : d.Running → d'.Running
  work : d'.work < d.work

theorem netStep_drain (h : Flow d stored hand pend) (hd : d.exec .drain = .ok d') :
    NetStep d d' := by
  obtain ⟨s, hs, hd⟩ := Exec.bind_eq_ok.mp hd
  obtain rfl := Except.ok.inj hd
  have hpos := SendHalf.loopSendTake_pos hs
  obtain ⟨task, hwait, hbusy, -, hc⟩ := SendHalf.loopSendTake_ok h.sendInv hs
  have hsize : s.sendBuffer.size = 0 := by rw [← length_contents, hc, List.length_nil]
  refine ⟨rfl, rfl, fun hr => ⟨?_, hr.2⟩, ?_⟩
  · rw [hbusy]
    exact fun h => nomatch h
  · simp only [Direction.work, hwait, hbusy, Loop.held, List.map_cons, List.map_nil, List.sum_cons,
      List.sum_nil, length_contents, hsize]
    omega

theorem netStep_flush (hd : d.exec .flush = .ok d') : NetStep d d' := by
  obtain ⟨⟨data, s⟩, hs, hd⟩ := Exec.bind_eq_ok.mp hd
  obtain rfl := Except.ok.inj hd
  obtain ⟨task, hbusy, rfl⟩ := SendHalf.loopSendWrite_ok hs
  refine ⟨rfl, rfl, fun hr => ⟨fun h => (nomatch h), hr.2⟩, ?_⟩
  simp only [Direction.work, hbusy, Loop.held, List.map_cons, List.map_nil, List.sum_cons,
    List.sum_nil, List.length_append]
  omega

theorem netStep_deliver (h : Flow d stored hand pend) {k : Nat}
    (hd : d.exec (.deliver k) = .ok d') : NetStep d d' := by
  rw [exec] at hd
  split at hd
  · next hk =>
    obtain ⟨u, hnew, hd⟩ := Exec.bind_eq_ok.mp hd
    obtain ⟨r, hr, hd⟩ := Exec.bind_eq_ok.mp hd
    obtain rfl := Except.ok.inj hd
    have hlen : (d.wire.take k).length = k := by
      rw [List.length_take]
      omega
    have hmax : (d.wire.take k).length ≤ maxAlloc := hlen.trans_le (newChar_le hnew)
    obtain ⟨-, hc, hr⟩ := RecvHalf.write_ok h.recvInv hmax hr
    have hsize : r.buffer.size = d.rcv.buffer.size + k := by
      rw [← length_contents, hc, List.length_append, length_contents, hlen]
    rw [hr]
    refine ⟨rfl, rfl, id, ?_⟩
    simp only [Direction.work, hsize, List.length_drop]
    omega
  · cases hd

theorem netStep_take (h : Flow d stored hand pend) (hd : d.exec .take = .ok d') :
    NetStep d d' := by
  obtain ⟨r, hr, hd⟩ := Exec.bind_eq_ok.mp hd
  obtain rfl := Except.ok.inj hd
  obtain ⟨task, f, pend', hwait, rfl, hbusy, -, hpipe, hr⟩ :=
    RecvHalf.loopRecvTake_ok h.recvInv h.pipe hr
  have hsize : d.rcv.buffer.size = f.len + r.buffer.size := by
    have hold := congrArg List.length h.pipe
    have hnew := congrArg List.length hpipe
    rw [List.length_append, length_contents] at hold hnew
    rw [Framing.stream_cons, List.length_append] at hold
    have hlen : (Frame.framing.encode f).length = f.len := f.length_bytes
    omega
  have h9 := f.nine_lt_len
  rw [hr]
  refine ⟨rfl, rfl, fun hrun => ⟨hrun.1, ?_⟩, ?_⟩
  · rw [hbusy]
    exact fun h => nomatch h
  · simp only [Direction.work, hwait, hbusy, Loop.held, List.length_cons, List.length_nil, hsize]
    omega

theorem netStep_store (hd : d.exec .store = .ok d') : NetStep d d' := by
  obtain ⟨r, hr, hd⟩ := Exec.bind_eq_ok.mp hd
  obtain rfl := Except.ok.inj hd
  obtain ⟨task, id, data, m, hbusy, -, rfl⟩ := RecvHalf.loopRecvStore_store hr
  refine ⟨rfl, rfl, fun hrun => ⟨hrun.1, fun h => (nomatch h)⟩, ?_⟩
  simp only [Direction.work, hbusy, Loop.held, List.length_cons, List.length_nil]
  omega

/-- **Each step of the loops and of the socket uses up some of `work`.** -/
theorem netStep_of_exec (h : Flow d stored hand pend) {a : DirAct} (ha : a.isNet = true)
    (hd : d.exec a = .ok d') : NetStep d d' := by
  cases a with
  | send | sendStart | sendStop | recvStart | recvStop | recv => cases ha
  | drain => exact netStep_drain h hd
  | flush => exact netStep_flush hd
  | deliver k => exact netStep_deliver h hd
  | take => exact netStep_take h hd
  | store => exact netStep_store hd

/-! ## Where they have come to an end -/

/-- No step of the loops or of the socket is possible. -/
def Quiet (d : Direction) : Prop := ∀ a, DirAct.isNet a = true → d.step a = none

/-- The bytes of all frames that were sent. -/
def sentSize (d : Direction) : Nat := (d.sent.map fun m => frameLen m.1 m.2).sum

theorem Flow.sum_len (h : Flow d stored hand pend) :
    ((stored ++ hand ++ pend).map Frame.len).sum = d.sentSize := by
  rw [sentSize, h.sent, List.map_map]
  rfl

theorem length_stream (fs : List Frame) :
    (Frame.framing.stream fs).length = (fs.map Frame.len).sum := by
  induction fs with
  | nil => rfl
  | cons f fs ih =>
    rw [Framing.stream_cons, List.length_append, ih, List.map_cons, List.sum_cons]
    exact congrArg (· + _) f.length_bytes

theorem Flow.size_le (h : Flow d stored hand pend) :
    d.snd.sendBuffer.size ≤ d.sentSize ∧ d.rcv.buffer.size ≤ d.sentSize := by
  have hpipe := congrArg List.length h.pipe
  have hall := h.sum_len
  rw [length_stream] at hpipe
  simp only [inFlight, List.length_append, length_contents] at hpipe
  rw [List.map_append, List.sum_append] at hall
  constructor
  · omega
  · omega

/-- A message under some id is a part of everything that was sent. -/
theorem length_dataFor_le (id : Bytes) (log : List (Bytes × Bytes)) :
    (dataFor id log).length ≤ (log.map fun m => frameLen m.1 m.2).sum := by
  induction log with
  | nil => simp [dataFor, dataWhere]
  | cons m log ih =>
    have hsplit : dataFor id (m :: log) = dataFor id [m] ++ dataFor id log :=
      dataFor_append id [m] log
    have hhead : (dataFor id [m]).length ≤ frameLen m.1 m.2 := by
      by_cases hm : m.1 = id
      · have hdata : dataFor id [m] = m.2 := hm ▸ dataFor_single_self m.1 m.2
        rw [hdata, frameLen]
        omega
      · have hnil : dataFor id [m] = [] := dataFor_single_ne hm m.2
        rw [hnil]
        exact Nat.zero_le _
    rw [hsplit, List.length_append, List.map_cons, List.sum_cons]
    omega

theorem Flow.length_box_le (h : Flow d stored hand pend) (id : Bytes) :
    (box d.rcv.mapbuffer id).length ≤ d.sentSize := by
  have hlen := (h.initial id).length_le
  have hall := length_dataFor_le id d.sent
  rw [List.length_append] at hlen
  unfold sentSize
  omega

/-- **Where nothing moves any more, nothing is on its way.** -/
theorem Flow.nothing_in_flight (h : Flow d stored hand pend) (hrun : d.Running)
    (hsize : d.sentSize ≤ 2 ^ 53) (hquiet : d.Quiet) : hand = [] ∧ pend = [] := by
  by_contra hne
  have hsmall : ∀ f ∈ hand ++ pend, f.len ≤ 2 ^ 53 := by
    intro f hf
    have hmem : f.len ∈ (stored ++ hand ++ pend).map Frame.len := by
      rw [List.append_assoc]
      exact List.mem_map_of_mem (List.mem_append_right _ hf)
    exact (List.le_sum_of_mem hmem).trans (h.sum_len.trans_le hsize)
  obtain ⟨a, d', ha, hd⟩ := h.progress hrun.1 hrun.2 (not_and_or.mp hne) hsmall
    fun f _ => (h.length_box_le f.id).trans hsize
  have hnone := hquiet a ha
  rw [step, hd] at hnone
  cases hnone

theorem Flow.received_eq_sent (h : Flow d stored [] []) (id : Bytes) :
    dataFor id d.received ++ box d.rcv.mapbuffer id = dataFor id d.sent := by
  rw [h.boxes, h.sent, List.append_nil, List.append_nil]

/-! ## Runs -/

/-- A step of a loop or of the socket in a state in which frames flow. -/
theorem step_net {a : DirAct} (ha : DirAct.isNet a = true)
    (h : ∃ stored hand pend, Flow d stored hand pend) (hstep : d.step a = some d') :
    (∃ stored hand pend, Flow d' stored hand pend) ∧ d'.sent = d.sent ∧
      d'.received = d.received ∧ (d.Running → d'.Running) ∧ d'.work < d.work := by
  have hsendable : a.Sendable := by
    cases a with
    | send id data => cases ha
    | _ => trivial
  have hflow := flow_step d a d' h hsendable hstep
  obtain ⟨stored, hand, pend, h⟩ := h
  have hnet := netStep_of_exec h ha (Exec.toOption_eq_some.mp hstep)
  exact ⟨hflow, hnet.sent, hnet.received, hnet.running, hnet.work⟩

theorem run_net {acts : List DirAct} (hacts : ∀ a ∈ acts, DirAct.isNet a = true)
    (h : ∃ stored hand pend, Flow d stored hand pend) (hrun : run step d acts = some d') :
    (∃ stored hand pend, Flow d' stored hand pend) ∧ d'.sent = d.sent ∧
      d'.received = d.received ∧ (d.Running → d'.Running) := by
  refine run_invariant_of (P := fun _ a => DirAct.isNet a = true) (I := fun e =>
    (∃ stored hand pend, Flow e stored hand pend) ∧ e.sent = d.sent ∧ e.received = d.received ∧
      (d.Running → e.Running)) ?_ ⟨h, rfl, rfl, id⟩ (allSteps_of_forall hacts d) hrun
  rintro e a e' ⟨he, hsent, hreceived, hr⟩ ha hstep
  obtain ⟨hflow, hsent', hreceived', hr', -⟩ := step_net ha he hstep
  exact ⟨hflow, hsent'.trans hsent, hreceived'.trans hreceived, fun h => hr' (hr h)⟩

theorem run_net_length {acts : List DirAct} (hacts : ∀ a ∈ acts, DirAct.isNet a = true)
    (h : ∃ stored hand pend, Flow d stored hand pend) (hrun : run step d acts = some d') :
    acts.length + d'.work ≤ d.work := by
  refine run_length_le (P := fun _ a => DirAct.isNet a = true)
    (I := fun e => ∃ stored hand pend, Flow e stored hand pend) work ?_ h
    (allSteps_of_forall hacts d) hrun
  intro e a e' he ha hstep
  obtain ⟨hflow, -, -, -, hwork⟩ := step_net ha he hstep
  exact ⟨hflow, hwork⟩

/-- The steps can be taken until there are none. -/
theorem exists_quiet (h : ∃ stored hand pend, Flow d stored hand pend) :
    ∃ acts d', (∀ a ∈ acts, DirAct.isNet a = true) ∧ run step d acts = some d' ∧ d'.Quiet := by
  obtain ⟨k, hk⟩ : ∃ k, d.work ≤ k := ⟨_, Nat.le_refl _⟩
  induction k generalizing d with
  | zero =>
    refine ⟨[], d, by simp, rfl, ?_⟩
    intro a ha
    cases hstep : d.step a with
    | none => rfl
    | some e =>
      have hlt := (step_net ha h hstep).2.2.2.2
      omega
  | succ k ih =>
    by_cases hquiet : d.Quiet
    · exact ⟨[], d, by simp, rfl, hquiet⟩
    · obtain ⟨a, ha, hstep⟩ : ∃ a, DirAct.isNet a = true ∧ d.step a ≠ none := by
        simpa [Quiet] using hquiet
      obtain ⟨e, he⟩ := Option.ne_none_iff_exists'.mp hstep
      obtain ⟨hflow, -, -, -, hlt⟩ := step_net ha h he
      obtain ⟨acts, d', hacts, hrun, hd'⟩ := ih hflow (by omega)
      refine ⟨a :: acts, d', ?_, run_cons_eq_some.mpr ⟨e, he, hrun⟩, hd'⟩
      intro b hb
      rcases List.mem_cons.mp hb with rfl | hb
      · exact ha
      · exact hacts b hb

/--
**What was sent is delivered.**

After any run of one direction that leaves both loops running, the loops and the socket can take
only so many steps, and where they cannot go on, all bytes that were sent with any id have been
received or wait for `recv`, in their order.
-/
theorem delivered {d₀ : Direction} {acts acts' : List DirAct} (hnew : Direction.new = .ok d₀)
    (hacts : ∀ a ∈ acts, a.Sendable) (hrun : run step d₀ acts = some d) (hloops : d.Running)
    (hsize : d.sentSize ≤ 2 ^ 53) (hnet : ∀ a ∈ acts', DirAct.isNet a = true)
    (hrun' : run step d acts' = some d') :
    acts'.length ≤ d.work ∧ (d'.Quiet → ∀ id,
      dataFor id d'.received ++ box d'.rcv.mapbuffer id = dataFor id d.sent) := by
  have hflow : ∃ stored hand pend, Flow d stored hand pend :=
    run_invariant_of flow_step ⟨[], [], [], flow_new hnew⟩ (allSteps_of_forall hacts d₀) hrun
  have hlength := run_net_length hnet hflow hrun'
  obtain ⟨⟨stored, hand, pend, h⟩, hsent, -, hrunning⟩ := run_net hnet hflow hrun'
  refine ⟨by omega, fun hquiet id => ?_⟩
  have hsize' : d'.sentSize ≤ 2 ^ 53 := by
    rw [sentSize, hsent]
    exact hsize
  obtain ⟨rfl, rfl⟩ := h.nothing_in_flight (hrunning hloops) hsize' hquiet
  rw [h.received_eq_sent, hsent]

/-- One of two messages has been received, and the loops bring the other one to its end. -/
theorem delivered_small : ∃ (d₀ d d' : Direction) (acts acts' : List DirAct),
    Direction.new = .ok d₀ ∧ (∀ a ∈ acts, a.Sendable) ∧ run step d₀ acts = some d ∧ d.Running ∧
    d.sentSize ≤ 2 ^ 53 ∧ acts'.length = 5 ∧ (∀ a ∈ acts', DirAct.isNet a = true) ∧
    run step d acts' = some d' ∧ acts'.length ≤ d.work ∧ (d'.Quiet → ∀ id,
      dataFor id d'.received ++ box d'.rcv.mapbuffer id = dataFor id d.sent) := by
  obtain ⟨acts, hacts, d₀, hnew, hview⟩ : ∃ acts : List DirAct, (∀ a ∈ acts, a.Sendable) ∧
      ∃ d₀, Direction.new = .ok d₀ ∧ (run step d₀ acts).any (fun d =>
        decide d.Running && decide (d.sentSize ≤ 2 ^ 53)
          && (run step d [.drain, .flush, .deliver 11, .take, .store]).isSome) = true :=
    ⟨[.sendStart [115], .recvStart [116], .send [97] [1], .drain, .flush, .deliver 11, .take,
      .store, .recv ⟨[97], 1, -1, .invalid, 0⟩, .send [98] [3]], by decide, _, rfl, by decide⟩
  obtain ⟨d, hrun, hd⟩ := (Option.any_eq_true _ _).mp hview
  simp only [Bool.and_eq_true, decide_eq_true_eq] at hd
  obtain ⟨⟨hrunning, hsize⟩, hsome⟩ := hd
  obtain ⟨d', hrun'⟩ := Option.isSome_iff_exists.mp hsome
  have hnet : ∀ a ∈ ([.drain, .flush, .deliver 11, .take, .store] : List DirAct),
      DirAct.isNet a = true := by decide
  exact ⟨d₀, d, d', acts, _, hnew, hacts, hrun, hrunning, hsize, rfl, hnet, hrun',
    delivered hnew hacts hrun hrunning hsize hnet hrun'⟩

end Direction

end Rosetta

import Rosetta.Server.Reading

/-!
# The epoll thread reads everything

A run of `Reading` is a run of its direction in which the socket is read at certain times only
(`direction_of_run`). Between two events the threads can take so many steps (`todo`); where they
have come to an end and the connection is still open, everything that was sent is received or waits
for `recv` (`reads_all`).
-/

namespace Rosetta

open Lib CycleBuffer

namespace Direction

variable {d d' : Direction}

/-- What is in `send_buffer_`, in the hands of `loop_send` and on the way. -/
def unread (d : Direction) : Nat :=
  d.snd.sendBuffer.size + (d.snd.loop.held.map List.length).sum + d.wire.length

/-- Apart from reading, the loops leave it as it is. -/
theorem unread_of_exec (hi : Inv d.snd.sendBuffer) {a : DirAct} (ha : a.isNet = true)
    (hread : a.isRead = false) (hd : d.exec a = .ok d') : d'.unread = d.unread := by
  cases a with
  | deliver k => cases hread
  | drain =>
    obtain ⟨s, hs, hd⟩ := Exec.bind_eq_ok.mp hd
    obtain rfl := Except.ok.inj hd
    obtain ⟨task, hwait, hbusy, -, hc⟩ := SendHalf.loopSendTake_ok hi hs
    have hsize : s.sendBuffer.size = 0 := by rw [← length_contents, hc, List.length_nil]
    simp only [unread, hwait, hbusy, hsize, Loop.held, List.map_cons, List.map_nil, List.sum_cons,
      List.sum_nil, length_contents]
    omega
  | flush =>
    obtain ⟨⟨data, s⟩, hs, hd⟩ := Exec.bind_eq_ok.mp hd
    obtain rfl := Except.ok.inj hd
    obtain ⟨task, hbusy, rfl⟩ := SendHalf.loopSendWrite_ok hs
    simp only [unread, hbusy, Loop.held, List.map_cons, List.map_nil, List.sum_cons, List.sum_nil,
      List.length_append]
    omega
  | take | store =>
    obtain ⟨r, -, hd⟩ := Exec.bind_eq_ok.mp hd
    obtain rfl := Except.ok.inj hd
    rfl
  | send | sendStart | sendStop | recvStart | recvStop | recv => cases ha

theorem unread_of_deliver {k : Nat} (hd : d.exec (.deliver k) = .ok d') :
    d'.unread = d.unread - k := by
  rw [exec] at hd
  split at hd
  · next hk =>
    obtain ⟨u, -, hd⟩ := Exec.bind_eq_ok.mp hd
    obtain ⟨r, -, hd⟩ := Exec.bind_eq_ok.mp hd
    obtain rfl := Except.ok.inj hd
    simp only [unread, List.length_drop]
    omega
  · cases hd

end Direction

/-- What an action does to the direction. -/
def ReadAct.dirActs : ReadAct → List DirAct
  | .dir a => [a]
  | .read k => [.deliver k]
  | _ => []

/-- Steps of the loops and of the epoll thread, and bytes that arrive. -/
def ReadAct.isOnward : ReadAct → Bool
  | .dir a => a.isNet
  | .arrive _ | .epollWait | .handle | .read _ | .readEof | .readAgain | .readError => true
  | _ => false

def ReadLoop.todo : ReadLoop → Nat
  | .polling => 0
  | .reading | .draining => 1
  | .error | .input => 2

namespace Reading

variable {s s' : Reading} {d : Direction} {acts acts' : List ReadAct}

/-- **A run is one of the direction.** -/
theorem direction_of_run (hrun : run step s acts = some s') :
    run Direction.step s.dir (acts.flatMap ReadAct.dirActs) = some s'.dir := by
  have hone : ∀ t d a t', Reading.dir t = d → True → t.step a = some t' →
      ∃ d', run Direction.step d a.dirActs = some d' ∧ t'.dir = d' := by
    rintro t _ a t' rfl - hstep
    cases does_of_step hstep with
    | dir ha hd =>
      exact ⟨_, run_cons_eq_some.mpr ⟨_, Exec.toOption_eq_some.mpr hd, rfl⟩, rfl⟩
    | read hloop hclosed hle hd =>
      exact ⟨_, run_cons_eq_some.mpr ⟨_, Exec.toOption_eq_some.mpr hd, rfl⟩, rfl⟩
    | _ => exact ⟨_, rfl, rfl⟩
  obtain ⟨d, hd, rfl⟩ := run_simulation_list (P := fun _ _ => True) ReadAct.dirActs hone rfl
    (allSteps_of_forall (Q := fun _ => True) (fun _ _ => trivial) s) hrun
  exact hd

/-! ## Between two events -/

/-- An open connection. -/
structure Live (s : Reading) : Prop where
  sound : Sound s
  flow : ∃ stored hand pend, s.dir.Flow stored hand pend
  registered : s.registered = true
  fin : s.fin = false

theorem Live.closed (h : Live s) : s.closed = false := by
  by_contra hclosed
  exact absurd (h.registered.symm.trans (h.sound.closed (Bool.eq_true_of_not_eq_false hclosed)))
    (by decide)

theorem Live.not_draining (h : Live s) : s.loop ≠ .draining := fun hloop =>
  absurd (h.fin.symm.trans (h.sound.draining hloop)) (by decide)

/-- A bound on the steps until the next event. -/
def todo (s : Reading) : Nat :=
  s.dir.work + 5 * (s.dir.unread - s.arrived) + (if s.ready then 3 else 0) + s.loop.todo

/-- What a step between two events keeps, and what it uses up. -/
structure Onward (s s' : Reading) : Prop where
  live : Live s'
  sent : s'.dir.sent = s.dir.sent
  running : s.dir.Running → s'.dir.Running
  todo : s'.todo < s.todo

theorem onward_of_step (h : Live s) {a : ReadAct} (ha : a.isOnward = true)
    (hstep : s.step a = some s') : Onward s s' := by
  have hsound := sound_step h.sound hstep
  cases does_of_step hstep with
  | @dir a d hread hd =>
    obtain ⟨hflow, hsent, -, hrunning, hwork⟩ :=
      Direction.step_net ha h.flow (Exec.toOption_eq_some.mpr hd)
    obtain ⟨stored, hand, pend, hf⟩ := h.flow
    have hunread := Direction.unread_of_exec hf.sendInv ha hread hd
    refine ⟨⟨hsound, hflow, h.registered, h.fin⟩, hsent, hrunning, ?_⟩
    simp only [Reading.todo, hunread]
    omega
  | @read k d hloop hclosed hle hd =>
    obtain ⟨hflow, hsent, -, hrunning, hwork⟩ :=
      Direction.step_net (a := .deliver k) rfl h.flow (Exec.toOption_eq_some.mpr hd)
    have hunread := Direction.unread_of_deliver hd
    refine ⟨⟨hsound, hflow, h.registered, h.fin⟩, hsent, hrunning, ?_⟩
    simp only [Reading.todo, hunread]
    omega
  | arrive hpos hle hfin hclosed =>
    refine ⟨⟨hsound, h.flow, h.registered, h.fin⟩, rfl, id, ?_⟩
    have hunread : s.dir.wire.length ≤ s.dir.unread := Nat.le_add_left _ _
    simp only [Reading.todo, Reading.wake, h.registered, Bool.or_true, if_true]
    split <;> omega
  | error hloop hready | input hloop hready | pass hloop hready =>
    refine ⟨⟨hsound, h.flow, h.registered, h.fin⟩, rfl, id, ?_⟩
    simp only [Reading.todo, hready, hloop, ReadLoop.todo, if_true, Bool.false_eq_true, if_false]
    omega
  | skip hloop | late hloop | enter hloop | again hloop | gone hloop =>
    refine ⟨⟨hsound, h.flow, h.registered, h.fin⟩, rfl, id, ?_⟩
    simp only [Reading.todo, hloop, ReadLoop.todo]
    omega
  | drain hloop htcp => exact absurd (h.fin.symm.trans (h.sound.tcpClose htcp)) (by decide)
  | eof hnone hfin => exact absurd (h.fin.symm.trans hfin) (by decide)
  | empty hloop | lost hloop => exact absurd hloop h.not_draining
  | fin | reset | fault | add | retry | stop | close => cases ha

theorem onward_of_run (h : Live s) (hacts : ∀ a ∈ acts, ReadAct.isOnward a = true)
    (hrun : run step s acts = some s') : acts.length + s'.todo ≤ s.todo ∧ Live s' ∧
      s'.dir.sent = s.dir.sent ∧ (s.dir.Running → s'.dir.Running) := by
  constructor
  · refine run_length_le (P := fun _ a => ReadAct.isOnward a = true) (I := Live) todo
      (fun t a t' ht ha hstep => ?_) h (allSteps_of_forall hacts s) hrun
    have honward := onward_of_step ht ha hstep
    exact ⟨honward.live, honward.todo⟩
  · refine run_invariant_of (P := fun _ a => ReadAct.isOnward a = true) (I := fun t =>
      Live t ∧ t.dir.sent = s.dir.sent ∧ (s.dir.Running → t.dir.Running)) ?_ ⟨h, rfl, id⟩
      (allSteps_of_forall hacts s) hrun
    rintro t a t' ⟨ht, hsent, hrunning⟩ ha hstep
    have honward := onward_of_step ht ha hstep
    exact ⟨honward.live, honward.sent.trans hsent, fun hr => honward.running (hrunning hr)⟩

/-! ## The end -/

def Quiet (s : Reading) : Prop := ∀ a, ReadAct.isOnward a = true → s.step a = none

/-- The epoll thread is not at the connection, and will not come. -/
theorem Live.polling (h : Live s) (hquiet : s.Quiet) (hsize : s.dir.sentSize ≤ 2 ^ 53) :
    s.loop = .polling ∧ s.ready = false := by
  have hclosed := h.closed
  have hloop : s.loop = .polling := by
    cases hloop : s.loop with
    | polling => rfl
    | error =>
      have hnone := hquiet .handle rfl
      cases htcp : s.tcpClose <;> simp [step, exec, hloop, htcp, Except.toOption] at hnone
    | input =>
      have hnone := hquiet .handle rfl
      simp [step, exec, hloop, hclosed, Except.toOption] at hnone
    | draining => exact absurd hloop h.not_draining
    | reading =>
      by_cases hnothing : s.arrived = 0
      · cases herr : s.err with
        | true =>
          have hnone := hquiet .readError rfl
          simp [step, exec, leave, hloop, hnothing, herr, Except.toOption] at hnone
        | false =>
          have hnone := hquiet .readAgain rfl
          simp [step, exec, leave, hloop, hnothing, herr, h.fin, hclosed, Except.toOption] at hnone
      · -- a byte can be read
        obtain ⟨stored, hand, pend, hflow⟩ := h.flow
        have harrived := h.sound.arrived
        have hwire : s.dir.wire ≠ [] := List.length_pos_iff.mp (by omega)
        obtain ⟨d, hd⟩ :=
          Direction.exec_deliver_one hflow.recvInv hwire (hflow.size_le.2.trans hsize)
        have hnone := hquiet (.read 1) rfl
        have hone : 1 ≤ s.arrived := by omega
        simp [step, exec, hloop, hclosed, hone, hd, Except.toOption] at hnone
  refine ⟨hloop, ?_⟩
  cases hready : s.ready with
  | false => rfl
  | true =>
    have hnone := hquiet .epollWait rfl
    simp [step, exec, hloop, hready, Except.toOption] at hnone

/-- **Where nothing moves any more, the socket is empty and nothing is on its way to it.** -/
theorem Live.quiet (h : Live s) (hset : Settled s) (hquiet : s.Quiet)
    (hsize : s.dir.sentSize ≤ 2 ^ 53) : s.dir.Quiet := by
  obtain ⟨hloop, hready⟩ := h.polling hquiet hsize
  have hnothing := (hset.1 hloop hready h.registered).1
  have hwire : s.dir.wire.length = 0 := by
    by_contra hne
    have hone : 1 ≤ s.dir.wire.length := by omega
    have hnone := hquiet (.arrive 1) rfl
    simp [step, exec, hnothing, hone, h.fin, h.closed, Except.toOption] at hnone
  intro a ha
  cases hread : a.isRead with
  | true =>
    cases a with
    | deliver k =>
      have hblocked : ¬ (0 < k ∧ k ≤ s.dir.wire.length) := by omega
      rw [Direction.step, Direction.exec, if_neg hblocked]
      rfl
    | send | sendStart | sendStop | drain | flush | recvStart | recvStop | take | store | recv =>
      cases hread
  | false =>
    have hnone := hquiet (.dir a) ha
    simp only [step, exec, hread, if_true] at hnone
    cases hd : s.dir.exec a with
    | error e =>
      rw [Direction.step, hd]
      rfl
    | ok d =>
      rw [hd] at hnone
      cases hnone

theorem live_of_run (hnew : Direction.new = .ok d)
    (hacts : ∀ a ∈ acts.flatMap ReadAct.dirActs, a.Sendable)
    (hrun : run step { dir := d } acts = some s) (hreg : s.registered = true)
    (hfin : s.fin = false) : Live s := by
  refine ⟨?_, ?_, hreg, hfin⟩
  · exact run_invariant (fun _ _ _ h hstep => sound_step h hstep) (sound_start d) hrun
  · exact run_invariant_of Direction.flow_step ⟨[], [], [], Direction.flow_new hnew⟩
      (allSteps_of_forall hacts d) (direction_of_run hrun)

theorem settled_of_run {s₀ : Reading} (hs : Sound s₀) (h : Settled s₀)
    (hhandled : AllSteps step Handled s₀ acts) (hrun : run step s₀ acts = some s) : Settled s := by
  refine (run_invariant_of (I := fun t => Sound t ∧ Settled t) ?_ ⟨hs, h⟩ hhandled hrun).2
  rintro t a t' ⟨ht, hset⟩ ha hstep
  exact ⟨sound_step ht hstep, (settled_step ht hset hstep).mpr ha⟩

/--
**The epoll thread reads everything.**

After any run in which errors are handled and that leaves the connection open and both loops
running, the loops and the epoll thread can take only so many steps, and where they cannot go on,
everything that was sent with any id has been received or waits for `recv`, in its order.
-/
theorem reads_all (hnew : Direction.new = .ok d)
    (hacts : ∀ a ∈ acts.flatMap ReadAct.dirActs, a.Sendable)
    (hhandled : AllSteps step Handled { dir := d } acts)
    (hrun : run step { dir := d } acts = some s) (hreg : s.registered = true)
    (hfin : s.fin = false) (hloops : s.dir.Running) (hsize : s.dir.sentSize ≤ 2 ^ 53)
    (honward : ∀ a ∈ acts', ReadAct.isOnward a = true)
    (hhandled' : AllSteps step Handled s acts') (hrun' : run step s acts' = some s') :
    acts'.length ≤ s.todo ∧ (s'.Quiet → ∀ id,
      dataFor id s'.dir.received ++ box s'.dir.rcv.mapbuffer id = dataFor id s.dir.sent) := by
  have hlive := live_of_run hnew hacts hrun hreg hfin
  obtain ⟨hlength, hlive', hsent, hrunning⟩ := onward_of_run hlive honward hrun'
  refine ⟨by omega, fun hquiet id => ?_⟩
  have hset := settled_of_run (sound_start d) (settled_start d) hhandled hrun
  have hset' := settled_of_run hlive.sound hset hhandled' hrun'
  have hsize' : s'.dir.sentSize ≤ 2 ^ 53 := by
    rw [Direction.sentSize, hsent]
    exact hsize
  obtain ⟨stored, hand, pend, hflow⟩ := hlive'.flow
  obtain ⟨rfl, rfl⟩ := hflow.nothing_in_flight (hrunning hloops) hsize'
    (hlive'.quiet hset' hquiet hsize')
  rw [hflow.received_eq_sent, hsent]

/-- A message arrives in two pieces. -/
theorem reads_all_small : ∃ (d : Direction) (s s' : Reading) (acts acts' : List ReadAct),
    Direction.new = .ok d ∧ (∀ a ∈ acts.flatMap ReadAct.dirActs, a.Sendable) ∧
    AllSteps step Handled { dir := d } acts ∧ run step { dir := d } acts = some s ∧
    s.registered = true ∧ s.fin = false ∧ s.dir.Running ∧ s.dir.sentSize ≤ 2 ^ 53 ∧
    acts'.length = 8 ∧ (∀ a ∈ acts', ReadAct.isOnward a = true) ∧ AllSteps step Handled s acts' ∧
    run step s acts' = some s' ∧ acts'.length ≤ s.todo ∧ (s'.Quiet → ∀ id,
      dataFor id s'.dir.received ++ box s'.dir.rcv.mapbuffer id = dataFor id s.dir.sent) := by
  obtain ⟨d, acts, hnew, hacts, hhandled, hview⟩ : ∃ (d : Direction) (acts : List ReadAct),
      Direction.new = .ok d ∧ (∀ a ∈ acts.flatMap ReadAct.dirActs, a.Sendable) ∧
      AllSteps step Handled { dir := d } acts ∧ (run step { dir := d } acts).any (fun s =>
        (s.registered && !s.fin) && decide (s.dir.Running ∧ s.dir.sentSize ≤ 2 ^ 53) &&
          (decide (AllSteps step Handled s [.arrive 5, .epollWait, .arrive 6, .handle, .read 11,
            .readAgain, .dir .take, .dir .store]) &&
          (run step s [.arrive 5, .epollWait, .arrive 6, .handle, .read 11, .readAgain, .dir .take,
            .dir .store]).isSome)) = true :=
    ⟨_, [.dir (.sendStart [115]), .add, .dir (.recvStart [116]), .dir (.send [97] [1]), .dir .drain,
      .dir .flush], rfl, by decide, by decide, by decide⟩
  obtain ⟨s, hrun, hs⟩ := (Option.any_eq_true _ _).mp hview
  simp only [Bool.and_eq_true, Bool.not_eq_true', decide_eq_true_eq] at hs
  obtain ⟨⟨⟨hreg, hfin⟩, hloops, hsize⟩, hhandled', hsome⟩ := hs
  obtain ⟨s', hrun'⟩ := Option.isSome_iff_exists.mp hsome
  have honward : ∀ a ∈ ([.arrive 5, .epollWait, .arrive 6, .handle, .read 11, .readAgain,
      .dir .take, .dir .store] : List ReadAct), ReadAct.isOnward a = true := by decide
  exact ⟨d, s, s', acts, _, hnew, hacts, hhandled, hrun, hreg, hfin, hloops, hsize, rfl, honward,
    hhandled', hrun', reads_all hnew hacts hhandled hrun hreg hfin hloops hsize honward hhandled'
      hrun'⟩

end Reading

end Rosetta

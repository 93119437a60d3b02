import Rosetta.Connection.Packet
import Rosetta.Link.Locks

/-!
# Counting the lock bytes

A byte that `start` sends under a lock id is on its way, in the hand of `loop_recv`, under its id in
`mapbuffer_`, or received by a `stop` of the other end. `Tally` counts it at each of these places.

Other than `Locks`, `Tally` does not ask that all messages can be read back: it is enough that none
of them is sent or received with a lock id.
-/

namespace Rosetta

open Lib CycleBuffer

/-- A message is not sent or received with the id of a lock byte, and the frame of a lock byte can
be read back. -/
def LinkAct.LocksApart : LinkAct → Prop
  | .start _ task => task.length ≤ 249
  | .send _ id _ => isLockId id = false
  | .recv _ call => isLockId call.id = false
  | _ => True

instance : DecidablePred LinkAct.LocksApart
  | .start _ _ => inferInstanceAs (Decidable (_ ≤ _))
  | .send _ _ _ => inferInstanceAs (Decidable (_ = _))
  | .recv _ _ => inferInstanceAs (Decidable (_ = _))
  | .registered _ _ | .stop _ _ | .lockRecv _ _ | .doStop _ _ | .net _ _ => isTrue trivial

/-- A cut id is a lock id only if the whole id is one. -/
theorem isLockId_take {id : Bytes} (h : isLockId id = false) (k : Nat) :
    isLockId (id.take k) = false := by
  simp only [isLockId, decide_eq_false_iff_not, List.take_take] at h ⊢
  intro htake
  have hlen := congrArg List.length htake
  simp only [List.length_take, List.length_cons, List.length_nil] at hlen
  rw [Nat.min_eq_left (by omega)] at htake
  exact h htake

/-! ## One direction -/

namespace Direction

/-- The ids of the frames that a step puts into `mapbuffer_`. -/
def delivers (d : Direction) : DirAct → List Bytes
  | .store => d.rcv.loop.held.map Prod.fst
  | _ => []

/-- What `loop_recv` has still to put into `mapbuffer_`, oldest first. -/
def coming (d : Direction) (pend : List Packet) : List (Bytes × Bytes) :=
  d.rcv.loop.held ++ pend.map Packet.message

/-- `starts` and `stops` are the lock bytes that were sent and received, `delivered` are the ids
of the frames that have come into `mapbuffer_`. -/
structure Tally (d : Direction) (starts stops : Bytes → Nat) (delivered : List Bytes)
    (pend : List Packet) : Prop where
  pipe : d.rcv.buffer.contents ++ d.inFlight = Packet.framing.stream pend
  fits : ∀ m ∈ d.coming pend, m.2.length ≤ maxAlloc
  lockMsgs : ∀ m ∈ d.coming pend, isLockId m.1 = true → m.2 = lockMsg
  started : ∀ task, starts task
    = delivered.count (lockId task) + ((d.coming pend).map Prod.fst).count (lockId task)
  unread : ∀ task, (box d.rcv.mapbuffer (lockId task)).length + stops task
    = delivered.count (lockId task)
  sendInv : Inv d.snd.sendBuffer
  recvInv : Inv d.rcv.buffer
  boxInv : BoxInv d.rcv.mapbuffer

variable {d d' : Direction} {starts stops : Bytes → Nat} {delivered : List Bytes}
  {pend : List Packet}

theorem tally_new (h : Direction.new = .ok d) : Tally d (fun _ => 0) (fun _ => 0) [] [] := by
  have hfresh := fresh_new h
  refine ⟨hfresh.pipe, ?_, ?_, ?_, ?_, hfresh.sendInv, hfresh.recvInv, ?_⟩
  · simp [coming, hfresh.rcv, Loop.held]
  · simp [coming, hfresh.rcv, Loop.held]
  · simp [coming, hfresh.rcv, Loop.held]
  · simp [hfresh.mapbuffer, box]
  · rw [hfresh.mapbuffer]
    exact boxInv_empty

theorem Tally.append (h : Tally d starts stops delivered pend) {id data : Bytes}
    (hd : d.exec (.send id data) = .ok d') :
    ∃ p : Packet, p.id = id ∧ p.data = data ∧ d'.rcv = d.rcv ∧ Inv d'.snd.sendBuffer ∧
      d'.rcv.buffer.contents ++ d'.inFlight = Packet.framing.stream (pend ++ [p]) ∧
      d'.coming (pend ++ [p]) = d.coming pend ++ [p.message] := by
  obtain ⟨s, hs, hd⟩ := Exec.bind_eq_ok.mp hd
  obtain rfl := Except.ok.inj hd
  obtain ⟨hfits, hinv, hc, hloop⟩ := SendHalf.send_ok h.sendInv hs
  have hlast : Packet.framing.stream [⟨id, data, hfits⟩] = frameBytes id data :=
    List.append_nil _
  refine ⟨⟨id, data, hfits⟩, rfl, rfl, rfl, hinv, ?_, ?_⟩
  · rw [Framing.stream_append, ← h.pipe, hlast]
    simp only [inFlight, hloop, hc, List.append_assoc]
  · simp [coming]

/-- A message comes in behind the others; if it is a lock byte, it is counted. -/
theorem Tally.push (h : Tally d starts stops delivered pend) {starts' : Bytes → Nat} {p : Packet}
    (hrcv : d'.rcv = d.rcv) (hinv : Inv d'.snd.sendBuffer)
    (hpipe : d'.rcv.buffer.contents ++ d'.inFlight = Packet.framing.stream (pend ++ [p]))
    (hcoming : d'.coming (pend ++ [p]) = d.coming pend ++ [p.message])
    (hlock : isLockId p.message.1 = true → p.message.2 = lockMsg)
    (hstarts : ∀ task, starts' task = starts task + [p.message.1].count (lockId task)) :
    Tally d' starts' stops delivered (pend ++ [p]) := by
  refine ⟨hpipe, ?_, ?_, ?_, hrcv ▸ h.unread, hinv, hrcv ▸ h.recvInv, hrcv ▸ h.boxInv⟩
  · rw [hcoming]
    exact List.forall_mem_append.mpr ⟨h.fits, List.forall_mem_singleton.mpr p.length_message_le⟩
  · rw [hcoming]
    exact List.forall_mem_append.mpr ⟨h.lockMsgs, List.forall_mem_singleton.mpr hlock⟩
  · intro task
    rw [hstarts, h.started, hcoming, List.map_append, List.count_append, Nat.add_assoc]
    rfl

/-- A message of a channel. -/
theorem Tally.send (h : Tally d starts stops delivered pend) {id data : Bytes}
    (hid : isLockId id = false) (hd : d.exec (.send id data) = .ok d') :
    ∃ p, Tally d' starts stops delivered (pend ++ [p]) := by
  obtain ⟨p, rfl, rfl, hrcv, hinv, hpipe, hcoming⟩ := h.append hd
  have hmsg : isLockId p.message.1 = false := isLockId_take hid _
  refine ⟨p, h.push hrcv hinv hpipe hcoming ?_ fun task => ?_⟩
  · rw [hmsg]
    exact Bool.noConfusion
  · have hne : p.message.1 ≠ lockId task := ne_lockId hmsg task
    simp [hne]

/-- The byte of `start`. -/
theorem Tally.start (h : Tally d starts stops delivered pend) {task : Bytes}
    (hlen : task.length ≤ 249) (hd : d.exec (.send (lockId task) lockMsg) = .ok d') :
    ∃ p, Tally d' (Function.update starts task (starts task + 1)) stops delivered
      (pend ++ [p]) := by
  obtain ⟨p, hid, hdata, hrcv, hinv, hpipe, hcoming⟩ := h.append hd
  have hmsg : p.message = (lockId task, lockMsg) := by
    rw [Packet.message_of_short, hid, hdata]
    rw [hid, length_lockId]
    omega
  refine ⟨p, h.push hrcv hinv hpipe hcoming (fun _ => by rw [hmsg]) fun task' => ?_⟩
  rcases eq_or_ne task' task with rfl | hne
  · simp [hmsg]
  · have hid' : lockId task ≠ lockId task' := fun hi => hne (lockId_injective hi).symm
    simp [hmsg, hne, hid']

/-- A call of `recv` of a channel. -/
theorem Tally.recv (h : Tally d starts stops delivered pend) {call : RecvCall}
    (hid : isLockId call.id = false) (hd : d.exec (.recv call) = .ok d') :
    Tally d' starts stops delivered pend := by
  obtain ⟨⟨ret, data, r⟩, hr, hd⟩ := Exec.bind_eq_ok.mp hd
  obtain rfl := Except.ok.inj hd
  obtain ⟨hinv, -, hother, hr⟩ := RecvHalf.recv_ok h.boxInv hr
  rw [hr]
  refine ⟨h.pipe, h.fits, h.lockMsgs, h.started, ?_, h.sendInv, h.recvInv, hinv⟩
  intro task
  show (box r.mapbuffer (lockId task)).length + stops task = _
  rw [hother (lockId task) (ne_lockId hid task).symm, h.unread]

/-- The wait of `stop` is over: one byte less waits under its id. -/
theorem Tally.lockRecv (h : Tally d starts stops delivered pend) {task : Bytes}
    (hd : d.exec (.recv (lockCall task)) = .ok d') :
    Tally d' starts (Function.update stops task (stops task + 1)) delivered pend := by
  obtain ⟨⟨ret, data, r⟩, hrecv, hd⟩ := Exec.bind_eq_ok.mp hd
  obtain rfl := Except.ok.inj hd
  have hlen := Link.length_of_lockCall h.boxInv hrecv
  obtain ⟨hinv, hself, hother, hr⟩ := RecvHalf.recv_ok h.boxInv hrecv
  rw [hr]
  refine ⟨h.pipe, h.fits, h.lockMsgs, h.started, ?_, h.sendInv, h.recvInv, hinv⟩
  intro task'
  show (box r.mapbuffer (lockId task')).length + _ = _
  rcases eq_or_ne task' task with rfl | hne
  · have hself : (box d.rcv.mapbuffer (lockId task')).length
        = data.length + (box r.mapbuffer (lockId task')).length := by
      rw [← List.length_append]
      exact congrArg List.length hself
    rw [Function.update_self, ← h.unread, hself, hlen]
    omega
  · rw [Function.update_of_ne hne, ← h.unread,
      hother (lockId task') fun hi => hne (lockId_injective hi)]

/-- `loop_recv` reads a frame, or an empty message that is not there. -/
theorem Tally.take (h : Tally d starts stops delivered pend) (hd : d.exec .take = .ok d') :
    ∃ pend', Tally d' starts stops delivered pend' := by
  obtain ⟨r, hr, hd⟩ := Exec.bind_eq_ok.mp hd
  obtain rfl := Except.ok.inj hd
  obtain ⟨task, pend', hwait, hinv, hpipe, hr, hread⟩ :=
    RecvHalf.loopRecvTake_packet h.recvInv h.pipe hr
  have hcoming : d.coming pend = pend.map Packet.message := by
    simp [coming, hwait, Loop.held]
  rw [hr]
  rcases hread with ⟨p, rfl, hbusy⟩ | ⟨rfl, hbusy⟩
  · have hcoming' : coming { d with rcv := { d.rcv with buffer := r.buffer, loop := r.loop } } pend'
        = d.coming (p :: pend') := by
      simp [coming, hbusy, hwait, Loop.held]
    refine ⟨pend', hpipe, ?_, ?_, ?_, h.unread, h.sendInv, hinv, h.boxInv⟩
    · rw [hcoming']
      exact h.fits
    · rw [hcoming']
      exact h.lockMsgs
    · rw [hcoming']
      exact h.started
  · have hcoming' : coming { d with rcv := { d.rcv with buffer := r.buffer, loop := r.loop } } pend
        = ([], []) :: d.coming pend := by
      simp [coming, hbusy, hwait, Loop.held]
    refine ⟨pend, hpipe, ?_, ?_, ?_, h.unread, h.sendInv, hinv, h.boxInv⟩
    · rw [hcoming']
      exact List.forall_mem_cons.mpr ⟨Nat.zero_le _, h.fits⟩
    · rw [hcoming']
      exact List.forall_mem_cons.mpr ⟨by decide, h.lockMsgs⟩
    · intro task'
      have hne : [] ≠ lockId task' := (lockId_ne_nil task').symm
      rw [hcoming', List.map_cons, List.count_cons_of_ne hne, h.started]

theorem Tally.store (h : Tally d starts stops delivered pend) (hd : d.exec .store = .ok d') :
    Tally d' starts stops (delivered ++ d.delivers .store) pend := by
  obtain ⟨r, hr, hd⟩ := Exec.bind_eq_ok.mp hd
  obtain rfl := Except.ok.inj hd
  obtain ⟨task, id, data, -, hbusy, -, -⟩ := RecvHalf.loopRecvStore_store hr
  have hcoming : d.coming pend = (id, data) :: pend.map Packet.message := by
    simp [coming, hbusy, Loop.held]
  have hdelivers : d.delivers .store = [id] := by
    simp [delivers, hbusy, Loop.held]
  have hfits := h.fits
  have hlock := h.lockMsgs
  rw [hcoming] at hfits hlock
  obtain ⟨hdata, hfits⟩ := List.forall_mem_cons.mp hfits
  obtain ⟨hmsg, hlock⟩ := List.forall_mem_cons.mp hlock
  obtain ⟨hinv, hself, hother, hr⟩ := RecvHalf.loopRecvStore_ok h.boxInv hbusy hdata hr
  rw [hr, hdelivers]
  refine ⟨h.pipe, hfits, hlock, ?_, ?_, h.sendInv, h.recvInv, hinv⟩
  · intro task'
    rw [h.started, hcoming, List.map_cons, List.count_cons, List.count_append, List.count_singleton]
    simp only [coming, Loop.held, List.nil_append]
    omega
  · intro task'
    show (box r.mapbuffer (lockId task')).length + _ = _
    rw [List.count_append, ← h.unread]
    rcases eq_or_ne id (lockId task') with rfl | hne
    · have hone : data = lockMsg := hmsg (isLockId_lockId task')
      simp [hself, hone, lockMsg, Nat.add_right_comm]
    · simp [hother _ hne.symm, hne]

theorem Tally.moved (h : Tally d starts stops delivered pend) (hm : Moved d d') :
    Tally d' starts stops delivered pend := by
  have hcoming : d'.coming pend = d.coming pend := by simp only [coming, hm.held]
  refine ⟨hm.pipe.trans h.pipe, ?_, ?_, ?_, ?_, hm.sendInv, hm.recvInv, ?_⟩
  · rw [hcoming]
    exact h.fits
  · rw [hcoming]
    exact h.lockMsgs
  · rw [hcoming]
    exact h.started
  · rw [hm.mapbuffer]
    exact h.unread
  · rw [hm.mapbuffer]
    exact h.boxInv

/-- A step of the loops or of the socket. -/
theorem Tally.internal (h : Tally d starts stops delivered pend) {a : DirAct}
    (ha : a.isInternal = true) (hd : d.exec a = .ok d') :
    ∃ pend', Tally d' starts stops (delivered ++ d.delivers a) pend' := by
  cases a with
  | send id data => cases ha
  | recv call => cases ha
  | take =>
    obtain ⟨pend', h'⟩ := h.take hd
    refine ⟨pend', ?_⟩
    simpa [delivers] using h'
  | store => exact ⟨pend, h.store hd⟩
  | sendStart | sendStop | drain | flush | deliver | recvStart | recvStop =>
    refine ⟨pend, ?_⟩
    simpa [delivers] using h.moved (moved_of_exec h.sendInv h.recvInv rfl hd)

end Direction

/-! ## Both ends -/

/-- A `Link`, with the ids of the frames that have come into the two `mapbuffer_`. -/
structure CountedLink where
  link : Link
  /-- by the end that has sent the frames -/
  delivered : End → List Bytes := fun _ => []

namespace CountedLink

def new : Exec CountedLink := do
  let l ← Link.new
  .ok { link := l }

def delivers (s : CountedLink) : LinkAct → End → List Bytes
  | .net e a, e' => if e' = e then (s.link.dir e).delivers a else []
  | _, _ => []

def step (s : CountedLink) (a : LinkAct) : Option CountedLink :=
  match s.link.exec a with
  | .ok l => some { link := l, delivered := fun e => s.delivered e ++ s.delivers a e }
  | .error _ => none

/-- The lock bytes of the task that nobody at this end has read. -/
def unread (s : CountedLink) (e : End) (task : Bytes) : Nat :=
  (box (s.link.dir e.other).rcv.mapbuffer (lockId task)).length

/-- The calls of `start` at the other end whose byte has come into `mapbuffer_` here. -/
def deliveredStarts (s : CountedLink) (e : End) (task : Bytes) : Nat :=
  (s.delivered e.other).count (lockId task)

def Tally (s : CountedLink) : Prop :=
  ∀ e, ∃ pend, (s.link.dir e).Tally (s.link.ends e).starts (s.link.ends e.other).stops
    (s.delivered e) pend

variable {s s' : CountedLink}

theorem step_eq_some {a : LinkAct} (h : s.step a = some s') :
    s.link.exec a = .ok s'.link ∧ s'.delivered = fun e => s.delivered e ++ s.delivers a e := by
  unfold step at h
  split at h
  · next l hl =>
    cases h
    exact ⟨hl, rfl⟩
  · cases h

theorem tally_new (h : CountedLink.new = .ok s) : s.Tally := by
  obtain ⟨l, hl, h⟩ := Exec.bind_eq_ok.mp h
  obtain rfl := Except.ok.inj h
  obtain ⟨d, hd, hl⟩ := Exec.bind_eq_ok.mp hl
  obtain rfl := Except.ok.inj hl
  exact fun e => ⟨[], Direction.tally_new hd⟩

/-! ### The steps -/

/-- A step in one direction. -/
theorem Tally.setDir (h : s.Tally) {e : End} {d : Direction} {new : End → List Bytes}
    (hd : ∃ pend, d.Tally (s.link.ends e).starts (s.link.ends e.other).stops
      (s.delivered e ++ new e) pend)
    (hnew : ∀ e', e' ≠ e → new e' = []) :
    Tally { link := s.link.setDir e d, delivered := fun e => s.delivered e ++ new e } := by
  intro e'
  rcases eq_or_ne e' e with rfl | he
  · simpa using hd
  · obtain ⟨pend, h⟩ := h e'
    refine ⟨pend, ?_⟩
    simpa [Link.setDir_dir_ne he, hnew e' he] using h

/-- A task goes on without a lock byte. -/
theorem Tally.setEnd (h : s.Tally) {e : End} {x : LinkEnd}
    (hstarts : x.starts = (s.link.ends e).starts) (hstops : x.stops = (s.link.ends e).stops) :
    Tally { s with link := s.link.setEnd e x } := by
  intro e'
  obtain ⟨pend, h⟩ := h e'
  refine ⟨pend, ?_⟩
  simpa [Link.starts_setEnd hstarts, Link.stops_setEnd hstops] using h

theorem Tally.start (h : s.Tally) {e : End} {task : Bytes} (hlen : task.length ≤ 249)
    {d : Direction} (hd : (s.link.dir e).exec (.send (lockId task) lockMsg) = .ok d) :
    Tally { s with link := (s.link.setDir e d).setEnd e ((s.link.ends e).start task) } := by
  have hstops : ∀ e', ((((s.link.setDir e d).setEnd e ((s.link.ends e).start task)).ends e').stops
      = (s.link.ends e').stops) := Link.stops_setEnd (l := s.link.setDir e d) rfl
  intro e'
  obtain ⟨pend, h⟩ := h e'
  rcases eq_or_ne e' e with rfl | he
  · obtain ⟨p, h'⟩ := h.start hlen hd
    refine ⟨pend ++ [p], ?_⟩
    simpa [hstops, LinkEnd.starts_start] using h'
  · refine ⟨pend, ?_⟩
    simpa [hstops, Link.setDir_dir_ne he, Link.setEnd_ends_ne he] using h

theorem Tally.lockRecv (h : s.Tally) {e : End} {task : Bytes} {d : Direction}
    (hd : (s.link.dir e.other).exec (.recv (lockCall task)) = .ok d) :
    Tally { s with
      link := (s.link.setDir e.other d).setEnd e ((s.link.ends e).release task) } := by
  have hstarts : ∀ e',
      ((((s.link.setDir e.other d).setEnd e ((s.link.ends e).release task)).ends e').starts
        = (s.link.ends e').starts) := Link.starts_setEnd (l := s.link.setDir e.other d) rfl
  intro e'
  obtain ⟨pend, h⟩ := h e'
  refine ⟨pend, ?_⟩
  rcases eq_or_ne e' e.other with rfl | he
  · rw [End.other_other] at h
    simpa [hstarts, End.other_other, LinkEnd.stops_release] using h.lockRecv hd
  · have hother : e'.other ≠ e := fun ho => he (by rw [← ho, End.other_other])
    simpa [hstarts, Link.setDir_dir_ne he, Link.setEnd_ends_ne hother] using h

/-- **Every step keeps the count**, also with messages that cannot be read back. -/
theorem tally_step {a : LinkAct} (h : s.Tally) (ha : a.LocksApart) (hs : s.step a = some s') :
    s'.Tally := by
  obtain ⟨hl, hdelivered⟩ := step_eq_some hs
  obtain ⟨l', delivered'⟩ := s'
  simp only at hl hdelivered
  subst hdelivered
  cases Link.does_of_exec hl with
  | start _ _ hd => simpa [delivers] using h.start ha hd
  | @registered e task _ =>
    simpa [delivers] using h.setEnd (e := e) (x := (s.link.ends e).registered task) rfl rfl
  | @stop e task _ _ =>
    simpa [delivers] using h.setEnd (e := e) (x := (s.link.ends e).stop task) rfl rfl
  | lockRecv _ hd => simpa [delivers] using h.lockRecv hd
  | @doStop e task _ _ _ =>
    simpa [delivers] using h.setEnd (e := e) (x := (s.link.ends e).finish task) rfl rfl
  | @send e id data d hd =>
    refine h.setDir ?_ fun _ _ => rfl
    obtain ⟨pend, h⟩ := h e
    obtain ⟨p, h'⟩ := h.send ha hd
    exact ⟨pend ++ [p], by simpa [delivers] using h'⟩
  | @recv e call d hd =>
    refine h.setDir ?_ fun _ _ => rfl
    obtain ⟨pend, h⟩ := h e.other
    exact ⟨pend, by simpa [delivers] using h.recv ha hd⟩
  | @net e a d hmay hd =>
    refine h.setDir ?_ fun e' he => if_neg he
    obtain ⟨pend, h⟩ := h e
    obtain ⟨pend', h'⟩ := h.internal (Link.isInternal_of_mayStep hmay) hd
    exact ⟨pend', by simpa [delivers] using h'⟩

/-! ### What is received -/

theorem stops_of_lockRecv {e : End} {task : Bytes} (hs : s.step (.lockRecv e task) = some s')
    (e' : End) (task' : Bytes) : (s'.link.ends e').stops task'
      = (s.link.ends e').stops task' + if e = e' ∧ task = task' then 1 else 0 := by
  obtain ⟨hl, -⟩ := step_eq_some hs
  generalize s'.link = l' at hl ⊢
  cases Link.does_of_exec hl with
  | lockRecv =>
    rcases eq_or_ne e' e with rfl | he
    · rcases eq_or_ne task' task with rfl | ht
      · simp [LinkEnd.stops_release]
      · simp [LinkEnd.stops_release, ht, ht.symm]
    · simp [Link.setEnd_ends_ne he, he.symm]

/-- Nothing but the wait in `stop` counts as a byte received. -/
theorem stops_of_step {a : LinkAct} (hs : s.step a = some s') {e : End} {task : Bytes}
    (ha : a ≠ .lockRecv e task) : (s'.link.ends e).stops task = (s.link.ends e).stops task := by
  obtain ⟨hl, -⟩ := step_eq_some hs
  generalize s'.link = l' at hl ⊢
  cases Link.does_of_exec hl with
  | @start e' task' d =>
    refine congrFun (Link.stops_setEnd (l := s.link.setDir e' d) ?_ e) task
    rfl
  | registered | stop | doStop =>
    refine congrFun (Link.stops_setEnd ?_ e) task
    rfl
  | @lockRecv e' task' =>
    rcases eq_or_ne e e' with rfl | he
    · have ht : task ≠ task' := by
        rintro rfl
        exact ha rfl
      simp [LinkEnd.stops_release, ht]
    · simp [Link.setEnd_ends_ne he]
  | send | recv | net => rfl

theorem deliveredStarts_of_step {a : LinkAct} (hs : s.step a = some s') (e : End) (task : Bytes) :
    s'.deliveredStarts e task
      = s.deliveredStarts e task + (s.delivers a e.other).count (lockId task) := by
  obtain ⟨-, hdelivered⟩ := step_eq_some hs
  rw [deliveredStarts, hdelivered, List.count_append]
  rfl

theorem Tally.unread (h : s.Tally) (e : End) (task : Bytes) :
    s.unread e task + (s.link.ends e).stops task = s.deliveredStarts e task := by
  obtain ⟨pend, h⟩ := h e.other
  have hunread := h.unread task
  rw [End.other_other] at hunread
  exact hunread

theorem Tally.deliveredStarts_le (h : s.Tally) (e : End) (task : Bytes) :
    s.deliveredStarts e task ≤ (s.link.ends e.other).starts task := by
  obtain ⟨pend, h⟩ := h e.other
  rw [h.started]
  exact Nat.le_add_right _ _

/-- **The unread lock bytes of a task get fewer by its own `stop`, and by nothing else.** -/
theorem Tally.consumed (h : s.Tally) {a : LinkAct} (ha : a.LocksApart) (hs : s.step a = some s')
    (e : End) (task : Bytes) : s'.unread e task < s.unread e task ↔ a = .lockRecv e task := by
  have hold := h.unread e task
  have hnew := (tally_step h ha hs).unread e task
  have hdelivered := deliveredStarts_of_step hs e task
  constructor
  · intro hlt
    by_contra hne
    have hstops := stops_of_step hs hne
    omega
  · rintro rfl
    have hstops := stops_of_lockRecv hs e task
    simp only [delivers, List.count_nil, and_self, if_true] at hdelivered hstops
    omega

/-- What an end can rely on, for one task. -/
structure Handshake (s : CountedLink) (e : End) (task : Bytes) : Prop where
  /-- no more waits have ended than there were calls of `start` at the other end -/
  returned : (s.link.ends e).stops task ≤ (s.link.ends e.other).starts task
  unread : s.unread e task = s.deliveredStarts e task - (s.link.ends e).stops task
  /-- of the calls of `start` at the other end, those whose byte has come are at least as many as
  the waits that have ended -/
  delivered : (s.link.ends e).stops task ≤ s.deliveredStarts e task ∧
    s.deliveredStarts e task ≤ (s.link.ends e.other).starts task
  consumed : ∀ a s', a.LocksApart → s.step a = some s' →
    (s'.unread e task < s.unread e task ↔ a = .lockRecv e task)

/-- **The lock handshake is safe.** In every state that calls of `start` and `stop` and messages
with other ids can reach, the `k`-th wait of a task has ended only after the `k`-th call of `start`
at the other end, and its byte was for this task. -/
theorem lock_handshake {s₀ : CountedLink} {acts : List LinkAct} (hnew : CountedLink.new = .ok s₀)
    (hacts : ∀ a ∈ acts, a.LocksApart) (hrun : run step s₀ acts = some s) (e : End)
    (task : Bytes) : s.Handshake e task := by
  have h : s.Tally := run_invariant_of (fun _ _ _ => tally_step) (tally_new hnew)
    (allSteps_of_forall hacts s₀) hrun
  have hunread := h.unread e task
  have hle := h.deliveredStarts_le e task
  refine ⟨by omega, by omega, ⟨by omega, hle⟩, ?_⟩
  intro a s' ha hs
  exact h.consumed ha hs e task

/-- Both ends start `"A"`, and the wait in `stop` ends at `P`. -/
theorem lock_handshake_small : ∃ s₀ acts s, CountedLink.new = .ok s₀ ∧
    (∀ a ∈ acts, LinkAct.LocksApart a) ∧ run step s₀ acts = some s ∧
    ((s.link.ends .P).stops [65] = 1 ∧ s.deliveredStarts .P [65] = 1) ∧ s.Handshake .P [65] := by
  obtain ⟨acts, s₀, hnew, hacts, hview⟩ : ∃ acts : List LinkAct, ∃ s₀, CountedLink.new = .ok s₀ ∧
      (∀ a ∈ acts, a.LocksApart) ∧
      (run step s₀ acts).map (fun s => ((s.link.ends .P).stops [65], s.deliveredStarts .P [65]))
        = some (1, 1) :=
    ⟨[.start .P [65], .start .Q [65], .registered .P [65], .net .Q (.sendStart [65]),
      .net .Q .drain, .net .Q .flush, .net .Q (.deliver 16), .net .Q (.recvStart [65]),
      .net .Q .take, .net .Q .store, .stop .P [65], .lockRecv .P [65]],
      _, rfl, by decide, by decide⟩
  obtain ⟨s, hrun, hs⟩ := Option.map_eq_some_iff.mp hview
  exact ⟨s₀, acts, s, hnew, hacts, hrun, Prod.mk.inj hs, lock_handshake hnew hacts hrun .P [65]⟩

end CountedLink

end Rosetta

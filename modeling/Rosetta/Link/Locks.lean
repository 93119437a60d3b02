import Rosetta.Connection.Flow
import Rosetta.Link.Basic

/-!
# The lock bytes

`Locks` ties what the two ends have sent and received under the lock ids to the phases of the tasks.
It holds along every run in which frames can be read back and no message uses the id of a lock byte.
-/

namespace Rosetta

open Lib CycleBuffer

/-! ## Lock ids -/

theorem isLockId_lockId (task : Bytes) : isLockId (lockId task) = true := by
  simp [isLockId, lockId]

theorem ne_lockId {id : Bytes} (h : isLockId id = false) (task : Bytes) : id ≠ lockId task := by
  rintro rfl
  rw [isLockId_lockId] at h
  cases h

theorem End.other_other (e : End) : e.other.other = e := by
  cases e with
  | P => rfl
  | Q => rfl

theorem End.other_ne (e : End) : e.other ≠ e := by
  cases e with
  | P => decide
  | Q => decide

theorem End.eq_of_ne {e e' : End} (h : e ≠ e') : e.other = e' := by
  cases e with
  | P =>
    cases e' with
    | P => exact absurd rfl h
    | Q => rfl
  | Q =>
    cases e' with
    | P => rfl
    | Q => exact absurd rfl h

theorem End.other_injective {e e' : End} (h : e.other = e'.other) : e = e' := by
  rw [← e.other_other, h, e'.other_other]

/-- Lock bytes that the task has still to receive. -/
def Phase.owed : Phase → Nat
  | .out => 0
  | .sent => 1
  | .started => 1
  | .waiting => 1
  | .released => 0

theorem Phase.owed_le_one (ph : Phase) : ph.owed ≤ 1 := by
  cases ph with
  | out | released => exact Nat.zero_le 1
  | sent | started | waiting => exact Nat.le_refl 1

namespace LinkEnd

variable (x : LinkEnd) (task : Bytes)

theorem starts_start :
    (x.start task).starts = Function.update x.starts task (x.starts task + 1) := rfl

theorem stops_start : (x.start task).stops = x.stops := rfl

theorem phase_start : (x.start task).phase = Function.update x.phase task .sent := rfl

theorem starts_release : (x.release task).starts = x.starts := rfl

theorem stops_release :
    (x.release task).stops = Function.update x.stops task (x.stops task + 1) := rfl

theorem phase_release : (x.release task).phase = Function.update x.phase task .released := rfl

theorem phase_stop : (x.stop task).phase = Function.update x.phase task .waiting := rfl

end LinkEnd

/-! ## The invariant -/

namespace Link

structure Locks (l : Link) : Prop where
  flow : ∀ e, ∃ stored hand pend, (l.dir e).Flow stored hand pend
  sent : ∀ e task, dataFor (lockId task) (l.dir e).sent
    = List.replicate ((l.ends e).starts task) 49
  received : ∀ e task, dataFor (lockId task) (l.dir e.other).received
    = List.replicate ((l.ends e).stops task) 49
  phase : ∀ e task, (l.ends e).starts task
    = (l.ends e).stops task + ((l.ends e).phase task).owed
  mutex : ∀ e task, (l.ends e).taskMtx = some task ↔ (l.ends e).phase task = .waiting

variable {l l' : Link}

/-- What an end has received, with the lock bytes that wait for it, the other end has sent. -/
theorem Locks.arrived (h : Locks l) (e : End) (task : Bytes) :
    List.replicate ((l.ends e).stops task) 49 ++ box (l.dir e.other).rcv.mapbuffer (lockId task)
      <+: List.replicate ((l.ends e.other).starts task) 49 := by
  obtain ⟨stored, hand, pend, hflow⟩ := h.flow e.other
  rw [← h.sent, ← h.received]
  exact hflow.initial (lockId task)

theorem Locks.stops_le (h : Locks l) (e : End) (task : Bytes) :
    (l.ends e).stops task ≤ (l.ends e.other).starts task := by
  have hlen := (h.arrived e task).length_le
  rw [List.length_append, List.length_replicate, List.length_replicate] at hlen
  omega

/-- No end is ahead of the other one by more than a call of `start`. -/
theorem Locks.starts_le (h : Locks l) (e : End) (task : Bytes) :
    (l.ends e).starts task ≤ (l.ends e.other).starts task + 1 := by
  have hphase := h.phase e task
  have hstops := h.stops_le e task
  have howed := ((l.ends e).phase task).owed_le_one
  omega

/-! ## What changes a step leaves behind -/

@[simp] theorem setDir_dir (e : End) (d : Direction) : (l.setDir e d).dir e = d := by
  simp [Link.setDir]

theorem setDir_dir_ne {e e' : End} (h : e' ≠ e) (d : Direction) :
    (l.setDir e d).dir e' = l.dir e' := by
  simp [Link.setDir, h]

@[simp] theorem setDir_ends (e : End) (d : Direction) : (l.setDir e d).ends = l.ends := rfl

@[simp] theorem setEnd_ends (e : End) (x : LinkEnd) : (l.setEnd e x).ends e = x := by
  simp [Link.setEnd]

theorem setEnd_ends_ne {e e' : End} (h : e' ≠ e) (x : LinkEnd) :
    (l.setEnd e x).ends e' = l.ends e' := by
  simp [Link.setEnd, h]

@[simp] theorem setEnd_dir (e : End) (x : LinkEnd) : (l.setEnd e x).dir = l.dir := rfl

/-- What relates the old and the new state of the end that changes relates those of both ends. -/
theorem rel_setEnd (R : LinkEnd → LinkEnd → Prop) (hrefl : ∀ x, R x x) {e : End} {x : LinkEnd}
    (h : R (l.ends e) x) (e' : End) : R (l.ends e') ((l.setEnd e x).ends e') := by
  rcases eq_or_ne e' e with rfl | he
  · rw [setEnd_ends]
    exact h
  · rw [setEnd_ends_ne he]
    exact hrefl _

theorem stops_setEnd {e : End} {x : LinkEnd} (h : x.stops = (l.ends e).stops) (e' : End) :
    ((l.setEnd e x).ends e').stops = (l.ends e').stops :=
  rel_setEnd (fun x y => y.stops = x.stops) (fun _ => rfl) h e'

theorem starts_setEnd {e : End} {x : LinkEnd} (h : x.starts = (l.ends e).starts) (e' : End) :
    ((l.setEnd e x).ends e').starts = (l.ends e').starts :=
  rel_setEnd (fun x y => y.starts = x.starts) (fun _ => rfl) h e'

/-- A step in one direction that adds no lock bytes. -/
theorem Locks.setDir (h : Locks l) {e : End} {d : Direction}
    (hflow : ∃ stored hand pend, d.Flow stored hand pend)
    (hsent : ∀ task, dataFor (lockId task) d.sent = dataFor (lockId task) (l.dir e).sent)
    (hreceived : ∀ task, dataFor (lockId task) d.received
      = dataFor (lockId task) (l.dir e).received) : Locks (l.setDir e d) := by
  refine ⟨?_, ?_, ?_, h.phase, h.mutex⟩
  · intro e'
    rcases eq_or_ne e' e with rfl | he
    · rw [setDir_dir]
      exact hflow
    · rw [setDir_dir_ne he]
      exact h.flow e'
  · intro e' task
    rcases eq_or_ne e' e with rfl | he
    · rw [setDir_dir, hsent]
      exact h.sent e' task
    · rw [setDir_dir_ne he]
      exact h.sent e' task
  · intro e' task
    rcases eq_or_ne e'.other e with rfl | he
    · rw [setDir_dir, hreceived]
      exact h.received e' task
    · rw [setDir_dir_ne he]
      exact h.received e' task

/-- A task of one end goes on without a lock byte. -/
theorem Locks.setEnd (h : Locks l) {e : End} {x : LinkEnd} (hstarts : x.starts = (l.ends e).starts)
    (hstops : x.stops = (l.ends e).stops)
    (howed : ∀ task, (x.phase task).owed = ((l.ends e).phase task).owed)
    (hmutex : ∀ task, x.taskMtx = some task ↔ x.phase task = .waiting) : Locks (l.setEnd e x) := by
  refine ⟨h.flow, ?_, ?_, ?_, ?_⟩
  · intro e' task
    rw [starts_setEnd hstarts]
    exact h.sent e' task
  · intro e' task
    rw [stops_setEnd hstops]
    exact h.received e' task
  · intro e' task
    rw [starts_setEnd hstarts, stops_setEnd hstops, h.phase]
    rcases eq_or_ne e' e with rfl | he
    · rw [setEnd_ends, howed]
    · rw [setEnd_ends_ne he]
  · intro e' task
    rcases eq_or_ne e' e with rfl | he
    · rw [setEnd_ends]
      exact hmutex task
    · rw [setEnd_ends_ne he]
      exact h.mutex e' task

/-! ## The steps -/

/-- A task that does not wait, before and after, leaves the mutex to the others. -/
theorem mutex_update {x : LinkEnd} {task : Bytes} {ph : Phase}
    (h : ∀ task, x.taskMtx = some task ↔ x.phase task = .waiting) (hold : x.phase task ≠ .waiting)
    (hnew : ph ≠ .waiting) (task' : Bytes) :
    x.taskMtx = some task' ↔ Function.update x.phase task ph task' = .waiting := by
  revert task'
  rw [Function.forall_update_iff x.phase fun t ph => x.taskMtx = some t ↔ ph = .waiting]
  exact ⟨iff_of_false (fun hm => hold ((h task).mp hm)) hnew, fun task' _ => h task'⟩

theorem owed_update {f : Bytes → Phase} {task : Bytes} {ph : Phase} (h : ph.owed = (f task).owed)
    (task' : Bytes) : (Function.update f task ph task').owed = (f task').owed := by
  revert task'
  rw [Function.forall_update_iff f fun t ph => ph.owed = (f t).owed]
  exact ⟨h, fun _ _ => rfl⟩

/-- A call of `send` or `recv` adds one line to one log. -/
theorem sent_of_send {d d' : Direction} {id data : Bytes} (h : d.exec (.send id data) = .ok d') :
    d'.sent = d.sent ++ [(id, data)] ∧ d'.received = d.received := by
  obtain ⟨s, -, h⟩ := Exec.bind_eq_ok.mp h
  obtain rfl := Except.ok.inj h
  exact ⟨rfl, rfl⟩

theorem received_of_recv {d d' : Direction} {call : RecvCall} (h : d.exec (.recv call) = .ok d') :
    d'.sent = d.sent ∧ ∃ data, d'.received = d.received ++ [(call.id, data)] := by
  obtain ⟨⟨ret, data, r⟩, -, h⟩ := Exec.bind_eq_ok.mp h
  obtain rfl := Except.ok.inj h
  exact ⟨rfl, data, rfl⟩

/-- `recv` in `stop` never times out and never finds the connection lost: it returns one byte. -/
theorem length_of_lockCall {r r' : RecvHalf} {task data : Bytes} {ret : Int}
    (hm : BoxInv r.mapbuffer) (h : r.recv (lockCall task) = .ok (ret, data, r')) :
    data.length = 1 := by
  simp only [RecvHalf.recv] at h
  generalize htimeout : (if (lockCall task).timeout < 0 then 1000 * 1000000
    else (lockCall task).timeout) = timeout at h
  split at h
  · next hconn => simp [lockCall] at hconn
  · split at h
    · next hlate =>
      subst htimeout
      simp [lockCall] at hlate
    · split at h
      · next b hb =>
        split at h
        · next hcan =>
          have hlen : 1 ≤ b.size := of_decide_eq_true hcan
          have hone : (b.contents.take 1).length = 1 := by
            rw [List.length_take, length_contents]
            omega
          rw [lockCall, read_eq (hm _ b hb) hlen, Exec.ok_bind] at h
          obtain ⟨-, h⟩ := Prod.mk.inj (Except.ok.inj h)
          obtain ⟨rfl, -⟩ := Prod.mk.inj h
          exact hone
        · cases h
      · cases h

theorem lockByte_of_recv {d d' : Direction} {stored hand pend : List Frame} {task : Bytes} {n : Nat}
    (h : d.Flow stored hand pend) (hd : d.exec (.recv (lockCall task)) = .ok d')
    (hsent : dataFor (lockId task) d.sent = List.replicate n 49) :
    d'.sent = d.sent ∧ d'.received = d.received ++ [(lockId task, [49])] := by
  obtain ⟨⟨ret, data, r⟩, hr, hd⟩ := Exec.bind_eq_ok.mp hd
  obtain rfl := Except.ok.inj hd
  have hlen := length_of_lockCall h.boxInv hr
  obtain ⟨-, hbox, -⟩ := RecvHalf.recv_ok h.boxInv hr
  have hinitial := h.initial (lockId task)
  obtain ⟨x, rfl⟩ := List.length_eq_one_iff.mp hlen
  have hmem : x ∈ List.replicate n (49 : UInt8) := by
    rw [← hsent]
    refine hinitial.subset (List.mem_append_right _ ?_)
    exact hbox ▸ List.mem_append_left _ List.mem_cons_self
  obtain rfl := List.eq_of_mem_replicate hmem
  exact ⟨rfl, rfl⟩

theorem Locks.start (h : Locks l) {e : End} {task : Bytes} (hlen : task.length ≤ 249)
    (hl : l.exec (.start e task) = .ok l') : Locks l' := by
  cases does_of_exec hl with
  | @start e task d hout hmtx hd =>
    obtain ⟨stored, hand, pend, hflow⟩ := h.flow e
    have hid := length_lockId task
    obtain ⟨f, -, -, hflow'⟩ := hflow.send (by omega) (Or.inl (lockId_ne_nil task)) hd
    obtain ⟨hsent, hreceived⟩ := sent_of_send hd
    have hstops : ∀ e', ((((l.setDir e d).setEnd e ((l.ends e).start task)).ends e').stops
        = (l.ends e').stops) := stops_setEnd (l := l.setDir e d) rfl
    constructor
    case flow =>
      intro e'
      rw [setEnd_dir]
      rcases eq_or_ne e' e with rfl | he
      · rw [setDir_dir]
        exact ⟨stored, hand, pend ++ [f], hflow'⟩
      · rw [setDir_dir_ne he]
        exact h.flow e'
    case sent =>
      intro e' task'
      rw [setEnd_dir]
      rcases eq_or_ne e' e with rfl | he
      · rw [setDir_dir, setEnd_ends, hsent, LinkEnd.starts_start]
        rcases eq_or_ne task' task with rfl | ht
        · rw [Function.update_self, dataFor_concat_self, h.sent, List.replicate_succ']
          rfl
        · rw [Function.update_of_ne ht,
            dataFor_concat_ne (fun hi => ht (lockId_injective hi).symm), h.sent]
      · rw [setDir_dir_ne he, setEnd_ends_ne he]
        exact h.sent e' task'
    case received =>
      intro e' task'
      rw [hstops, setEnd_dir, ← h.received]
      rcases eq_or_ne e'.other e with rfl | he
      · rw [setDir_dir, hreceived]
      · rw [setDir_dir_ne he]
    case phase =>
      intro e' task'
      rcases eq_or_ne e' e with rfl | he
      · have hphase := h.phase e' task'
        rw [setEnd_ends, LinkEnd.starts_start, LinkEnd.stops_start, LinkEnd.phase_start]
        rcases eq_or_ne task' task with rfl | ht
        · rw [hout] at hphase
          rw [Function.update_self, Function.update_self]
          simp only [Phase.owed] at hphase ⊢
          omega
        · rw [Function.update_of_ne ht, Function.update_of_ne ht]
          exact hphase
      · rw [setEnd_ends_ne he]
        exact h.phase e' task'
    case mutex =>
      intro e' task'
      rcases eq_or_ne e' e with rfl | he
      · rw [setEnd_ends]
        exact mutex_update (h.mutex e') (by rw [hout]; decide) (by decide) task'
      · rw [setEnd_ends_ne he]
        exact h.mutex e' task'

/-- The byte that ends the wait in `stop` is one that the other end has sent. -/
theorem Locks.lockRecv (h : Locks l) {e : End} {task : Bytes}
    (hl : l.exec (.lockRecv e task) = .ok l') : Locks l' := by
  cases does_of_exec hl with
  | @lockRecv e task d hwait hd =>
    obtain ⟨stored, hand, pend, hflow⟩ := h.flow e.other
    have hflow' := hflow.recv hd
    obtain ⟨hsent, hreceived⟩ := lockByte_of_recv hflow hd (h.sent e.other task)
    have hstarts : ∀ e', ((((l.setDir e.other d).setEnd e ((l.ends e).release task)).ends e').starts
        = (l.ends e').starts) := starts_setEnd (l := l.setDir e.other d) rfl
    constructor
    case flow =>
      intro e'
      rw [setEnd_dir]
      rcases eq_or_ne e' e.other with rfl | he
      · rw [setDir_dir]
        exact ⟨stored, hand, pend, hflow'⟩
      · rw [setDir_dir_ne he]
        exact h.flow e'
    case sent =>
      intro e' task'
      rw [hstarts, setEnd_dir, ← h.sent]
      rcases eq_or_ne e' e.other with rfl | he
      · rw [setDir_dir, hsent]
      · rw [setDir_dir_ne he]
    case received =>
      intro e' task'
      rw [setEnd_dir]
      rcases eq_or_ne e' e with rfl | he
      · rw [setDir_dir, setEnd_ends, hreceived, LinkEnd.stops_release]
        rcases eq_or_ne task' task with rfl | ht
        · rw [Function.update_self, dataFor_concat_self, h.received, List.replicate_succ']
        · rw [Function.update_of_ne ht,
            dataFor_concat_ne (fun hi => ht (lockId_injective hi).symm), h.received]
      · rw [setDir_dir_ne (fun ho => he (End.other_injective ho)), setEnd_ends_ne he]
        exact h.received e' task'
    case phase =>
      intro e' task'
      rcases eq_or_ne e' e with rfl | he
      · have hphase := h.phase e' task'
        rw [setEnd_ends, LinkEnd.starts_release, LinkEnd.stops_release, LinkEnd.phase_release]
        rcases eq_or_ne task' task with rfl | ht
        · rw [hwait] at hphase
          rw [Function.update_self, Function.update_self]
          simp only [Phase.owed] at hphase ⊢
          omega
        · rw [Function.update_of_ne ht, Function.update_of_ne ht]
          exact hphase
      · rw [setEnd_ends_ne he]
        exact h.phase e' task'
    case mutex =>
      intro e' task'
      rcases eq_or_ne e' e with rfl | he
      · rw [setEnd_ends, LinkEnd.phase_release]
        have hmtx := (h.mutex e' task).mpr hwait
        refine iff_of_false (fun hm => by cases hm) ?_
        rcases eq_or_ne task' task with rfl | ht
        · rw [Function.update_self]
          decide
        · rw [Function.update_of_ne ht]
          intro hw
          -- two waiting tasks would hold the same mutex
          have hmtx' := (h.mutex e' task').mpr hw
          rw [hmtx] at hmtx'
          exact ht (Option.some.inj hmtx').symm
      · rw [setEnd_ends_ne he]
        exact h.mutex e' task'

theorem Locks.registered (h : Locks l) {e : End} {task : Bytes}
    (hl : l.exec (.registered e task) = .ok l') : Locks l' := by
  cases does_of_exec hl with
  | registered hsent =>
    refine h.setEnd rfl rfl (owed_update ?_) (mutex_update (h.mutex e) ?_ (by decide))
    · rw [hsent]
      rfl
    · rw [hsent]
      decide

theorem Locks.stop (h : Locks l) {e : End} {task : Bytes}
    (hl : l.exec (.stop e task) = .ok l') : Locks l' := by
  cases does_of_exec hl with
  | stop hstarted hfree =>
    refine h.setEnd rfl rfl (owed_update ?_) ?_
    · rw [hstarted]
      rfl
    · intro task'
      rw [LinkEnd.phase_stop]
      rcases eq_or_ne task' task with rfl | ht
      · rw [Function.update_self]
        exact iff_of_true rfl rfl
      · rw [Function.update_of_ne ht]
        refine iff_of_false (fun hm => ht (Option.some.inj hm).symm) ?_
        intro hw
        -- the mutex was free, so no task was waiting
        have hm := (h.mutex e task').mpr hw
        rw [hfree] at hm
        cases hm

theorem Locks.doStop (h : Locks l) {e : End} {task : Bytes}
    (hl : l.exec (.doStop e task) = .ok l') : Locks l' := by
  cases does_of_exec hl with
  | doStop hreleased hsnd hrcv =>
    refine h.setEnd rfl rfl (owed_update ?_) (mutex_update (h.mutex e) ?_ (by decide))
    · rw [hreleased]
      rfl
    · rw [hreleased]
      decide

theorem Locks.send (h : Locks l) {e : End} {id data : Bytes}
    (hplain : LinkAct.Plain (.send e id data)) (hl : l.exec (.send e id data) = .ok l') :
    Locks l' := by
  obtain ⟨hid, hsendable⟩ := hplain
  obtain ⟨d, hd, hl⟩ := Exec.bind_eq_ok.mp hl
  obtain rfl := Except.ok.inj hl
  obtain ⟨hsent, hreceived⟩ := sent_of_send hd
  refine h.setDir (Direction.flow_step _ (.send id data) _ (h.flow e) hsendable ?_) ?_ ?_
  · exact Exec.toOption_eq_some.mpr hd
  · intro task
    rw [hsent, dataFor_concat_ne (ne_lockId hid task)]
  · intro task
    rw [hreceived]

theorem Locks.recv (h : Locks l) {e : End} {call : RecvCall} (hid : isLockId call.id = false)
    (hl : l.exec (.recv e call) = .ok l') : Locks l' := by
  obtain ⟨d, hd, hl⟩ := Exec.bind_eq_ok.mp hl
  obtain rfl := Except.ok.inj hl
  obtain ⟨hsent, data, hreceived⟩ := received_of_recv hd
  refine h.setDir (Direction.flow_step _ (.recv call) _ (h.flow e.other) trivial ?_) ?_ ?_
  · exact Exec.toOption_eq_some.mpr hd
  · intro task
    rw [hsent]
  · intro task
    rw [hreceived, dataFor_concat_ne (ne_lockId hid task)]

theorem isInternal_of_mayStep {e : End} {a : DirAct} (h : l.mayStep e a = true) :
    a.isInternal = true := by
  cases a with
  | send id data => cases h
  | recv call => cases h
  | sendStart _ | sendStop | drain | flush | deliver _ | recvStart _ | recvStop | take | store =>
    rfl

theorem sendable_of_isInternal {a : DirAct} (h : a.isInternal = true) : a.Sendable := by
  cases a with
  | send id data => cases h
  | recv _ | sendStart _ | sendStop | drain | flush | deliver _ | recvStart _ | recvStop | take
  | store => trivial

theorem Locks.net (h : Locks l) {e : End} {a : DirAct} (hl : l.exec (.net e a) = .ok l') :
    Locks l' := by
  cases does_of_exec hl with
  | net hmay hd =>
    have hinternal := isInternal_of_mayStep hmay
    obtain ⟨hsent, hreceived⟩ := Direction.logs_of_internal hinternal hd
    refine h.setDir (Direction.flow_step _ a _ (h.flow e) (sendable_of_isInternal hinternal) ?_) ?_ ?_
    · exact Exec.toOption_eq_some.mpr hd
    · intro task
      rw [hsent]
    · intro task
      rw [hreceived]

/-- **Every step keeps the count of the lock bytes.** -/
theorem locks_step {a : LinkAct} (h : Locks l) (ha : a.Plain) (hl : l.exec a = .ok l') :
    Locks l' := by
  cases a with
  | start e task => exact h.start ha hl
  | registered e task => exact h.registered hl
  | stop e task => exact h.stop hl
  | lockRecv e task => exact h.lockRecv hl
  | doStop e task => exact h.doStop hl
  | send e id data => exact h.send ha hl
  | recv e call => exact h.recv ha hl
  | net e a => exact h.net hl

theorem locks_new (h : Link.new = .ok l) : Locks l := by
  obtain ⟨d, hd, h⟩ := Exec.bind_eq_ok.mp h
  obtain rfl := Except.ok.inj h
  have hfresh := Direction.fresh_new hd
  constructor
  case flow =>
    intro e
    exact ⟨[], [], [], Direction.flow_new hd⟩
  case sent =>
    intro e task
    show dataFor _ d.sent = _
    rw [hfresh.sent]
    rfl
  case received =>
    intro e task
    show dataFor _ d.received = _
    rw [hfresh.received]
    rfl
  case phase =>
    intro e task
    rfl
  case mutex =>
    intro e task
    constructor
    · rintro ⟨⟩
    · rintro ⟨⟩

end Link

end Rosetta

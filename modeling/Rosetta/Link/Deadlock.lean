import Rosetta.Connection.Progress
import Rosetta.Link.Locks

/-!
# `start` and `stop` wait for each other

`stop` holds `task_mtx_` while it waits for the lock byte of the other end, and `start` needs
`task_mtx_` there to send it. Two calls of `stop`, one at each end, block each other for good when
each waits for a task that the other end has not started (`Crossed`).

* `Handshake` — what holds in a run in which every task calls `start` and `stop` once at both ends
* `handshake_not_stuck` — as long as no two calls of `stop` cross, some step is possible
* `crossed_run` — two calls that have crossed do not return any more
-/

namespace Rosetta

open Lib CycleBuffer

/-! ## Steps of one direction -/

namespace Direction

variable {d d' : Direction}

theorem task_of_loopSendTake {s s' : SendHalf} (h : s.loopSendTake = .ok s') :
    s'.loop.task = s.loop.task := by
  unfold SendHalf.loopSendTake at h
  split at h
  · next task hloop =>
    split at h
    · obtain ⟨u, -, h⟩ := Exec.bind_eq_ok.mp h
      obtain ⟨⟨data, b⟩, -, h⟩ := Exec.bind_eq_ok.mp h
      obtain rfl := Except.ok.inj h
      rw [hloop]
      rfl
    · cases h
  · cases h

theorem task_of_loopRecvTake {r r' : RecvHalf} (h : r.loopRecvTake = .ok r') :
    r'.loop.task = r.loop.task := by
  obtain ⟨task, f, hloop, -, -, rfl⟩ := RecvHalf.loopRecvTake_read h
  rw [hloop]
  rfl

theorem task_of_loopRecvStore {r r' : RecvHalf} (h : r.loopRecvStore = .ok r') :
    r'.loop.task = r.loop.task := by
  obtain ⟨task, id, data, m, hloop, -, rfl⟩ := RecvHalf.loopRecvStore_store h
  rw [hloop]
  rfl

/-- The steps of the loops and of the socket leave the loops to the tasks that run them. -/
theorem task_of_isNet {a : DirAct} (ha : a.isNet = true) (h : d.exec a = .ok d') :
    d'.snd.loop.task = d.snd.loop.task ∧ d'.rcv.loop.task = d.rcv.loop.task := by
  cases a with
  | drain =>
    obtain ⟨s, hs, h⟩ := Exec.bind_eq_ok.mp h
    obtain rfl := Except.ok.inj h
    exact ⟨task_of_loopSendTake hs, rfl⟩
  | flush =>
    obtain ⟨⟨data, s⟩, hs, h⟩ := Exec.bind_eq_ok.mp h
    obtain rfl := Except.ok.inj h
    obtain ⟨task, hbusy, rfl⟩ := SendHalf.loopSendWrite_ok hs
    rw [hbusy]
    exact ⟨rfl, rfl⟩
  | deliver k =>
    rw [exec] at h
    split at h
    · obtain ⟨u, -, h⟩ := Exec.bind_eq_ok.mp h
      obtain ⟨r, hr, h⟩ := Exec.bind_eq_ok.mp h
      obtain rfl := Except.ok.inj h
      obtain ⟨b, -, hr⟩ := Exec.bind_eq_ok.mp hr
      obtain rfl := Except.ok.inj hr
      exact ⟨rfl, rfl⟩
    · cases h
  | take =>
    obtain ⟨r, hr, h⟩ := Exec.bind_eq_ok.mp h
    obtain rfl := Except.ok.inj h
    exact ⟨rfl, task_of_loopRecvTake hr⟩
  | store =>
    obtain ⟨r, hr, h⟩ := Exec.bind_eq_ok.mp h
    obtain rfl := Except.ok.inj h
    exact ⟨rfl, task_of_loopRecvStore hr⟩
  | send _ _ | recv _ | sendStart _ | sendStop | recvStart _ | recvStop => cases ha

theorem task_of_send {id data : Bytes} (h : d.exec (.send id data) = .ok d') :
    d'.snd.loop.task = d.snd.loop.task ∧ d'.rcv.loop.task = d.rcv.loop.task := by
  obtain ⟨s, hs, h⟩ := Exec.bind_eq_ok.mp h
  obtain rfl := Except.ok.inj h
  obtain ⟨buf, -, hs⟩ := Exec.bind_eq_ok.mp hs
  obtain ⟨b, -, hs⟩ := Exec.bind_eq_ok.mp hs
  obtain rfl := Except.ok.inj hs
  exact ⟨rfl, rfl⟩

theorem task_of_recv (hm : BoxInv d.rcv.mapbuffer) {call : RecvCall}
    (h : d.exec (.recv call) = .ok d') :
    d'.snd.loop.task = d.snd.loop.task ∧ d'.rcv.loop.task = d.rcv.loop.task := by
  obtain ⟨⟨ret, data, r⟩, hr, h⟩ := Exec.bind_eq_ok.mp h
  obtain rfl := Except.ok.inj h
  obtain ⟨-, -, -, hr⟩ := RecvHalf.recv_ok hm hr
  rw [hr]
  exact ⟨rfl, rfl⟩

end Direction

namespace Link

/-- The steps when each of `tasks` calls `start` and then `stop` once at both ends. Nobody starts or
ends a loop: the workers keep running. -/
def takesPart (tasks : List Bytes) (l : Link) : LinkAct → Bool
  | .start e task => tasks.contains task && (l.ends e).starts task = 0
  | .registered _ _ | .stop _ _ | .lockRecv _ _ | .doStop _ _ => true
  | .send _ _ _ | .recv _ _ => false
  | .net _ a => a.isNet

def handshake (tasks : List Bytes) (l : Link) (a : LinkAct) : Option Link :=
  if l.takesPart tasks a then (l.exec a).toOption else none

/-- `worker` runs a loop of the direction at each end. -/
def setWorker (worker : Bytes) (d : Direction) : Direction :=
  { d with
    snd := { d.snd with loop := .wait worker }
    rcv := { d.rcv with loop := .wait worker } }

def working (worker : Bytes) : Exec Link := do
  let l ← Link.new
  .ok { l with dir := fun e => setWorker worker (l.dir e) }

/-- Both calls of the task have returned. -/
def Done (l : Link) (e : End) (task : Bytes) : Prop :=
  (l.ends e).phase task = .out ∧ (l.ends e).starts task = 1

/-- Some call has not returned, and no step is possible. -/
def Stuck (tasks : List Bytes) (l : Link) : Prop :=
  (∃ e, ∃ task ∈ tasks, ¬ l.Done e task) ∧ ∀ a, handshake tasks l a = none

/-- At each end a call of `stop` holds the mutex and waits for a task the other end has not
started. -/
def Crossed (l : Link) : Prop :=
  ∀ e, ∃ task, (l.ends e).taskMtx = some task ∧ (l.ends e.other).starts task = 0

/-- `stop` does not begin to wait for a task that the other end has not started while that end
itself waits for one that this end has not started. -/
def InOrder (l : Link) : LinkAct → Prop
  | .stop e task => (l.ends e.other).starts task = 0 →
      ∀ task' ∈ (l.ends e.other).taskMtx, (l.ends e).starts task' ≠ 0
  | _ => True

instance (l : Link) : DecidablePred l.InOrder
  | .stop _ _ => inferInstanceAs (Decidable (_ → _))
  | .start _ _ | .registered _ _ | .lockRecv _ _ | .doStop _ _ | .send _ _ _ | .recv _ _
  | .net _ _ => isTrue trivial

/-! ## The invariant -/

/-- The calls are those of `tasks`, and `worker` runs all loops. -/
structure Calls (tasks : List Bytes) (worker : Bytes) (l : Link) : Prop where
  sendLoop : ∀ e, (l.dir e).snd.loop.task = some worker
  recvLoop : ∀ e, (l.dir e).rcv.loop.task = some worker
  sent : ∀ e, ∀ m ∈ (l.dir e).sent, ∃ task ∈ tasks, m = (lockId task, lockMsg)
  known : ∀ e task, (l.ends e).phase task ≠ .out → task ∈ tasks
  once : ∀ e task, (l.ends e).starts task ≤ 1

structure Handshake (tasks : List Bytes) (worker : Bytes) (l : Link) : Prop where
  locks : l.Locks
  calls : l.Calls tasks worker

variable {tasks : List Bytes} {worker : Bytes} {l l' : Link}

theorem takesPart_start {e : End} {task : Bytes} :
    l.takesPart tasks (.start e task) = true ↔ task ∈ tasks ∧ (l.ends e).starts task = 0 := by
  rw [takesPart, Bool.and_eq_true, List.contains_iff_mem, decide_eq_true_iff]

theorem handshake_eq_some {a : LinkAct} :
    handshake tasks l a = some l' ↔ l.takesPart tasks a = true ∧ l.exec a = .ok l' := by
  rw [handshake]
  split
  · next hpart => rw [Exec.toOption_eq_some, and_iff_right hpart]
  · next hpart =>
    constructor
    · intro h
      cases h
    · intro h
      exact absurd h.1 hpart

/-- What holds of the end that a step changes, and of the others before it, holds of all. -/
theorem forall_setEnd (P : LinkEnd → Prop) {e : End} {x : LinkEnd} (hx : P x)
    (h : ∀ e', P (l.ends e')) (e' : End) : P ((l.setEnd e x).ends e') := by
  rcases eq_or_ne e' e with rfl | he
  · rw [setEnd_ends]
    exact hx
  · rw [setEnd_ends_ne he]
    exact h e'

theorem forall_setDir (P : Direction → Prop) {e : End} {d : Direction} (hd : P d)
    (h : ∀ e', P (l.dir e')) (e' : End) : P ((l.setDir e d).dir e') := by
  rcases eq_or_ne e' e with rfl | he
  · rw [setDir_dir]
    exact hd
  · rw [setDir_dir_ne he]
    exact h e'

theorem Calls.setDir (h : Calls tasks worker l) {e : End} {d : Direction}
    (htask : d.snd.loop.task = (l.dir e).snd.loop.task ∧ d.rcv.loop.task = (l.dir e).rcv.loop.task)
    (hsent : ∀ m ∈ d.sent, m ∈ (l.dir e).sent ∨ ∃ task ∈ tasks, m = (lockId task, lockMsg)) :
    Calls tasks worker (l.setDir e d) := by
  refine ⟨?_, ?_, ?_, h.known, h.once⟩
  · refine forall_setDir (fun d => d.snd.loop.task = some worker) ?_ h.sendLoop
    rw [htask.1]
    exact h.sendLoop e
  · refine forall_setDir (fun d => d.rcv.loop.task = some worker) ?_ h.recvLoop
    rw [htask.2]
    exact h.recvLoop e
  · refine forall_setDir (fun d => ∀ m ∈ d.sent, ∃ task ∈ tasks, m = (lockId task, lockMsg)) ?_
      h.sent
    intro m hm
    rcases hsent m hm with hold | hnew
    · exact h.sent e m hold
    · exact hnew

theorem Calls.setEnd (h : Calls tasks worker l) {e : End} {x : LinkEnd}
    (hknown : ∀ task, x.phase task ≠ .out → task ∈ tasks) (honce : ∀ task, x.starts task ≤ 1) :
    Calls tasks worker (l.setEnd e x) := by
  refine ⟨h.sendLoop, h.recvLoop, h.sent, ?_, ?_⟩
  · exact forall_setEnd (fun x => ∀ task, x.phase task ≠ .out → task ∈ tasks) hknown h.known
  · exact forall_setEnd (fun x => ∀ task, x.starts task ≤ 1) honce h.once

theorem known_update {f : Bytes → Phase} (hf : ∀ task, f task ≠ .out → task ∈ tasks) {task : Bytes}
    (ht : task ∈ tasks) (ph : Phase) (task' : Bytes) :
    Function.update f task ph task' ≠ .out → task' ∈ tasks := by
  revert task'
  rw [Function.forall_update_iff f fun t ph => ph ≠ .out → t ∈ tasks]
  exact ⟨fun _ => ht, fun task' _ => hf task'⟩

/-- Every step of `tasks` keeps the calls in shape. -/
theorem Handshake.calls_step (h : Handshake tasks worker l) {a : LinkAct}
    (hpart : l.takesPart tasks a = true) (hl : l.exec a = .ok l') : Calls tasks worker l' := by
  have hknown : ∀ {e task}, (l.ends e).phase task ≠ .out → task ∈ tasks := h.calls.known _ _
  cases does_of_exec hl with
  | @start e task d hout hmtx hd =>
    obtain ⟨htask, hzero⟩ := takesPart_start.mp hpart
    have hdir : Calls tasks worker (l.setDir e d) := by
      refine h.calls.setDir (Direction.task_of_send hd) ?_
      intro m hm
      rw [(sent_of_send hd).1] at hm
      rcases List.mem_append.mp hm with hold | hnew
      · exact Or.inl hold
      · exact Or.inr ⟨task, htask, List.mem_singleton.mp hnew⟩
    refine hdir.setEnd (known_update (h.calls.known e) htask _) ?_
    intro task'
    rw [LinkEnd.starts_start]
    rcases eq_or_ne task' task with rfl | hne
    · rw [Function.update_self, hzero]
    · rw [Function.update_of_ne hne]
      exact h.calls.once e task'
  | registered hsent =>
    have htask := hknown (by rw [hsent]; decide)
    exact h.calls.setEnd (known_update (h.calls.known _) htask _) (h.calls.once _)
  | stop hstarted hmtx =>
    have htask := hknown (by rw [hstarted]; decide)
    exact h.calls.setEnd (known_update (h.calls.known _) htask _) (h.calls.once _)
  | @lockRecv e task d hwait hd =>
    obtain ⟨stored, hand, pend, hflow⟩ := h.locks.flow e.other
    have htask := hknown (by rw [hwait]; decide)
    have hdir : Calls tasks worker (l.setDir e.other d) := by
      refine h.calls.setDir (Direction.task_of_recv hflow.boxInv hd) ?_
      intro m hm
      rw [(received_of_recv hd).1] at hm
      exact Or.inl hm
    exact hdir.setEnd (known_update (h.calls.known e) htask _) (h.calls.once e)
  | doStop hreleased hsnd hrcv =>
    have htask := hknown (by rw [hreleased]; decide)
    exact h.calls.setEnd (known_update (h.calls.known _) htask _) (h.calls.once _)
  | send hd => cases hpart
  | recv hd => cases hpart
  | net hmay hd =>
    refine h.calls.setDir (Direction.task_of_isNet hpart hd) ?_
    intro m hm
    rw [(Direction.logs_of_internal (isInternal_of_mayStep hmay) hd).1] at hm
    exact Or.inl hm

/-- Task ids that a frame has room for. -/
def Fitting (tasks : List Bytes) : Prop := ∀ task ∈ tasks, task.length ≤ 249

instance : DecidablePred Fitting := fun tasks => inferInstanceAs (Decidable (∀ task ∈ tasks, _))

theorem plain_of_takesPart (hfit : Fitting tasks) {a : LinkAct} (h : l.takesPart tasks a = true) :
    a.Plain := by
  cases a with
  | start e task => exact hfit task (takesPart_start.mp h).1
  | send e id data => cases h
  | recv e call => cases h
  | registered _ _ | stop _ _ | lockRecv _ _ | doStop _ _ | net _ _ => trivial

theorem handshake_step (hfit : Fitting tasks) (l : Link) (a : LinkAct) (l' : Link)
    (h : Handshake tasks worker l) (ha : handshake tasks l a = some l') :
    Handshake tasks worker l' := by
  obtain ⟨hpart, hl⟩ := handshake_eq_some.mp ha
  exact ⟨locks_step h.locks (plain_of_takesPart hfit hpart) hl, h.calls_step hpart hl⟩

theorem handshake_working (h : working worker = .ok l) : Handshake tasks worker l := by
  obtain ⟨l₀, hl₀, h⟩ := Exec.bind_eq_ok.mp h
  obtain rfl := Except.ok.inj h
  have hlocks := locks_new hl₀
  obtain ⟨d, hd, hl₀⟩ := Exec.bind_eq_ok.mp hl₀
  obtain rfl := Except.ok.inj hl₀
  have hfresh := Direction.fresh_new hd
  refine ⟨⟨?_, hlocks.sent, hlocks.received, hlocks.phase, hlocks.mutex⟩, ?_, ?_, ?_, ?_, ?_⟩
  · intro e
    refine ⟨[], [], [], (Direction.flow_new hd).moved ?_⟩
    exact Direction.moved_loops hfresh.sendInv hfresh.recvInv (by rw [hfresh.snd]; rfl)
      (by rw [hfresh.rcv]; rfl)
  · intro e
    rfl
  · intro e
    rfl
  · intro e m hm
    change m ∈ d.sent at hm
    rw [hfresh.sent] at hm
    cases hm
  · intro e task hne
    exact absurd rfl hne
  · intro e task
    exact Nat.zero_le 1

/-! ## Crossed calls -/

/-- No new task holds the mutex, and no start is forgotten. -/
def Kept (x y : LinkEnd) : Prop :=
  (∀ task ∈ y.taskMtx, task ∈ x.taskMtx) ∧ ∀ task, x.starts task ≤ y.starts task

theorem Kept.refl (x : LinkEnd) : Kept x x := ⟨fun _ h => h, fun _ => Nat.le_refl _⟩

theorem kept_setEnd {e : End} {x : LinkEnd} (h : Kept (l.ends e) x) (e' : End) :
    Kept (l.ends e') ((l.setEnd e x).ends e') := rel_setEnd Kept Kept.refl h e'

theorem Crossed.of_kept (h : Crossed l') (hkept : ∀ e, Kept (l.ends e) (l'.ends e)) :
    Crossed l := by
  intro e
  obtain ⟨task, ht, hzero⟩ := h e
  refine ⟨task, (hkept e).1 task ht, ?_⟩
  have hle := (hkept e.other).2 task
  omega

theorem kept_start (x : LinkEnd) (task : Bytes) : Kept x (x.start task) := by
  refine ⟨fun _ h => h, ?_⟩
  intro task'
  rw [LinkEnd.starts_start]
  rcases eq_or_ne task' task with rfl | hne
  · rw [Function.update_self]
    exact Nat.le_succ _
  · rw [Function.update_of_ne hne]

theorem kept_release (x : LinkEnd) (task : Bytes) : Kept x (x.release task) := by
  refine ⟨?_, fun _ => Nat.le_refl _⟩
  rintro task' ⟨⟩

/-- Only a call of `stop` can make two calls cross. -/
theorem not_crossed_step {a : LinkAct} (hcross : ¬ Crossed l) (ha : l.InOrder a)
    (hl : l.exec a = .ok l') : ¬ Crossed l' := by
  intro h
  cases does_of_exec hl with
  | @start e task d hout hmtx hd =>
    exact hcross (h.of_kept (kept_setEnd (l := l.setDir e d) (kept_start _ task)))
  | @stop e task hstarted hmtx =>
    have hstarts : ∀ e', (((l.setEnd e ((l.ends e).stop task)).ends e').starts
        = (l.ends e').starts) := starts_setEnd rfl
    obtain ⟨t, ht, hzero⟩ := h e
    obtain ⟨t', ht', hzero'⟩ := h e.other
    rw [setEnd_ends] at ht
    obtain rfl := Option.some.inj ht
    rw [setEnd_ends_ne (End.other_ne e)] at ht'
    rw [hstarts] at hzero hzero'
    rw [End.other_other] at hzero'
    exact ha hzero t' ht' hzero'
  | @lockRecv e task d hwait hd =>
    exact hcross (h.of_kept (kept_setEnd (l := l.setDir e.other d) (kept_release _ task)))
  | registered | doStop =>
    exact hcross (h.of_kept (kept_setEnd ⟨fun _ h => h, fun _ => Nat.le_refl _⟩))
  | send | recv | net => exact hcross (h.of_kept fun e => Kept.refl _)

theorem not_crossed_working (h : working worker = .ok l) : ¬ Crossed l := by
  intro hcross
  obtain ⟨task, hm, -⟩ := hcross .P
  obtain ⟨l₀, hl₀, h⟩ := Exec.bind_eq_ok.mp h
  obtain rfl := Except.ok.inj h
  obtain ⟨d, -, hl₀⟩ := Exec.bind_eq_ok.mp hl₀
  obtain rfl := Except.ok.inj hl₀
  cases hm

/-! ## Some step is possible -/

section Possible

variable {e : End} {task : Bytes} {stored : List Frame}

theorem handshake_of_exec {a : LinkAct} (hpart : l.takesPart tasks a = true)
    (h : ∃ l', l.exec a = .ok l') : ∃ l', handshake tasks l a = some l' := by
  obtain ⟨l', hl'⟩ := h
  exact ⟨l', handshake_eq_some.mpr ⟨hpart, hl'⟩⟩

theorem can_registered (h : (l.ends e).phase task = .sent) :
    ∃ l', handshake tasks l (.registered e task) = some l' := by
  refine handshake_of_exec rfl ?_
  rw [exec, if_pos h]
  exact ⟨_, rfl⟩

theorem can_stop (h : (l.ends e).phase task = .started) (hfree : (l.ends e).taskMtx = none) :
    ∃ l', handshake tasks l (.stop e task) = some l' := by
  refine handshake_of_exec rfl ?_
  rw [exec, if_pos ⟨h, hfree⟩]
  exact ⟨_, rfl⟩

theorem Handshake.can_doStop (h : Handshake tasks worker l) (hworker : worker ∉ tasks)
    (hreleased : (l.ends e).phase task = .released) :
    ∃ l', handshake tasks l (.doStop e task) = some l' := by
  refine handshake_of_exec rfl ?_
  have hne : some worker ≠ some task := by
    intro heq
    rw [Option.some.inj heq] at hworker
    exact hworker (h.calls.known e task (by rw [hreleased]; decide))
  rw [exec, if_pos ⟨hreleased, by rwa [h.calls.sendLoop], by rwa [h.calls.recvLoop]⟩]
  exact ⟨_, rfl⟩

/-- When every frame has arrived, `send_buffer_` is empty. -/
theorem size_of_quiet {d : Direction} (h : d.Flow stored [] []) : d.snd.sendBuffer.size = 0 := by
  have hpipe := h.pipe
  have hnil := (List.append_eq_nil_iff.mp hpipe).2
  have hsend := (List.append_eq_nil_iff.mp (List.append_eq_nil_iff.mp hnil).2).2
  rw [← length_contents, hsend]
  rfl

theorem Handshake.can_start (hfit : Fitting tasks) (hflow : (l.dir e).Flow stored [] [])
    (ht : task ∈ tasks) (hout : (l.ends e).phase task = .out) (hzero : (l.ends e).starts task = 0)
    (hfree : (l.ends e).taskMtx = none) : ∃ l', handshake tasks l (.start e task) = some l' := by
  refine handshake_of_exec (takesPart_start.mpr ⟨ht, hzero⟩) ?_
  have hempty := size_of_quiet hflow
  have hid := length_lockId task
  have hlen := hfit task ht
  have hsmall : (l.dir e).snd.sendBuffer.size + frameLen (lockId task) lockMsg ≤ 2 ^ 54 := by
    have hmsg : lockMsg.length = 1 := rfl
    unfold frameLen
    omega
  obtain ⟨d, hd⟩ := Direction.exec_send hflow.sendInv hsmall
  rw [exec, if_pos ⟨hout, hfree⟩, hd]
  exact ⟨_, rfl⟩

/-- The lock byte of a task that the other end has started is there. -/
theorem Handshake.can_lockRecv (h : Handshake tasks worker l)
    (hflow : (l.dir e.other).Flow stored [] []) (hwait : (l.ends e).phase task = .waiting)
    (hstarted : (l.ends e.other).starts task ≠ 0) :
    ∃ l', handshake tasks l (.lockRecv e task) = some l' := by
  refine handshake_of_exec rfl ?_
  have harrived := hflow.boxes (lockId task)
  have hsent := hflow.sent
  rw [List.append_nil, List.append_nil] at hsent
  rw [← hsent, h.locks.sent, h.locks.received] at harrived
  have hlen := congrArg List.length harrived
  rw [List.length_append, List.length_replicate, List.length_replicate] at hlen
  have hphase := h.locks.phase e task
  rw [hwait] at hphase
  have hone := h.calls.once e task
  have hbox : 1 ≤ (box (l.dir e.other).rcv.mapbuffer (lockId task)).length := by
    simp only [Phase.owed] at hphase
    omega
  obtain ⟨d, hd⟩ : ∃ d, (l.dir e.other).exec (.recv (lockCall task)) = .ok d :=
    Direction.exec_recv hflow.boxInv Nat.one_pos hbox
  rw [exec, if_pos hwait, hd]
  exact ⟨_, rfl⟩

end Possible

theorem Handshake.message_of_mem (h : Handshake tasks worker l) {e : End}
    {stored hand pend : List Frame} (hflow : (l.dir e).Flow stored hand pend) {f : Frame}
    (hf : f ∈ hand ++ pend) : ∃ task ∈ tasks, f.id = lockId task ∧ f.data = lockMsg := by
  have hmem : f.message ∈ (l.dir e).sent := by
    rw [hflow.sent, List.append_assoc]
    exact List.mem_map_of_mem (List.mem_append_right _ hf)
  obtain ⟨task, ht, hmsg⟩ := h.calls.sent e _ hmem
  obtain ⟨hid, hdata⟩ := Prod.mk.inj hmsg
  exact ⟨task, ht, hid, hdata⟩

/-- A frame on its way can go on. -/
theorem Handshake.can_net (hfit : Fitting tasks) (h : Handshake tasks worker l) {e : End}
    {stored hand pend : List Frame} (hflow : (l.dir e).Flow stored hand pend)
    (hne : hand ≠ [] ∨ pend ≠ []) : ∃ a l', handshake tasks l a = some l' := by
  have hsnd : (l.dir e).snd.loop ≠ .idle := by
    intro hidle
    have hloop := h.calls.sendLoop e
    rw [hidle] at hloop
    cases hloop
  have hrcv : (l.dir e).rcv.loop ≠ .idle := by
    intro hidle
    have hloop := h.calls.recvLoop e
    rw [hidle] at hloop
    cases hloop
  have hsmall : ∀ f ∈ hand ++ pend, f.len ≤ 2 ^ 53 := by
    intro f hf
    obtain ⟨task, ht, hid, hdata⟩ := h.message_of_mem hflow hf
    have hlen := hfit task ht
    have hlock := length_lockId task
    have hmsg : lockMsg.length = 1 := rfl
    unfold Frame.len frameLen
    rw [hid, hdata]
    omega
  have hbox : ∀ f ∈ hand, (box (l.dir e).rcv.mapbuffer f.id).length ≤ 2 ^ 53 := by
    intro f hf
    obtain ⟨task, -, hid, -⟩ := h.message_of_mem hflow (List.mem_append_left _ hf)
    have harrived := (h.locks.arrived e.other task).length_le
    have hone := h.calls.once e task
    rw [End.other_other, List.length_append, List.length_replicate, List.length_replicate]
      at harrived
    rw [hid]
    omega
  obtain ⟨a, d, hnet, hd⟩ := hflow.progress hsnd hrcv hne hsmall hbox
  have hmay : l.mayStep e a = true := by
    cases a with
    | drain | flush | deliver _ | take | store => rfl
    | send _ _ | recv _ | sendStart _ | sendStop | recvStart _ | recvStop => cases hnet
  refine ⟨.net e a, handshake_of_exec hnet ?_⟩
  rw [exec, if_pos hmay, hd]
  exact ⟨_, rfl⟩

/-- **As long as no calls have crossed, some step is possible until all calls have returned.** -/
theorem Handshake.not_stuck (hfit : Fitting tasks) (hworker : worker ∉ tasks)
    (h : Handshake tasks worker l) (hcross : ¬ Crossed l) : ¬ Stuck tasks l := by
  rintro ⟨⟨e, task, ht, hnot⟩, hstuck⟩
  have hno : ∀ {a}, ¬ ∃ l', handshake tasks l a = some l' := by
    rintro a ⟨l', hl'⟩
    rw [hstuck a] at hl'
    cases hl'
  -- nothing is on its way any more
  have hquiet : ∀ e, ∃ stored, (l.dir e).Flow stored [] [] := by
    intro e
    obtain ⟨stored, hand, pend, hflow⟩ := h.locks.flow e
    have hnone : ¬ (hand ≠ [] ∨ pend ≠ []) := by
      intro hne
      obtain ⟨a, hl'⟩ := h.can_net hfit hflow hne
      exact hno hl'
    rw [not_or, not_not, not_not] at hnone
    obtain ⟨rfl, rfl⟩ := hnone
    exact ⟨stored, hflow⟩
  have hsent : ∀ e task, (l.ends e).phase task ≠ .sent := fun e task hp => hno (can_registered hp)
  have hreleased : ∀ e task, (l.ends e).phase task ≠ .released := fun e task hp =>
    hno (h.can_doStop hworker hp)
  have hout : ∀ {e task}, (l.ends e).starts task = 0 → (l.ends e).phase task = .out := by
    intro e task hzero
    have hphase := h.locks.phase e task
    cases hp : (l.ends e).phase task with
    | out => rfl
    | released => exact absurd hp (hreleased e task)
    | sent | started | waiting =>
      rw [hp, hzero] at hphase
      simp only [Phase.owed] at hphase
      omega
  have hunstarted : ∀ {e task}, (l.ends e).taskMtx = some task →
      (l.ends e.other).starts task = 0 := by
    intro e task hm
    obtain ⟨stored, hflow⟩ := hquiet e.other
    by_contra hne
    exact hno (h.can_lockRecv hflow ((h.locks.mutex e task).mp hm) hne)
  have hheld : ∀ {e}, (l.ends e).taskMtx ≠ none → (l.ends e.other).taskMtx ≠ none := by
    intro e hm hm'
    obtain ⟨task, hm⟩ := Option.ne_none_iff_exists'.mp hm
    obtain ⟨stored, hflow⟩ := hquiet e.other
    have hwait := (h.locks.mutex e task).mp hm
    have ht := h.calls.known e task (by rw [hwait]; decide)
    have hzero := hunstarted hm
    exact hno (Handshake.can_start hfit hflow ht (hout hzero) hzero hm')
  -- if one end waits, both do, each for a task that the other one has not started
  have hfree : ∀ e, (l.ends e).taskMtx = none := by
    intro e
    by_contra hm
    refine hcross fun e' => ?_
    have hm' : (l.ends e').taskMtx ≠ none := by
      rcases eq_or_ne e' e with rfl | he
      · exact hm
      · obtain rfl := End.eq_of_ne he.symm
        exact hheld hm
    obtain ⟨task, ht⟩ := Option.ne_none_iff_exists'.mp hm'
    exact ⟨task, ht, hunstarted ht⟩
  obtain ⟨stored, hflow⟩ := hquiet e
  cases hp : (l.ends e).phase task with
  | sent => exact hsent e task hp
  | released => exact hreleased e task hp
  | started => exact hno (can_stop hp (hfree e))
  | waiting =>
    have hm := (h.locks.mutex e task).mpr hp
    rw [hfree e] at hm
    cases hm
  | out =>
    have hone := h.calls.once e task
    have hne : (l.ends e).starts task ≠ 1 := fun hs => hnot ⟨hp, hs⟩
    exact hno (Handshake.can_start hfit hflow ht hp (by omega) (hfree e))

/-! ## Crossed calls never return -/

theorem Crossed.taskMtx_ne (h : Crossed l) (e : End) : (l.ends e).taskMtx ≠ none := by
  obtain ⟨task, hm, -⟩ := h e
  rw [hm]
  exact Option.some_ne_none task

/-- A lock byte that was not sent is not received. -/
theorem Locks.not_lockRecv (h : Locks l) {e : End} {task : Bytes}
    (hzero : (l.ends e.other).starts task = 0) : l.exec (.lockRecv e task) ≠ .ok l' := by
  intro hl
  have hle := (h.lockRecv hl).stops_le e task
  cases does_of_exec hl with
  | lockRecv hwait hd =>
    rw [setEnd_ends, setEnd_ends_ne (End.other_ne e), LinkEnd.stops_release, Function.update_self]
      at hle
    change _ ≤ (l.ends e.other).starts task at hle
    omega

theorem Crossed.not_lockRecv (h : Crossed l) (hlocks : Locks l) {e : End} {task : Bytes} :
    l.exec (.lockRecv e task) ≠ .ok l' := by
  intro hl
  obtain ⟨task', hm, hzero⟩ := h e
  cases does_of_exec hl with
  | lockRecv hwait hd =>
    rw [(hlocks.mutex e task).mpr hwait] at hm
    obtain rfl := Option.some.inj hm
    exact hlocks.not_lockRecv hzero hl

theorem Crossed.congr (h : Crossed l) (hmtx : ∀ e, (l'.ends e).taskMtx = (l.ends e).taskMtx)
    (hstarts : ∀ e, (l'.ends e).starts = (l.ends e).starts) : Crossed l' := by
  intro e
  obtain ⟨task, hm, hzero⟩ := h e
  refine ⟨task, ?_, ?_⟩
  · rw [hmtx]
    exact hm
  · rw [hstarts]
    exact hzero

theorem taskMtx_setEnd {e : End} {x : LinkEnd} (h : x.taskMtx = (l.ends e).taskMtx) (e' : End) :
    ((l.setEnd e x).ends e').taskMtx = (l.ends e').taskMtx :=
  rel_setEnd (fun x y => y.taskMtx = x.taskMtx) (fun _ => rfl) h e'

theorem crossed_step (hlocks : Locks l) (h : Crossed l) {a : LinkAct} (hl : l.exec a = .ok l') :
    Crossed l' := by
  cases does_of_exec hl with
  | start _ hmtx | stop _ hmtx => exact absurd hmtx (h.taskMtx_ne _)
  | lockRecv => exact absurd hl (h.not_lockRecv hlocks)
  | registered | doStop => exact h.congr (taskMtx_setEnd rfl) (starts_setEnd rfl)
  | send | recv | net => exact h.congr (fun _ => rfl) (fun _ => rfl)

/-- Once two calls have crossed, there is a call of `stop` that has not returned for the rest of the
run. -/
theorem crossed_run (hfit : Fitting tasks) (h : Handshake tasks worker l) (hcross : Crossed l)
    {acts : List LinkAct} (hrun : run (handshake tasks) l acts = some l') :
    ∃ e, ∃ task ∈ tasks, ¬ l'.Done e task := by
  have hinv : Handshake tasks worker l' ∧ Crossed l' := by
    refine run_invariant (I := fun l => Handshake tasks worker l ∧ Crossed l) ?_ ⟨h, hcross⟩ hrun
    rintro l a l' ⟨h, hcross⟩ hl
    exact ⟨handshake_step hfit l a l' h hl, crossed_step h.locks hcross (handshake_eq_some.mp hl).2⟩
  obtain ⟨task, hm, -⟩ := hinv.2 .P
  have hwait := (hinv.1.locks.mutex .P task).mp hm
  refine ⟨.P, task, hinv.1.calls.known .P task (by rw [hwait]; decide), ?_⟩
  rintro ⟨hout, -⟩
  rw [hwait] at hout
  cases hout

/-- **No deadlock while the calls of `stop` are in order.**

Each of `tasks` calls `start` and `stop` once at both ends, in any order. If no call of `stop`
crosses another one, some step is possible until all calls have returned.
-/
theorem handshake_not_stuck {l₀ : Link} {acts : List LinkAct} (hfit : Fitting tasks)
    (hworker : worker ∉ tasks) (hnew : working worker = .ok l₀)
    (hacts : AllSteps (handshake tasks) InOrder l₀ acts)
    (hrun : run (handshake tasks) l₀ acts = some l) : ¬ Stuck tasks l := by
  have hinv : Handshake tasks worker l ∧ ¬ Crossed l := by
    refine run_invariant_of (I := fun l => Handshake tasks worker l ∧ ¬ Crossed l) ?_ ?_ hacts hrun
    · rintro l a l' ⟨h, hcross⟩ ha hl
      exact ⟨handshake_step hfit l a l' h hl,
        not_crossed_step hcross ha (handshake_eq_some.mp hl).2⟩
    · exact ⟨handshake_working hnew, not_crossed_working hnew⟩
  exact hinv.1.not_stuck hfit hworker hinv.2

/-- Two tasks, started in opposite orders; `stop` of the first one waits at `P`. -/
theorem handshake_not_stuck_small : ∃ l₀ acts l, working [119] = .ok l₀ ∧
    AllSteps (handshake [[65], [66]]) InOrder l₀ acts ∧
    run (handshake [[65], [66]]) l₀ acts = some l ∧ (l.ends .P).taskMtx = some [65] ∧
    ¬ Stuck [[65], [66]] l := by
  obtain ⟨acts, l₀, hnew, hacts, hview⟩ : ∃ acts : List LinkAct, ∃ l₀, working [119] = .ok l₀ ∧
      AllSteps (handshake [[65], [66]]) InOrder l₀ acts ∧
      (run (handshake [[65], [66]]) l₀ acts).map (fun l => (l.ends .P).taskMtx)
        = some (some [65]) :=
    ⟨[.start .P [65], .start .Q [66], .net .P .drain, .registered .P [65], .net .P .flush,
      .registered .Q [66], .start .P [66], .stop .P [65], .net .P (.deliver 9)],
      _, rfl, by decide, by decide⟩
  obtain ⟨l, hrun, hm⟩ := Option.map_eq_some_iff.mp hview
  exact ⟨l₀, acts, l, hnew, hacts, hrun, hm,
    handshake_not_stuck (by decide) (by decide) hnew hacts hrun⟩

/-! ## Calls that cross -/

/-- Nothing is left for the loops and the socket to do. -/
def Settled (d : Direction) : Prop :=
  d.snd.sendBuffer.size = 0 ∧ d.wire = [] ∧ d.rcv.buffer.canRead.toOption = some false ∧
    d.snd.loop.held = [] ∧ d.rcv.loop.held = []

instance : DecidablePred Settled := fun _ => inferInstanceAs (Decidable (_ ∧ _))

theorem Settled.not_exec {d d' : Direction} (h : Settled d) {a : DirAct} (ha : a.isNet = true) :
    d.exec a ≠ .ok d' := by
  obtain ⟨hsize, hwire, hread, hsnd, hrcv⟩ := h
  intro hd
  cases a with
  | drain =>
    obtain ⟨s, hs, -⟩ := Exec.bind_eq_ok.mp hd
    unfold SendHalf.loopSendTake at hs
    split at hs
    · rw [hsize] at hs
      cases hs
    · cases hs
  | flush =>
    obtain ⟨⟨data, s⟩, hs, -⟩ := Exec.bind_eq_ok.mp hd
    obtain ⟨task, hbusy, -⟩ := SendHalf.loopSendWrite_ok hs
    rw [hbusy] at hsnd
    cases hsnd
  | deliver k =>
    rw [Direction.exec] at hd
    split at hd
    · next hk =>
      rw [hwire] at hk
      exact absurd hk.1 (Nat.not_lt.mpr hk.2)
    · cases hd
  | take =>
    obtain ⟨r, hr, -⟩ := Exec.bind_eq_ok.mp hd
    obtain ⟨task, f, -, hread', -, -⟩ := RecvHalf.loopRecvTake_read hr
    rw [Exec.toOption_eq_some.mp hread] at hread'
    cases hread'
  | store =>
    obtain ⟨r, hr, -⟩ := Exec.bind_eq_ok.mp hd
    obtain ⟨task, id, data, m, hloop, -, -⟩ := RecvHalf.loopRecvStore_store hr
    rw [hloop] at hrcv
    cases hrcv
  | send _ _ | recv _ | sendStart _ | sendStop | recvStart _ | recvStop => cases ha

/-- When nothing is on its way and each task has either not begun or is in `stop`, two crossed calls
have nothing to wait for. -/
theorem stuck_of_crossed (h : Handshake tasks worker l) (hcross : Crossed l)
    (hdir : ∀ e, Settled (l.dir e))
    (hphase : ∀ e, ∀ task ∈ tasks, (l.ends e).phase task = .out ∨ (l.ends e).phase task = .waiting) :
    Stuck tasks l := by
  have hcases : ∀ e task, (l.ends e).phase task = .out ∨ (l.ends e).phase task = .waiting := by
    intro e task
    by_cases hout : (l.ends e).phase task = .out
    · exact Or.inl hout
    · exact hphase e task (h.calls.known e task hout)
  constructor
  · obtain ⟨task, hm, -⟩ := hcross .P
    have hwait := (h.locks.mutex .P task).mp hm
    refine ⟨.P, task, h.calls.known .P task (by rw [hwait]; decide), ?_⟩
    rintro ⟨hout, -⟩
    rw [hwait] at hout
    cases hout
  · intro a
    refine Option.eq_none_iff_forall_ne_some.mpr fun l' hl' => ?_
    obtain ⟨hpart, hl⟩ := handshake_eq_some.mp hl'
    -- a task that has not begun needs the mutex, and one that waits needs its byte
    cases does_of_exec hl with
    | start _ hmtx | stop _ hmtx => exact hcross.taskMtx_ne _ hmtx
    | @registered e task hsent => simpa [hsent] using hcases e task
    | lockRecv => exact hcross.not_lockRecv h.locks hl
    | @doStop e task hreleased => simpa [hreleased] using hcases e task
    | send => cases hpart
    | recv => cases hpart
    | net _ hd => exact (hdir _).not_exec hpart hd

/-- `P` starts and stops one task and `Q` the other one. Both lock bytes arrive, and both calls of
`stop` wait for the byte of a task whose `start` cannot take the mutex. -/
theorem not_deadlock_free : ∃ l₀ l : Link, ∃ acts, working [119] = .ok l₀ ∧
    run (handshake [[65], [66]]) l₀ acts = some l ∧ Stuck [[65], [66]] l := by
  obtain ⟨acts, l₀, hnew, hview⟩ : ∃ acts : List LinkAct, ∃ l₀, working [119] = .ok l₀ ∧
      (run (handshake [[65], [66]]) l₀ acts).map (fun l =>
        decide (((l.ends .P).taskMtx = some [65] ∧ (l.ends .Q).taskMtx = some [66]) ∧
          ((l.ends .Q).starts [65] = 0 ∧ (l.ends .P).starts [66] = 0) ∧
          (Settled (l.dir .P) ∧ Settled (l.dir .Q)) ∧
          ((l.ends .P).phase [66] = .out ∧ (l.ends .Q).phase [65] = .out))) = some true :=
    ⟨[.start .P [65], .start .Q [66], .registered .P [65], .registered .Q [66], .stop .P [65],
      .stop .Q [66], .net .P .drain, .net .P .flush, .net .P (.deliver 16), .net .P .take,
      .net .P .store, .net .Q .drain, .net .Q .flush, .net .Q (.deliver 16), .net .Q .take,
      .net .Q .store], _, rfl, by decide⟩
  obtain ⟨l, hrun, hd⟩ := Option.map_eq_some_iff.mp hview
  obtain ⟨⟨hmP, hmQ⟩, ⟨hzQ, hzP⟩, ⟨hdP, hdQ⟩, hpP, hpQ⟩ := of_decide_eq_true hd
  have hinv : Handshake [[65], [66]] [119] l :=
    run_invariant (handshake_step (by decide)) (handshake_working hnew) hrun
  refine ⟨l₀, l, acts, hnew, hrun, stuck_of_crossed hinv ?_ ?_ ?_⟩
  · intro e
    cases e with
    | P => exact ⟨[65], hmP, hzQ⟩
    | Q => exact ⟨[66], hmQ, hzP⟩
  · intro e
    cases e with
    | P => exact hdP
    | Q => exact hdQ
  · intro e task ht
    rcases List.mem_pair.mp ht with rfl | rfl
    · cases e with
      | P => exact Or.inr ((hinv.locks.mutex .P _).mp hmP)
      | Q => exact Or.inl hpQ
    · cases e with
      | P => exact Or.inl hpP
      | Q => exact Or.inr ((hinv.locks.mutex .Q _).mp hmQ)

end Link

end Rosetta

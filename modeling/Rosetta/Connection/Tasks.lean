import Rosetta.Connection.Halves
import Rosetta.Link.Basic

/-!
# The tasks of a connection, and what they send

Each task that uses a connection runs a thread in `do_start`. One of them is the worker: it runs
`loop_send`, which tests the stop flag of its task before it looks for bytes to send. `do_stop` sets
the flag and joins the thread.

* `Outgoing` — the sending half with its tasks
* `Kept` — while no task without a flag is left, nothing is left in `send_buffer_`

`Kept` holds as long as the last flag is set over an empty `send_buffer_` (`OnTime`).
-/

namespace Rosetta

open Lib CycleBuffer

/-- How far a task has come with `start` and `stop`. -/
inductive Call where
  /-- `start` was not called, or `stop` has returned -/
  | out
  /-- the lock byte is sent -/
  | sent
  /-- `start` has returned -/
  | started
  /-- `stop` waits for the lock byte of the other end -/
  | waiting
  /-- and has it -/
  | released
  /-- `do_stop` has set the stop flag and joins the thread -/
  | flagged
  deriving DecidableEq, Repr

/-- Started, and its stop flag is not set. -/
def Call.unflagged : Call → Bool
  | .out | .flagged => false
  | _ => true

/-- The thread of a task, in `do_start`. -/
inductive StartThread where
  | none
  /-- before `stop_works_` -/
  | entered
  /-- in the wait for `work_count_` -/
  | waiting
  /-- it has started the loops -/
  | working
  | done
  deriving DecidableEq, Repr

structure Outgoing where
  snd : SendHalf
  call : Bytes → Call := fun _ => .out
  thread : Bytes → StartThread := fun _ => .none
  stopWorks : Bytes → Option Bool := fun _ => none
  /-- the task that `work_count_` counts -/
  work : Option Bytes := none
  closed : Bool := false
  /-- the tasks that `start` was called for -/
  tasks : List Bytes := []
  /-- the bytes of all frames that were passed to `send` -/
  queued : Bytes := []
  /-- the bytes that the socket has accepted -/
  written : Bytes := []

inductive OutgoingAct where
  /-- `start` sends the lock byte and starts the thread -/
  | start (task : Bytes)
  /-- the thread puts the stop flag into `stop_works_` -/
  | register (task : Bytes)
  /-- `start` returns -/
  | started (task : Bytes)
  /-- the thread finds no other worker and starts the loops -/
  | takeWork (task : Bytes)
  /-- the thread finds its stop flag set -/
  | giveUp (task : Bytes)
  | drain
  | flush
  /-- `loop_send` finds the stop flag of its task set -/
  | loopEnd
  /-- the thread has joined the loops -/
  | quit (task : Bytes)
  | send (task id data : Bytes)
  | stop (task : Bytes)
  /-- the lock byte of the other end has come -/
  | lockRecv (task : Bytes)
  | setFlag (task : Bytes)
  /-- the thread is joined, and `stop` returns -/
  | join (task : Bytes)

namespace Outgoing

def new : Exec Outgoing := do
  let s ← SendHalf.new
  .ok { snd := s }

def setCall (o : Outgoing) (task : Bytes) (c : Call) : Outgoing :=
  { o with call := Function.update o.call task c }

def setThread (o : Outgoing) (task : Bytes) (t : StartThread) : Outgoing :=
  { o with thread := Function.update o.thread task t }

/-- The flag of the worker is set. -/
def stopping (o : Outgoing) : Bool :=
  match o.snd.loop.task with
  | some task => o.stopWorks task = some true
  | none => false

/-- `send(id, data, length, timeout)`. -/
def put (o : Outgoing) (id data : Bytes) : Exec Outgoing := do
  let s ← o.snd.send id data
  .ok { o with snd := s, queued := o.queued ++ frameBytes id data }

def exec (o : Outgoing) : OutgoingAct → Exec Outgoing
  | .start task =>
    if o.call task = .out then do
      let o ← o.put (lockId task) lockMsg
      .ok { (o.setCall task .sent).setThread task .entered with tasks := task :: o.tasks }
    else
      .error .blocked
  | .register task =>
    if o.thread task = .entered then
      -- `map::insert` keeps an entry that is there
      let flag := (o.stopWorks task).getD false
      .ok { o.setThread task .waiting with
        stopWorks := Function.update o.stopWorks task (some flag) }
    else
      .error .blocked
  | .started task =>
    if o.call task = .sent ∧ o.stopWorks task = some false then .ok (o.setCall task .started)
    else .error .blocked
  | .takeWork task =>
    if o.thread task = .waiting ∧ o.work = none then do
      let l ← o.snd.loop.start task
      .ok { o.setThread task .working with snd := { o.snd with loop := l }, work := some task }
    else
      .error .blocked
  | .giveUp task =>
    if o.thread task = .waiting ∧ o.work ≠ none ∧ o.stopWorks task = some true then
      .ok (o.setThread task .done)
    else
      .error .blocked
  | .drain =>
    if o.stopping then .error .blocked
    else do
      let s ← o.snd.loopSendTake
      .ok { o with snd := s }
  | .flush => do
    let (data, s) ← o.snd.loopSendWrite
    .ok { o with snd := s, written := o.written ++ data }
  | .loopEnd =>
    if o.stopping then do
      let l ← o.snd.loop.stop
      .ok { o with snd := { o.snd with loop := l } }
    else
      .error .blocked
  | .quit task =>
    if o.thread task = .working ∧ o.snd.loop.task ≠ some task then
      .ok { o.setThread task .done with work := none }
    else
      .error .blocked
  | .send task id data =>
    if o.call task = .started then o.put id data else .error .blocked
  | .stop task =>
    if o.call task = .started then .ok (o.setCall task .waiting) else .error .blocked
  | .lockRecv task =>
    if o.call task = .waiting then .ok (o.setCall task .released) else .error .blocked
  | .setFlag task =>
    if o.call task = .released then
      .ok { o.setCall task .flagged with
        stopWorks := Function.update o.stopWorks task ((o.stopWorks task).map fun _ => true) }
    else
      .error .blocked
  | .join task =>
    if o.call task = .flagged ∧ o.thread task = .done then
      .ok { (o.setCall task .out).setThread task .none with
        stopWorks := Function.update o.stopWorks task none }
    else
      .error .blocked

/-- `close`: what is in `send_buffer_` is written to the socket. -/
def close (o : Outgoing) : Exec Outgoing :=
  if o.closed then .ok o
  else do
    newChar o.snd.sendBuffer.size
    let (data, b) ← o.snd.sendBuffer.read o.snd.sendBuffer.size
    .ok { o with snd := { o.snd with sendBuffer := b }, closed := true, written := o.written ++ data }

/-- A task other than `task` is started and its stop flag is not set. -/
def OtherThan (o : Outgoing) (task : Bytes) : Prop :=
  ∃ task' ∈ o.tasks, task' ≠ task ∧ (o.call task').unflagged = true

instance (o : Outgoing) (task : Bytes) : Decidable (o.OtherThan task) :=
  inferInstanceAs (Decidable (∃ task' ∈ o.tasks, _))

/-- The flag of the last task without one is set over an empty `send_buffer_`. -/
def OnTime (o : Outgoing) : OutgoingAct → Prop
  | .setFlag task => o.closed = false → o.OtherThan task ∨ o.snd.sendBuffer.size = 0
  | _ => True

instance (o : Outgoing) : DecidablePred o.OnTime
  | .setFlag task =>
    inferInstanceAs (Decidable (o.closed = false → o.OtherThan task ∨ o.snd.sendBuffer.size = 0))
  | .start _ | .register _ | .started _ | .takeWork _ | .giveUp _ | .drain | .flush | .loopEnd
  | .quit _ | .send _ _ _ | .stop _ | .lockRecv _ | .join _ => isTrue trivial

/-! ## What is kept -/

/-- Closed, or a task is left that has still to set its flag, or nothing is left to send. -/
def Owed (o : Outgoing) : Prop :=
  o.closed = true ∨ (∃ task, (o.call task).unflagged = true) ∨ o.snd.sendBuffer.contents = []

structure Kept (o : Outgoing) : Prop where
  inv : Inv o.snd.sendBuffer
  bytes : o.closed = false →
    o.queued = o.written ++ (o.snd.loop.held.flatten ++ o.snd.sendBuffer.contents)
  owed : o.Owed
  /-- the loop runs in the thread of its task -/
  worker : ∀ task, o.snd.loop.task = some task → o.thread task = .working
  /-- and `stop` joins the thread -/
  busy : ∀ task, o.thread task ≠ .none → o.call task ≠ .out
  known : ∀ task, o.call task ≠ .out → task ∈ o.tasks

variable {o o' : Outgoing}

@[simp] theorem setCall_snd (task : Bytes) (c : Call) : (o.setCall task c).snd = o.snd := rfl

@[simp] theorem setCall_call (task : Bytes) (c : Call) :
    (o.setCall task c).call = Function.update o.call task c := rfl

@[simp] theorem setCall_thread (task : Bytes) (c : Call) :
    (o.setCall task c).thread = o.thread := rfl

@[simp] theorem setThread_snd (task : Bytes) (t : StartThread) :
    (o.setThread task t).snd = o.snd := rfl

@[simp] theorem setThread_call (task : Bytes) (t : StartThread) :
    (o.setThread task t).call = o.call := rfl

@[simp] theorem setThread_thread (task : Bytes) (t : StartThread) :
    (o.setThread task t).thread = Function.update o.thread task t := rfl

theorem kept_new (h : Outgoing.new = .ok o) : o.Kept := by
  obtain ⟨s, hs, h⟩ := Exec.bind_eq_ok.mp h
  obtain rfl := Except.ok.inj h
  obtain ⟨hinv, hc, hloop⟩ := SendHalf.new_ok hs
  refine ⟨hinv, fun _ => ?_, .inr (.inr hc), ?_, ?_, ?_⟩
  · simp [hc, hloop, Loop.held]
  · simp [hloop, Loop.task]
  · simp
  · simp

/-- `put` adds a frame to `send_buffer_`. -/
theorem put_ok (h : o.Kept) {id data : Bytes} (ho : o.put id data = .ok o') :
    ∃ s, o' = { o with snd := s, queued := o.queued ++ frameBytes id data } ∧ Inv s.sendBuffer ∧
      s.sendBuffer.contents = o.snd.sendBuffer.contents ++ frameBytes id data ∧
      s.loop = o.snd.loop := by
  obtain ⟨s, hs, ho⟩ := Exec.bind_eq_ok.mp ho
  obtain rfl := Except.ok.inj ho
  obtain ⟨-, hinv, hc, hloop⟩ := SendHalf.send_ok h.inv hs
  exact ⟨s, rfl, hinv, hc, hloop⟩

theorem Owed.of_unflagged (task : Bytes) (h : (o.call task).unflagged = true) : o.Owed :=
  .inr (.inl ⟨task, h⟩)

/-- The call of a task goes on, and its flag is as it was. -/
theorem Owed.setCall (h : o.Owed) {task : Bytes} {c : Call}
    (hc : (o.call task).unflagged = true → c.unflagged = true) : (o.setCall task c).Owed := by
  rcases h with hclosed | ⟨task', hcall⟩ | hnil
  · exact .inl hclosed
  · refine .of_unflagged task' ?_
    rcases eq_or_ne task' task with rfl | hne
    · simpa using hc hcall
    · simpa [hne] using hcall
  · exact .inr (.inr hnil)

theorem busy_setThread (h : ∀ task, o.thread task ≠ .none → o.call task ≠ .out) {task : Bytes}
    (hold : o.thread task ≠ .none) (t : StartThread) (task' : Bytes)
    (hthread : Function.update o.thread task t task' ≠ .none) : o.call task' ≠ .out := by
  rcases eq_or_ne task' task with rfl | hne
  · exact h task' hold
  · exact h task' (by simpa [hne] using hthread)

theorem busy_setCall (h : ∀ task, o.thread task ≠ .none → o.call task ≠ .out) {task : Bytes}
    {c : Call} (hc : c ≠ .out) (task' : Bytes) (hthread : o.thread task' ≠ .none) :
    Function.update o.call task c task' ≠ .out := by
  rcases eq_or_ne task' task with rfl | hne
  · simpa using hc
  · simpa [hne] using h task' hthread

theorem known_setCall (h : ∀ task, o.call task ≠ .out → task ∈ o.tasks) {task : Bytes}
    (hold : o.call task ≠ .out) (c : Call) (task' : Bytes)
    (hcall : Function.update o.call task c task' ≠ .out) : task' ∈ o.tasks := by
  rcases eq_or_ne task' task with rfl | hne
  · exact h task' hold
  · exact h task' (by simpa [hne] using hcall)

/-- The call of a task goes on. -/
theorem Kept.setCall (h : o.Kept) {task : Bytes} (hold : o.call task ≠ .out) {c : Call}
    (hc : c.unflagged = true) : (o.setCall task c).Kept := by
  refine ⟨h.inv, h.bytes, h.owed.setCall fun _ => hc, h.worker, busy_setCall h.busy ?_,
    known_setCall h.known hold c⟩
  rintro rfl
  cases hc

/-- A thread that does not run the loop goes on. -/
theorem worker_setThread (h : ∀ task, o.snd.loop.task = some task → o.thread task = .working)
    {task : Bytes} (hne : o.thread task ≠ .working) (t : StartThread) (task' : Bytes)
    (hloop : o.snd.loop.task = some task') : Function.update o.thread task t task' = .working := by
  have hold := h task' hloop
  rcases eq_or_ne task' task with rfl | ht
  · exact absurd hold hne
  · simpa [ht] using hold

theorem Kept.start (h : o.Kept) {task : Bytes} (hout : o.call task = .out) {s : SendHalf}
    (hinv : Inv s.sendBuffer) (hc : s.sendBuffer.contents
      = o.snd.sendBuffer.contents ++ frameBytes (lockId task) lockMsg)
    (hloop : s.loop = o.snd.loop) :
    Kept { (Outgoing.setCall { o with
      snd := s, queued := o.queued ++ frameBytes (lockId task) lockMsg } task .sent).setThread
        task .entered with tasks := task :: o.tasks } := by
  have hthread : o.thread task = .none := by
    by_contra hne
    exact h.busy task hne hout
  refine ⟨hinv, fun hopen => ?_, .of_unflagged task ?_, ?_, ?_, ?_⟩
  · show o.queued ++ frameBytes (lockId task) lockMsg
      = o.written ++ (s.loop.held.flatten ++ s.sendBuffer.contents)
    simp [hloop, hc, h.bytes hopen]
  · simp [Call.unflagged]
  · intro task' hl
    refine worker_setThread h.worker (by simp [hthread]) .entered task' ?_
    rw [← hloop]
    exact hl
  · intro task' ht
    rcases eq_or_ne task' task with rfl | hne
    · simp
    · simpa [hne] using h.busy task' (by simpa [hne] using ht)
  · intro task' hcall
    rcases eq_or_ne task' task with rfl | hne
    · exact List.mem_cons_self
    · exact List.mem_cons_of_mem _ (h.known task' (by simpa [hne] using hcall))

/-- The stop flag is set: another task is left that has still to set its own, or the buffer is
empty. -/
theorem Kept.setFlag (h : o.Kept) {task : Bytes} (hcall : o.call task = .released)
    {stopWorks : Bytes → Option Bool}
    (hon : o.closed = false → o.OtherThan task ∨ o.snd.sendBuffer.size = 0) :
    Kept { o.setCall task .flagged with stopWorks := stopWorks } := by
  refine ⟨h.inv, h.bytes, ?_, h.worker, busy_setCall h.busy Call.noConfusion,
    known_setCall h.known (by simp [hcall]) .flagged⟩
  cases hclosed : o.closed with
  | true => exact .inl hclosed
  | false =>
    rcases hon hclosed with ⟨task', -, hne, hcall⟩ | hsize
    · exact .inr (.inl ⟨task', by simpa [hne] using hcall⟩)
    · refine .inr (.inr (List.eq_nil_of_length_eq_zero ?_))
      rw [← hsize]
      exact length_contents _

theorem Kept.join (h : o.Kept) {task : Bytes} (hcall : o.call task = .flagged)
    (hthread : o.thread task = .done) {stopWorks : Bytes → Option Bool} :
    Kept { (o.setCall task .out).setThread task .none with stopWorks := stopWorks } := by
  refine ⟨h.inv, h.bytes, h.owed.setCall (c := .out) (by simp [hcall, Call.unflagged]), ?_, ?_,
    known_setCall h.known (by simp [hcall]) .out⟩
  · exact worker_setThread h.worker (by simp [hthread]) .none
  · intro task' ht
    rcases eq_or_ne task' task with rfl | hne
    · simp at ht
    · simpa [hne] using h.busy task' (by simpa [hne] using ht)

/-- **Every step keeps the account of the bytes**, if flags are set on time. -/
theorem kept_step {a : OutgoingAct} (h : o.Kept) (ha : o.OnTime a) (ho : o.exec a = .ok o') :
    o'.Kept := by
  cases a with
  | start task =>
    simp only [exec] at ho
    split at ho
    · next hout =>
      obtain ⟨p, hp, ho⟩ := Exec.bind_eq_ok.mp ho
      obtain rfl := Except.ok.inj ho
      obtain ⟨s, rfl, hinv, hc, hloop⟩ := put_ok h hp
      exact h.start hout hinv hc hloop
    · cases ho
  | register task =>
    simp only [exec] at ho
    split at ho
    · next ht =>
      obtain rfl := Except.ok.inj ho
      exact ⟨h.inv, h.bytes, h.owed, worker_setThread h.worker (by simp [ht]) .waiting,
        busy_setThread h.busy (by simp [ht]) .waiting, h.known⟩
    · cases ho
  | started task =>
    simp only [exec] at ho
    split at ho
    · next hcall =>
      obtain rfl := Except.ok.inj ho
      exact h.setCall (by simp [hcall]) rfl
    · cases ho
  | takeWork task =>
    simp only [exec] at ho
    split at ho
    · next ht =>
      obtain ⟨l, hl, ho⟩ := Exec.bind_eq_ok.mp ho
      obtain rfl := Except.ok.inj ho
      obtain ⟨hidle, rfl⟩ := Loop.start_ok hl
      refine ⟨h.inv, fun hopen => ?_, h.owed, ?_, busy_setThread h.busy (by simp [ht.1]) .working,
        h.known⟩
      · have hbytes := h.bytes hopen
        rw [hidle] at hbytes
        exact hbytes
      · intro task' hl'
        obtain rfl := Option.some.inj hl'
        simp
    · cases ho
  | giveUp task =>
    simp only [exec] at ho
    split at ho
    · next ht =>
      obtain rfl := Except.ok.inj ho
      exact ⟨h.inv, h.bytes, h.owed, worker_setThread h.worker (by simp [ht.1]) .done,
        busy_setThread h.busy (by simp [ht.1]) .done, h.known⟩
    · cases ho
  | drain =>
    simp only [exec] at ho
    split at ho
    · cases ho
    · obtain ⟨s, hs, ho⟩ := Exec.bind_eq_ok.mp ho
      obtain rfl := Except.ok.inj ho
      obtain ⟨task, hwait, hbusy, hinv, hc⟩ := SendHalf.loopSendTake_ok h.inv hs
      refine ⟨hinv, fun hopen => ?_, .inr (.inr hc), ?_, h.busy, h.known⟩
      · simpa [hwait, hbusy, hc, Loop.held] using h.bytes hopen
      · intro task' hl
        refine h.worker task' ?_
        rw [hwait]
        simpa [hbusy, Loop.task] using hl
  | flush =>
    obtain ⟨⟨data, s⟩, hs, ho⟩ := Exec.bind_eq_ok.mp ho
    obtain rfl := Except.ok.inj ho
    obtain ⟨task, hbusy, rfl⟩ := SendHalf.loopSendWrite_ok hs
    refine ⟨h.inv, fun hopen => ?_, h.owed, ?_, h.busy, h.known⟩
    · simpa [hbusy, Loop.held] using h.bytes hopen
    · intro task' hl
      refine h.worker task' ?_
      rw [hbusy]
      exact hl
  | loopEnd =>
    simp only [exec] at ho
    split at ho
    · obtain ⟨l, hl, ho⟩ := Exec.bind_eq_ok.mp ho
      obtain rfl := Except.ok.inj ho
      obtain ⟨⟨t, hwait⟩, rfl⟩ := Loop.stop_ok hl
      refine ⟨h.inv, fun hopen => ?_, h.owed, ?_, h.busy, h.known⟩
      · simpa [hwait, Loop.held] using h.bytes hopen
      · intro task' hl
        cases hl
    · cases ho
  | quit task =>
    simp only [exec] at ho
    split at ho
    · next ht =>
      obtain rfl := Except.ok.inj ho
      refine ⟨h.inv, h.bytes, h.owed, ?_, busy_setThread h.busy (by simp [ht.1]) .done, h.known⟩
      intro task' hl
      have hne : task' ≠ task := by
        rintro rfl
        exact ht.2 hl
      simpa [hne] using h.worker task' hl
    · cases ho
  | send task id data =>
    simp only [exec] at ho
    split at ho
    · next hcall =>
      obtain ⟨s, rfl, hinv, hc, hloop⟩ := put_ok h ho
      refine ⟨hinv, fun hopen => ?_, .of_unflagged task (by simp [hcall, Call.unflagged]), ?_, h.busy, h.known⟩
      · simp [hloop, hc, h.bytes hopen]
      · simpa [hloop] using h.worker
    · cases ho
  | stop task =>
    simp only [exec] at ho
    split at ho
    · next hcall =>
      obtain rfl := Except.ok.inj ho
      exact h.setCall (by simp [hcall]) rfl
    · cases ho
  | lockRecv task =>
    simp only [exec] at ho
    split at ho
    · next hcall =>
      obtain rfl := Except.ok.inj ho
      exact h.setCall (by simp [hcall]) rfl
    · cases ho
  | setFlag task =>
    simp only [exec] at ho
    split at ho
    · next hcall =>
      obtain rfl := Except.ok.inj ho
      exact h.setFlag hcall ha
    · cases ho
  | join task =>
    simp only [exec] at ho
    split at ho
    · next ht =>
      obtain rfl := Except.ok.inj ho
      exact h.join ht.1 ht.2
    · cases ho

theorem Kept.close (h : o.Kept) (ho : o.close = .ok o') : o'.Kept := by
  unfold Outgoing.close at ho
  split at ho
  · obtain rfl := Except.ok.inj ho
    exact h
  · obtain ⟨u, -, ho⟩ := Exec.bind_eq_ok.mp ho
    rw [read_eq h.inv (Nat.le_refl _), Exec.ok_bind] at ho
    obtain rfl := Except.ok.inj ho
    exact ⟨h.inv.removed (Nat.le_refl _), Bool.noConfusion, .inl rfl, h.worker, h.busy, h.known⟩

/-- When every `stop` has returned, everything that was passed to `send` is in the socket. -/
theorem Kept.sent (h : o.Kept) (hopen : o.closed = false)
    (hreturned : ∀ task ∈ o.tasks, o.call task = .out) :
    o.snd.sendBuffer.size = 0 ∧ o.written = o.queued := by
  have hout : ∀ task, o.call task = .out := by
    intro task
    by_contra hne
    exact hne (hreturned task (h.known task hne))
  have hcontents : o.snd.sendBuffer.contents = [] := by
    rcases h.owed with hclosed | ⟨task, hcall⟩ | hnil
    · rw [hopen] at hclosed
      cases hclosed
    · rw [hout task] at hcall
      cases hcall
    · exact hnil
  have hheld : o.snd.loop.held = [] := by
    cases hloop : o.snd.loop with
    | idle => rfl
    | wait task => rfl
    | busy task data =>
      have hworking := h.worker task (by rw [hloop]; rfl)
      exact absurd (hout task) (h.busy task (by simp [hworking]))
  refine ⟨?_, ?_⟩
  · rw [← length_contents, hcontents]
    rfl
  · simp [h.bytes hopen, hheld, hcontents]

end Outgoing

end Rosetta

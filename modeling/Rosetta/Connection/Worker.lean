import Mathlib.Logic.Function.Basic
import Rosetta.Lib.Run
import Rosetta.Lib.Waiting
import Rosetta.Link.Basic

/-!
# The threads of a connection

`start` runs `do_start` in a thread of its own. That thread waits until no other one works, and then
runs `loop_recv` and `loop_send`. `stop` sets the flag of its task, signals the place where the task
must be, and joins.

* `TaskThreads` — the threads of a task, and its entries of `stop_works_` and `threads_`
* `ConnThreads` — the threads of all tasks, and what they share
* `Fits` — the invariant, task by task

The place that `do_stop` signals is chosen by `work_task_id_`, which stays after its task has left.
It never makes `do_stop` miss its thread: a thread sleeps on `work_cv_` only while another task
works, and then `work_task_id_` is that one.
-/

namespace Rosetta

open Lib

/-- The thread that has called `start` or `stop`. -/
inductive Caller where
  | out
  /-- `start` has counted the task and sent its lock message -/
  | counted
  /-- the thread of `do_start` is made -/
  | spawned
  /-- in the wait on `stop_work_cv_` -/
  | waiting (w : Waiting)
  /-- `start` has returned -/
  | started
  /-- `stop` waits for the lock message, and holds `task_mtx_` -/
  | locked
  | unlocked
  /-- `do_stop` has set the stop flag -/
  | flagged
  /-- the task is the last one that worked; `send_buffer_cv_` is next, `work_mtx_` is held -/
  | toSend
  /-- `buffer_cv_` is next -/
  | toRecv
  /-- `do_stop` has finished signalling -/
  | signalled
  /-- the entry of `threads_` is taken out, if it was there -/
  | detached (found : Bool)
  | joined
  deriving DecidableEq

/-- How far the worker has come with its loops. -/
inductive Working where
  | entered | recvMade | bothMade | recvJoined | bothJoined
  deriving DecidableEq

/-- The thread that runs `do_start`. -/
inductive StarterThread where
  | none
  | made
  /-- in the wait on `work_cv_` -/
  | waiting (w : Waiting)
  | working (p : Working)
  | ended
  deriving DecidableEq

/-- The thread that runs `loop_recv` or `loop_send`. -/
inductive LoopThread (α : Type) where
  | none
  /-- in the wait on `buffer_cv_` or `send_buffer_cv_` -/
  | waiting (w : Waiting)
  /-- with what it has read -/
  | holding (a : α)
  | ended
  deriving DecidableEq

namespace LoopThread

variable {α : Type}

def runs : LoopThread α → Bool
  | .waiting _ | .holding _ => true
  | .none | .ended => false

/-- A notification, which reaches the thread if it sleeps. -/
def notify : LoopThread α → LoopThread α
  | .waiting w => .waiting w.notify
  | l => l

end LoopThread

/-- `do_stop` has called all `notify_all` that it calls. -/
def Caller.hasSignalled : Caller → Bool
  | .signalled | .detached _ | .joined => true
  | _ => false

def StarterThread.isWorking : StarterThread → Bool
  | .working _ => true
  | _ => false

def StarterThread.notify : StarterThread → StarterThread
  | .waiting w => .waiting w.notify
  | s => s

def Caller.notify : Caller → Caller
  | .waiting w => .waiting w.notify
  | c => c

structure TaskThreads where
  caller : Caller := .out
  starter : StarterThread := .none
  recv : LoopThread (Bytes × Bytes) := .none
  send : LoopThread Bytes := .none
  /-- the entry of `stop_works_` -/
  flag : Option Bool := none
  /-- there is an entry in `threads_` -/
  listed : Bool := false

namespace TaskThreads

def notifyCaller (x : TaskThreads) : TaskThreads := { x with caller := x.caller.notify }

def notifyStarter (x : TaskThreads) : TaskThreads := { x with starter := x.starter.notify }

def notifyRecv (x : TaskThreads) : TaskThreads := { x with recv := x.recv.notify }

def notifySend (x : TaskThreads) : TaskThreads := { x with send := x.send.notify }

end TaskThreads

structure ConnThreads where
  tasks : Bytes → TaskThreads := fun _ => {}
  workCount : Nat := 0
  workTaskId : Bytes := []
  taskCount : Int := 0
  /-- the task that holds `task_mtx_` between two steps -/
  taskMtx : Option Bytes := none
  workMtx : Option Bytes := none
  /-- the frames in `buffer_` -/
  buffer : List (Bytes × Bytes) := []
  sendBuffer : Bytes := []
  /-- the frames put into `mapbuffer_` -/
  received : List (Bytes × Bytes) := []
  /-- the bytes passed to `writen` -/
  sent : Bytes := []

inductive ThreadAct where
  /-- the critical section of `start` -/
  | start (t : Bytes)
  /-- `thread(&Connection::do_start, this, task_id)` -/
  | spawn (t : Bytes)
  /-- `threads_.insert` -/
  | list (t : Bytes)
  /-- the test of the wait in `start` -/
  | startTest (t : Bytes)
  /-- `stop_works_.insert` in `do_start` -/
  | enlist (t : Bytes)
  /-- the test of the wait on `work_cv_` -/
  | workTest (t : Bytes)
  | makeRecv (t : Bytes)
  | makeSend (t : Bytes)
  | joinRecv (t : Bytes)
  | joinSend (t : Bytes)
  /-- `work_count_--` -/
  | leave (t : Bytes)
  /-- the critical section on `buffer_mtx_` in `loop_recv` -/
  | recvTest (t : Bytes)
  /-- the critical section on `mapbuffer_mtx_` in `loop_recv` -/
  | store (t : Bytes)
  /-- the critical section on `send_buffer_mtx_` in `loop_send` -/
  | sendTest (t : Bytes)
  | write (t : Bytes)
  /-- `stop` takes `task_mtx_` -/
  | stop (t : Bytes)
  /-- `recv` has returned with the lock message -/
  | gotLock (t : Bytes)
  | setFlag (t : Bytes)
  /-- `do_stop` takes `work_mtx_` and compares `work_task_id_` -/
  | compare (t : Bytes)
  | signalSend (t : Bytes)
  | signalRecv (t : Bytes)
  /-- `threads_.erase` -/
  | detach (t : Bytes)
  | join (t : Bytes)
  /-- `stop_works_.erase` -/
  | delist (t : Bytes)
  /-- spurious wake-ups -/
  | wakeCaller (t : Bytes)
  | wakeStarter (t : Bytes)
  | wakeRecv (t : Bytes)
  | wakeSend (t : Bytes)
  /-- `put_into_send_buffer` -/
  | put (data : Bytes)
  /-- `buffer_->write` of the epoll thread, up to the end of a frame -/
  | arrive (frame : Bytes × Bytes)
  /-- its `notify_all` -/
  | arrived

namespace ConnThreads

def setTask (n : ConnThreads) (t : Bytes) (x : TaskThreads) : ConnThreads :=
  { n with tasks := Function.update n.tasks t x }

/-- A `notify_all`. -/
def notifyAll (n : ConnThreads) (f : TaskThreads → TaskThreads) : ConnThreads :=
  { n with tasks := fun t => f (n.tasks t) }

/-- `put_into_send_buffer`. -/
def put (n : ConnThreads) (data : Bytes) : ConnThreads :=
  { n with sendBuffer := n.sendBuffer ++ data }.notifyAll TaskThreads.notifySend

def step (n : ConnThreads) : ThreadAct → Option ConnThreads
  | .start t =>
    if (n.tasks t).caller = .out ∧ n.taskMtx = none then
      let n := n.put (frameBytes (lockId t) lockMsg)
      some { n.setTask t { n.tasks t with caller := .counted } with taskCount := n.taskCount + 1 }
    else none
  | .spawn t =>
    if (n.tasks t).caller = .counted then
      some (n.setTask t { n.tasks t with caller := .spawned, starter := .made })
    else none
  | .list t =>
    if (n.tasks t).caller = .spawned then
      some (n.setTask t { n.tasks t with caller := .waiting .awake, listed := true })
    else none
  | .startTest t =>
    match (n.tasks t).caller with
    | .waiting w =>
      if w = .asleep then none
      else if (n.tasks t).flag = some false then
        some (n.setTask t { n.tasks t with caller := .started })
      else some (n.setTask t { n.tasks t with caller := .waiting .asleep })
    | _ => none
  | .enlist t =>
    if (n.tasks t).starter = .made then
      -- `map::insert` keeps an entry that is there
      let flag := (n.tasks t).flag.getD false
      some ((n.setTask t { n.tasks t with starter := .waiting .awake, flag := some flag }).notifyAll
        TaskThreads.notifyCaller)
    else none
  | .workTest t =>
    match (n.tasks t).starter with
    | .waiting w =>
      if w = .asleep ∨ n.workMtx ≠ none then none
      else if n.workCount = 0 then
        some { n.setTask t { n.tasks t with starter := .working .entered } with
          workCount := n.workCount + 1
          workTaskId := t }
      else if (n.tasks t).flag = some true then
        some (n.setTask t { n.tasks t with starter := .ended })
      else some (n.setTask t { n.tasks t with starter := .waiting .asleep })
    | _ => none
  | .makeRecv t =>
    if (n.tasks t).starter = .working .entered then
      some (n.setTask t
        { n.tasks t with starter := .working .recvMade, recv := .waiting .awake })
    else none
  | .makeSend t =>
    if (n.tasks t).starter = .working .recvMade then
      some (n.setTask t
        { n.tasks t with starter := .working .bothMade, send := .waiting .awake })
    else none
  | .joinRecv t =>
    if (n.tasks t).starter = .working .bothMade ∧ (n.tasks t).recv = .ended then
      some (n.setTask t { n.tasks t with starter := .working .recvJoined, recv := .none })
    else none
  | .joinSend t =>
    if (n.tasks t).starter = .working .recvJoined ∧ (n.tasks t).send = .ended then
      some (n.setTask t { n.tasks t with starter := .working .bothJoined, send := .none })
    else none
  | .leave t =>
    if (n.tasks t).starter = .working .bothJoined ∧ n.workMtx = none then
      some ({ n.setTask t { n.tasks t with starter := .ended } with
        workCount := n.workCount - 1 }.notifyAll TaskThreads.notifyStarter)
    else none
  | .recvTest t =>
    match (n.tasks t).recv with
    | .waiting w =>
      if w = .asleep then none
      else if (n.tasks t).flag = some true then
        some (n.setTask t { n.tasks t with recv := .ended })
      else
        match n.buffer with
        | frame :: rest =>
          some { n.setTask t { n.tasks t with recv := .holding frame } with buffer := rest }
        | [] => some (n.setTask t { n.tasks t with recv := .waiting .asleep })
    | _ => none
  | .store t =>
    match (n.tasks t).recv with
    | .holding frame =>
      some { n.setTask t { n.tasks t with recv := .waiting .awake } with
        received := n.received ++ [frame] }
    | _ => none
  | .sendTest t =>
    match (n.tasks t).send with
    | .waiting w =>
      if w = .asleep then none
      else if (n.tasks t).flag = some true then
        some (n.setTask t { n.tasks t with send := .ended })
      else if n.sendBuffer ≠ [] then
        some { n.setTask t { n.tasks t with send := .holding n.sendBuffer } with sendBuffer := [] }
      else some (n.setTask t { n.tasks t with send := .waiting .asleep })
    | _ => none
  | .write t =>
    match (n.tasks t).send with
    | .holding data =>
      some { n.setTask t { n.tasks t with send := .waiting .awake } with sent := n.sent ++ data }
    | _ => none
  | .stop t =>
    if (n.tasks t).caller = .started ∧ n.taskMtx = none then
      some { n.setTask t { n.tasks t with caller := .locked } with
        taskMtx := some t
        taskCount := n.taskCount - 1 }
    else none
  | .gotLock t =>
    if (n.tasks t).caller = .locked then
      some { n.setTask t { n.tasks t with caller := .unlocked } with taskMtx := none }
    else none
  | .setFlag t =>
    if (n.tasks t).caller = .unlocked then
      -- a flag is set only where there is one
      let flag := if (n.tasks t).flag = some false then some true else (n.tasks t).flag
      some (n.setTask t { n.tasks t with caller := .flagged, flag })
    else none
  | .compare t =>
    if (n.tasks t).caller = .flagged ∧ n.workMtx = none then
      if n.workTaskId = t then
        some { n.setTask t { n.tasks t with caller := .toSend } with workMtx := some t }
      else
        some ((n.setTask t { n.tasks t with caller := .signalled }).notifyAll
          TaskThreads.notifyStarter)
    else none
  | .signalSend t =>
    if (n.tasks t).caller = .toSend then
      some ((n.setTask t { n.tasks t with caller := .toRecv }).notifyAll TaskThreads.notifySend)
    else none
  | .signalRecv t =>
    if (n.tasks t).caller = .toRecv then
      some ({ n.setTask t { n.tasks t with caller := .signalled } with
        workMtx := none }.notifyAll TaskThreads.notifyRecv)
    else none
  | .detach t =>
    if (n.tasks t).caller = .signalled then
      some (n.setTask t
        { n.tasks t with caller := .detached (n.tasks t).listed, listed := false })
    else none
  | .join t =>
    if (n.tasks t).caller = .detached true ∧ (n.tasks t).starter = .ended then
      some (n.setTask t { n.tasks t with caller := .joined, starter := .none })
    else none
  | .delist t =>
    if (n.tasks t).caller = .joined then
      some (n.setTask t { n.tasks t with caller := .out, flag := none })
    else none
  | .wakeCaller t =>
    if (n.tasks t).caller = .waiting .asleep then
      some (n.setTask t { n.tasks t with caller := .waiting .awake })
    else none
  | .wakeStarter t =>
    if (n.tasks t).starter = .waiting .asleep then
      some (n.setTask t { n.tasks t with starter := .waiting .awake })
    else none
  | .wakeRecv t =>
    if (n.tasks t).recv = .waiting .asleep then
      some (n.setTask t { n.tasks t with recv := .waiting .awake })
    else none
  | .wakeSend t =>
    if (n.tasks t).send = .waiting .asleep then
      some (n.setTask t { n.tasks t with send := .waiting .awake })
    else none
  | .put data => some (n.put data)
  | .arrive frame => some { n with buffer := n.buffer ++ [frame] }
  | .arrived => some (n.notifyAll TaskThreads.notifyRecv)

/-- The task that works. -/
def worker (n : ConnThreads) : Option Bytes := if n.workCount = 0 then none else some n.workTaskId

end ConnThreads

/-! ## The invariant -/

namespace TaskThreads

/-- The thread of `do_start` is there, and has put its flag into `stop_works_`. -/
def Enlisted (x : TaskThreads) : Prop := x.starter ≠ .none ∧ x.starter ≠ .made

/-- The thread is there, and puts its flag into `stop_works_` when it begins. -/
def Enlists (x : TaskThreads) : Prop :=
  x.starter ≠ .none ∧ x.flag = if x.starter = .made then none else some false

/-- What is there at each place of `start` and `stop`. -/
def CallFits (x : TaskThreads) : Prop :=
  match x.caller with
  | .out | .counted => x.starter = .none ∧ x.flag = none ∧ x.listed = false
  | .spawned => x.Enlists ∧ x.listed = false
  | .waiting _ => x.Enlists ∧ x.listed = true
  | .started | .locked | .unlocked => x.Enlisted ∧ x.flag = some false ∧ x.listed = true
  | .flagged | .toSend | .toRecv | .signalled => x.Enlisted ∧ x.flag = some true ∧ x.listed = true
  | .detached found => x.Enlisted ∧ x.flag = some true ∧ x.listed = false ∧ found = true
  | .joined => x.starter = .none ∧ x.flag = some true ∧ x.listed = false

theorem Enlists.flag_ne {x : TaskThreads} (h : x.Enlists) : x.flag ≠ some true := by
  rw [h.2]
  split <;> simp

end TaskThreads

/-- The threads of the task `t`, when `worker` works. -/
structure Fits (worker : Option Bytes) (t : Bytes) (x : TaskThreads) : Prop where
  working : x.starter.isWorking = true ↔ worker = some t
  /-- a thread sleeps on `work_cv_` only while somebody works -/
  busy : x.starter = .waiting .asleep → worker ≠ none
  recvOn : x.recv ≠ .none → x.starter = .working .recvMade ∨ x.starter = .working .bothMade
  sendOn : x.send ≠ .none → x.starter = .working .bothMade ∨ x.starter = .working .recvJoined
  call : x.CallFits
  starterHeard : Heard (x.starter = .waiting .asleep) (x.flag = some true) (x.caller = .flagged)
  recvHeard : Heard (x.recv = .waiting .asleep) (x.flag = some true)
    (x.caller = .flagged ∨ x.caller = .toSend ∨ x.caller = .toRecv)
  sendHeard : Heard (x.send = .waiting .asleep) (x.flag = some true)
    (x.caller = .flagged ∨ x.caller = .toSend)

theorem fits_start (t : Bytes) : Fits none t {} := by
  constructor <;> simp [TaskThreads.CallFits, StarterThread.isWorking, Heard]

variable {w : Option Bytes} {t : Bytes} {x : TaskThreads}

/-! ### The caller -/

/-- A step of the caller while the stop flag is not set. -/
theorem Fits.call_unflagged (h : Fits w t x) (hflag : x.flag ≠ some true) {c : Caller}
    {listed : Bool} (hcall : TaskThreads.CallFits { x with caller := c, listed }) :
    Fits w t { x with caller := c, listed } where
  working := h.working
  busy := h.busy
  recvOn := h.recvOn
  sendOn := h.sendOn
  call := hcall
  starterHeard := fun _ hset => absurd hset hflag
  recvHeard := fun _ hset => absurd hset hflag
  sendHeard := fun _ hset => absurd hset hflag

/-- A step of the caller when nothing of the task sleeps any more. -/
theorem Fits.call_signalled (h : Fits w t x) (hstarter : x.starter ≠ .waiting .asleep)
    (hrecv : x.recv ≠ .waiting .asleep) (hsend : x.send ≠ .waiting .asleep) {c : Caller}
    {listed : Bool} (hcall : TaskThreads.CallFits { x with caller := c, listed }) :
    Fits w t { x with caller := c, listed } where
  working := h.working
  busy := h.busy
  recvOn := h.recvOn
  sendOn := h.sendOn
  call := hcall
  starterHeard := fun hasleep => absurd hasleep hstarter
  recvHeard := fun hasleep => absurd hasleep hrecv
  sendHeard := fun hasleep => absurd hasleep hsend

theorem Fits.spawn (h : Fits w t x) (hc : x.caller = .counted) :
    Fits w t { x with caller := .spawned, starter := .made } := by
  obtain ⟨hnone, hflag, hlisted⟩ : x.starter = .none ∧ x.flag = none ∧ x.listed = false := by
    simpa [TaskThreads.CallFits, hc] using h.call
  have hw : w ≠ some t := fun hw => by simpa [hnone, StarterThread.isWorking] using h.working.mpr hw
  have hrecv : x.recv = .none := by
    by_contra hne
    simpa [hnone] using h.recvOn hne
  have hsend : x.send = .none := by
    by_contra hne
    simpa [hnone] using h.sendOn hne
  constructor <;>
    simp [TaskThreads.CallFits, TaskThreads.Enlists, StarterThread.isWorking, Heard, *]

theorem Fits.setFlag (h : Fits w t x) (hc : x.caller = .unlocked) :
    Fits w t { x with caller := .flagged, flag := some true } := by
  obtain ⟨henlisted, -, hlisted⟩ : x.Enlisted ∧ x.flag = some false ∧ x.listed = true := by
    simpa [TaskThreads.CallFits, hc] using h.call
  exact {
    working := h.working
    busy := h.busy
    recvOn := h.recvOn
    sendOn := h.sendOn
    call := ⟨henlisted, rfl, hlisted⟩
    starterHeard := fun _ _ => rfl
    recvHeard := fun _ _ => .inl rfl
    sendHeard := fun _ _ => .inl rfl }

/-- In `toSend`, the thread is not in the wait that was left out. -/
theorem Fits.toSend (h : Fits w t x) (hc : x.caller = .flagged)
    (hstarter : x.starter ≠ .waiting .asleep) : Fits w t { x with caller := .toSend } where
  working := h.working
  busy := h.busy
  recvOn := h.recvOn
  sendOn := h.sendOn
  call := by
    have hcall := h.call
    rw [TaskThreads.CallFits, hc] at hcall
    exact hcall
  starterHeard := fun hasleep => absurd hasleep hstarter
  recvHeard := fun _ _ => .inr (.inl rfl)
  sendHeard := fun _ _ => .inr rfl

/-- In `toRecv`, `send_buffer_cv_` has been notified. -/
theorem Fits.toRecv (h : Fits w t x) (hc : x.caller = .toSend) (hsend : x.send ≠ .waiting .asleep) :
    Fits w t { x with caller := .toRecv } where
  working := h.working
  busy := h.busy
  recvOn := h.recvOn
  sendOn := h.sendOn
  call := by
    have hcall := h.call
    rw [TaskThreads.CallFits, hc] at hcall
    exact hcall
  starterHeard := fun hasleep hset => by simpa [hc] using h.starterHeard hasleep hset
  recvHeard := fun _ _ => .inr (.inr rfl)
  sendHeard := fun hasleep => absurd hasleep hsend

/-- Nothing of the task sleeps behind the signals of its `do_stop`. -/
theorem Fits.not_asleep (h : Fits w t x) (hset : x.flag = some true)
    (hflagged : x.caller ≠ .flagged) (hsend : x.caller ≠ .toSend) (hrecv : x.caller ≠ .toRecv) :
    x.starter ≠ .waiting .asleep ∧ x.recv ≠ .waiting .asleep ∧ x.send ≠ .waiting .asleep := by
  refine ⟨fun hasleep => ?_, fun hasleep => ?_, fun hasleep => ?_⟩
  · exact hflagged (h.starterHeard hasleep hset)
  · rcases h.recvHeard hasleep hset with hc | hc | hc
    · exact hflagged hc
    · exact hsend hc
    · exact hrecv hc
  · rcases h.sendHeard hasleep hset with hc | hc
    · exact hflagged hc
    · exact hsend hc

/-- A task that sleeps on `work_cv_` is not the one that works, and then it has no loops. -/
theorem Fits.loops_of_not_working (h : Fits w t x) (hw : w ≠ some t) :
    x.recv = .none ∧ x.send = .none := by
  have hnot : ∀ p, x.starter ≠ .working p := by
    intro p hp
    exact hw (h.working.mp (by simp [hp, StarterThread.isWorking]))
  constructor
  · by_contra hne
    exact (h.recvOn hne).elim (hnot _) (hnot _)
  · by_contra hne
    exact (h.sendOn hne).elim (hnot _) (hnot _)

theorem Fits.join (h : Fits w t x) (hc : x.caller = .detached true) (hs : x.starter = .ended) :
    Fits w t { x with caller := .joined, starter := .none } := by
  obtain ⟨-, hflag, hlisted, -⟩ :
      x.Enlisted ∧ x.flag = some true ∧ x.listed = false ∧ true = true := by
    simpa [TaskThreads.CallFits, hc] using h.call
  have hw : w ≠ some t := fun hw => by simpa [hs, StarterThread.isWorking] using h.working.mpr hw
  obtain ⟨hrecv, hsend⟩ := h.loops_of_not_working hw
  constructor <;> simp [TaskThreads.CallFits, StarterThread.isWorking, Heard, *]

theorem Fits.delist (h : Fits w t x) (hc : x.caller = .joined) :
    Fits w t { x with caller := .out, flag := none } := by
  obtain ⟨hs, hflag, hlisted⟩ : x.starter = .none ∧ x.flag = some true ∧ x.listed = false := by
    simpa [TaskThreads.CallFits, hc] using h.call
  have hw : w ≠ some t := fun hw => by simpa [hs, StarterThread.isWorking] using h.working.mpr hw
  obtain ⟨hrecv, hsend⟩ := h.loops_of_not_working hw
  constructor <;> simp [TaskThreads.CallFits, StarterThread.isWorking, Heard, *]

/-! ### The thread of `do_start` -/

theorem TaskThreads.CallFits.of_starter (h : x.CallFits) (henlisted : x.Enlisted) {s : StarterThread}
    (hnone : s ≠ .none) (hmade : s ≠ .made) : TaskThreads.CallFits { x with starter := s } := by
  obtain ⟨hnone', hmade'⟩ := henlisted
  unfold TaskThreads.CallFits TaskThreads.Enlists TaskThreads.Enlisted at *
  cases hc : x.caller <;> simp_all

theorem Fits.enlist (h : Fits w t x) (hs : x.starter = .made) :
    Fits w t { x with starter := .waiting .awake, flag := some (x.flag.getD false) } := by
  have hcall := h.call
  have hw : w ≠ some t := fun hw => by simpa [hs, StarterThread.isWorking] using h.working.mpr hw
  obtain ⟨hrecv, hsend⟩ := h.loops_of_not_working hw
  constructor
  case call =>
    unfold TaskThreads.CallFits TaskThreads.Enlists TaskThreads.Enlisted at *
    cases hc : x.caller <;> simp_all
  all_goals simp [StarterThread.isWorking, Heard, *]

/-- The thread goes on in the wait, or out of `do_start`. -/
theorem Fits.starterTo (h : Fits w t x) (henlisted : x.Enlisted)
    (hworking : x.starter.isWorking = false) {s : StarterThread} (hnone : s ≠ .none)
    (hmade : s ≠ .made) (hs : s.isWorking = false)
    (hasleep : s = .waiting .asleep → w ≠ none ∧ x.flag ≠ some true) :
    Fits w t { x with starter := s } := by
  have hw : w ≠ some t := by
    rintro rfl
    have hon := h.working.mpr rfl
    simp [hon] at hworking
  obtain ⟨hrecv, hsend⟩ := h.loops_of_not_working hw
  exact {
    working := by simp [hs, hw]
    busy := fun h => (hasleep h).1
    recvOn := fun hne => absurd hrecv hne
    sendOn := fun hne => absurd hsend hne
    call := h.call.of_starter henlisted hnone hmade
    starterHeard := fun h hset => absurd hset (hasleep h).2
    recvHeard := h.recvHeard
    sendHeard := h.sendHeard }

/-- The worker goes on with its loops. -/
theorem Fits.work (h : Fits w t x) {p p' : Working} (hp : x.starter = .working p)
    {recv : LoopThread (Bytes × Bytes)} {send : LoopThread Bytes}
    (hrecvOn : recv ≠ .none → p' = .recvMade ∨ p' = .bothMade)
    (hsendOn : send ≠ .none → p' = .bothMade ∨ p' = .recvJoined)
    (hrecv : recv = .waiting .asleep → x.recv = .waiting .asleep)
    (hsend : send = .waiting .asleep → x.send = .waiting .asleep) :
    Fits w t { x with starter := .working p', recv, send } where
  working := by simpa [hp, StarterThread.isWorking] using h.working
  busy := fun hasleep => by cases hasleep
  recvOn := fun hne => (hrecvOn hne).imp (congrArg _) (congrArg _)
  sendOn := fun hne => (hsendOn hne).imp (congrArg _) (congrArg _)
  call := h.call.of_starter (by simp [TaskThreads.Enlisted, hp]) (by simp) (by simp)
  starterHeard := fun hasleep => by cases hasleep
  recvHeard := fun hasleep => h.recvHeard (hrecv hasleep)
  sendHeard := fun hasleep => h.sendHeard (hsend hasleep)

/-- A task becomes the worker. -/
theorem Fits.take (h : Fits none t x) (henlisted : x.Enlisted) :
    Fits (some t) t { x with starter := .working .entered } := by
  obtain ⟨hrecv, hsend⟩ := h.loops_of_not_working (by simp)
  exact {
    working := by simp [StarterThread.isWorking]
    busy := fun hasleep => by cases hasleep
    recvOn := fun hne => absurd hrecv hne
    sendOn := fun hne => absurd hsend hne
    call := h.call.of_starter henlisted (by simp) (by simp)
    starterHeard := fun hasleep => by cases hasleep
    recvHeard := h.recvHeard
    sendHeard := h.sendHeard }

/-- The worker leaves. -/
theorem Fits.leave (h : Fits (some t) t x) (hs : x.starter = .working .bothJoined) :
    Fits none t { x with starter := .ended } := by
  have hrecv : x.recv = .none := by
    by_contra hne
    simpa [hs] using h.recvOn hne
  have hsend : x.send = .none := by
    by_contra hne
    simpa [hs] using h.sendOn hne
  exact {
    working := by simp [StarterThread.isWorking]
    busy := fun hasleep => by cases hasleep
    recvOn := fun hne => absurd hrecv hne
    sendOn := fun hne => absurd hsend hne
    call := h.call.of_starter (by simp [TaskThreads.Enlisted, hs]) (by simp) (by simp)
    starterHeard := fun hasleep => by cases hasleep
    recvHeard := h.recvHeard
    sendHeard := h.sendHeard }

/-- Somebody else becomes the worker, or leaves and wakes all that sleep. -/
theorem Fits.other (h : Fits w t x) (w' : Option Bytes) (hw : w ≠ some t) (hw' : w' ≠ some t)
    (hbusy : x.starter = .waiting .asleep → w' ≠ none) : Fits w' t x where
  working := (iff_of_false (fun hon => hw (h.working.mp hon)) hw')
  busy := hbusy
  recvOn := h.recvOn
  sendOn := h.sendOn
  call := h.call
  starterHeard := h.starterHeard
  recvHeard := h.recvHeard
  sendHeard := h.sendHeard

/-! ### The loops -/

theorem Fits.recvTo (h : Fits w t x) (hon : x.recv ≠ .none) {l : LoopThread (Bytes × Bytes)}
    (hl : l = .waiting .asleep → x.flag ≠ some true) : Fits w t { x with recv := l } where
  working := h.working
  busy := h.busy
  recvOn := fun _ => h.recvOn hon
  sendOn := h.sendOn
  call := h.call
  starterHeard := h.starterHeard
  recvHeard := fun hasleep hset => absurd hset (hl hasleep)
  sendHeard := h.sendHeard

theorem Fits.sendTo (h : Fits w t x) (hon : x.send ≠ .none) {l : LoopThread Bytes}
    (hl : l = .waiting .asleep → x.flag ≠ some true) : Fits w t { x with send := l } where
  working := h.working
  busy := h.busy
  recvOn := h.recvOn
  sendOn := fun _ => h.sendOn hon
  call := h.call
  starterHeard := h.starterHeard
  recvHeard := h.recvHeard
  sendHeard := fun hasleep hset => absurd hset (hl hasleep)

/-! ### Notifications -/

@[simp] theorem LoopThread.notify_ne_asleep {α : Type} (l : LoopThread α) :
    l.notify ≠ .waiting .asleep := by
  cases l <;> simp [LoopThread.notify]

@[simp] theorem LoopThread.notify_eq_none {α : Type} {l : LoopThread α} :
    l.notify = .none ↔ l = .none := by
  cases l <;> simp [LoopThread.notify]

@[simp] theorem StarterThread.notify_ne_asleep (s : StarterThread) :
    s.notify ≠ .waiting .asleep := by
  cases s <;> simp [StarterThread.notify]

@[simp] theorem StarterThread.isWorking_notify (s : StarterThread) :
    s.notify.isWorking = s.isWorking := by
  cases s <;> rfl

theorem StarterThread.notify_of_ne {s : StarterThread} (h : ∀ w, s ≠ .waiting w) :
    s.notify = s := by
  cases s with
  | waiting w => exact absurd rfl (h w)
  | none | made | working | ended => rfl

theorem Caller.notify_of_ne {c : Caller} (h : ∀ w, c ≠ .waiting w) : c.notify = c := by
  cases c with
  | waiting w => exact absurd rfl (h w)
  | _ => rfl

theorem Fits.notifyRecv (h : Fits w t x) : Fits w t x.notifyRecv where
  working := h.working
  busy := h.busy
  recvOn := fun hne => h.recvOn fun hnone => hne (LoopThread.notify_eq_none.mpr hnone)
  sendOn := h.sendOn
  call := h.call
  starterHeard := h.starterHeard
  recvHeard := fun hasleep => absurd hasleep (LoopThread.notify_ne_asleep _)
  sendHeard := h.sendHeard

theorem Fits.notifySend (h : Fits w t x) : Fits w t x.notifySend where
  working := h.working
  busy := h.busy
  recvOn := h.recvOn
  sendOn := fun hne => h.sendOn fun hnone => hne (LoopThread.notify_eq_none.mpr hnone)
  call := h.call
  starterHeard := h.starterHeard
  recvHeard := h.recvHeard
  sendHeard := fun hasleep => absurd hasleep (LoopThread.notify_ne_asleep _)

theorem Fits.notifyCaller (h : Fits w t x) : Fits w t x.notifyCaller := by
  by_cases hc : ∃ v, x.caller = .waiting v
  · obtain ⟨v, hv⟩ := hc
    have hcall := h.call
    rw [TaskThreads.CallFits, hv] at hcall
    refine h.call_unflagged (c := x.caller.notify) hcall.1.flag_ne ?_
    rw [hv]
    exact hcall
  · have hsame : x.notifyCaller = x := by
      rw [TaskThreads.notifyCaller, Caller.notify_of_ne fun v hv => hc ⟨v, hv⟩]
    rw [hsame]
    exact h

theorem Fits.notifyStarter (h : Fits w t x) : Fits w t x.notifyStarter := by
  by_cases hs : ∃ v, x.starter = .waiting v
  · obtain ⟨v, hv⟩ := hs
    refine h.starterTo (by simp [TaskThreads.Enlisted, hv]) ?_ ?_ ?_ ?_ fun hasleep => ?_
    · simp [hv, StarterThread.isWorking]
    · simp [hv, StarterThread.notify]
    · simp [hv, StarterThread.notify]
    · simp [hv, StarterThread.notify, StarterThread.isWorking]
    · exact absurd hasleep (StarterThread.notify_ne_asleep _)
  · have hsame : x.notifyStarter = x := by
      rw [TaskThreads.notifyStarter, StarterThread.notify_of_ne fun v hv => hs ⟨v, hv⟩]
    rw [hsame]
    exact h

/-! ## The steps -/

namespace ConnThreads

structure Held (n : ConnThreads) : Prop where
  fits : ∀ t, Fits n.worker t (n.tasks t)
  le_one : n.workCount ≤ 1

theorem held_start : Held {} := ⟨fits_start, Nat.zero_le 1⟩

variable {n n' : ConnThreads} {u : Bytes}

/-- The threads of one task change. -/
theorem Held.set {y : TaskThreads} (h : n.Held) (hy : Fits n.worker u y)
    (htasks : n'.tasks = Function.update n.tasks u y) (hcount : n'.workCount = n.workCount)
    (hid : n'.workTaskId = n.workTaskId) : n'.Held := by
  have hworker : n'.worker = n.worker := by rw [worker, worker, hcount, hid]
  refine ⟨fun v => ?_, hcount ▸ h.le_one⟩
  rw [hworker, htasks]
  by_cases hv : v = u
  · subst hv
    simpa using hy
  · simpa [hv] using h.fits v

theorem Held.notifyAll (h : n.Held) {f : TaskThreads → TaskThreads}
    (hf : ∀ w t x, Fits w t x → Fits w t (f x)) : (n.notifyAll f).Held :=
  ⟨fun t => hf _ t _ (h.fits t), h.le_one⟩

theorem notifyAll_setTask (t : Bytes) (x : TaskThreads) (f : TaskThreads → TaskThreads) :
    (n.setTask t x).notifyAll f = (n.notifyAll f).setTask t (f x) := by
  unfold ConnThreads.notifyAll setTask
  congr 1
  funext v
  by_cases hv : v = t
  · subst hv
    simp
  · simp [hv]

theorem Held.put (h : n.Held) (data : Bytes) : (n.put data).Held :=
  ⟨fun t => (h.fits t).notifySend, h.le_one⟩

/-- The one who works is the last one who has worked. -/
theorem workTaskId_of_worker {t : Bytes} (h : n.worker = some t) : n.workTaskId = t := by
  unfold worker at h
  split at h
  · cases h
  · exact Option.some.inj h

/-- The task that has worked last does not sleep on `work_cv_`. -/
theorem Held.not_asleep (h : n.Held) {t : Bytes} (hid : n.workTaskId = t) :
    (n.tasks t).starter ≠ .waiting .asleep := by
  intro hasleep
  have hbusy := (h.fits t).busy hasleep
  have hworker : n.worker = some t := by
    unfold worker at hbusy ⊢
    split at hbusy
    · exact absurd rfl hbusy
    · next hcount => rw [if_neg hcount, hid]
  have hon := (h.fits t).working.mpr hworker
  simp [hasleep, StarterThread.isWorking] at hon

/-- The worker has left, so that nobody works, and all that slept are notified. -/
theorem Held.leave (h : n.Held) {t : Bytes} (hs : (n.tasks t).starter = .working .bothJoined) :
    Held ({ n.setTask t { n.tasks t with starter := .ended } with
      workCount := n.workCount - 1 }.notifyAll TaskThreads.notifyStarter) := by
  have hworker : n.worker = some t :=
    (h.fits t).working.mp (by simp [hs, StarterThread.isWorking])
  have hone := h.le_one
  refine ⟨fun v => ?_, Nat.le_trans (Nat.sub_le _ _) hone⟩
  have hnone : ConnThreads.worker { n.setTask t { n.tasks t with starter := .ended } with
      workCount := n.workCount - 1 } = none := if_pos (by simp only; omega)
  show Fits (ConnThreads.worker { n.setTask t { n.tasks t with starter := .ended } with
    workCount := n.workCount - 1 }) v _
  rw [hnone]
  by_cases hv : v = t
  · subst hv
    have hleft := ((hworker ▸ h.fits v).leave hs).notifyStarter
    simpa [setTask, ConnThreads.notifyAll] using hleft
  · have hother := (h.fits v).notifyStarter.other none
      (fun heq => hv (Option.some.inj (heq.symm.trans hworker))) (by simp)
      fun hasleep => absurd hasleep (StarterThread.notify_ne_asleep _)
    simpa [setTask, ConnThreads.notifyAll, hv] using hother

/-- Nobody works, and a task becomes the worker. -/
theorem Held.take (h : n.Held) {t : Bytes} (hcount : n.workCount = 0)
    (henlisted : (n.tasks t).Enlisted) :
    Held { n.setTask t { n.tasks t with starter := .working .entered } with
      workCount := n.workCount + 1
      workTaskId := t } := by
  have hnone : n.worker = none := if_pos hcount
  refine ⟨fun v => ?_, by simp only; omega⟩
  have hworker : ConnThreads.worker { n.setTask t { n.tasks t with starter := .working .entered } with
      workCount := n.workCount + 1
      workTaskId := t } = some t := if_neg (by simp)
  rw [hworker]
  by_cases hv : v = t
  · subst hv
    simpa [setTask] using (hnone ▸ h.fits v).take henlisted
  · have hother := (h.fits v).other (some t) (by simp [hnone])
      (fun heq => hv (Option.some.inj heq).symm) (by simp)
    simpa [setTask, hv] using hother

/-- The test of the wait in `start`. -/
theorem Held.startTest (h : n.Held) {t : Bytes} (hstep : n.step (.startTest t) = some n') :
    n'.Held := by
  simp only [step] at hstep
  split at hstep
  · next w hw =>
    have hcall := (h.fits t).call
    rw [TaskThreads.CallFits, hw] at hcall
    split at hstep
    · cases hstep
    · split at hstep
      · next hflag =>
        obtain rfl := Option.some.inj hstep
        have hmade : (n.tasks t).starter ≠ .made := by
          intro hmade
          simp [hcall.1.2, hmade] at hflag
        refine h.set ((h.fits t).call_unflagged ?_ ?_) rfl rfl rfl
        · simp [hflag]
        · exact ⟨⟨hcall.1.1, hmade⟩, hflag, hcall.2⟩
      · obtain rfl := Option.some.inj hstep
        refine h.set ((h.fits t).call_unflagged ?_ ?_) rfl rfl rfl
        · exact hcall.1.flag_ne
        · exact hcall
  · cases hstep

/-- The test of the wait on `work_cv_`. -/
theorem Held.workTest (h : n.Held) {t : Bytes} (hstep : n.step (.workTest t) = some n') :
    n'.Held := by
  simp only [step] at hstep
  split at hstep
  · next w hw =>
    have henlisted : (n.tasks t).Enlisted := by simp [TaskThreads.Enlisted, hw]
    have hidle : (n.tasks t).starter.isWorking = false := by simp [hw, StarterThread.isWorking]
    split at hstep
    · cases hstep
    · split at hstep
      · next hcount =>
        obtain rfl := Option.some.inj hstep
        exact h.take hcount henlisted
      · next hcount =>
        split at hstep
        · obtain rfl := Option.some.inj hstep
          exact h.set ((h.fits t).starterTo henlisted hidle (by simp) (by simp) rfl (by simp)) rfl
            rfl rfl
        · next hflag =>
          obtain rfl := Option.some.inj hstep
          refine h.set ((h.fits t).starterTo henlisted hidle (by simp) (by simp) rfl fun _ => ?_)
            rfl rfl rfl
          exact ⟨by simp [worker, hcount], hflag⟩
  · cases hstep

/-- The test in `loop_recv`. -/
theorem Held.recvTest (h : n.Held) {t : Bytes} (hstep : n.step (.recvTest t) = some n') :
    n'.Held := by
  simp only [step] at hstep
  split at hstep
  · next w hw =>
    have hon : (n.tasks t).recv ≠ .none := by simp [hw]
    split at hstep
    · cases hstep
    · split at hstep
      · obtain rfl := Option.some.inj hstep
        exact h.set ((h.fits t).recvTo hon (by simp)) rfl rfl rfl
      · next hflag =>
        split at hstep
        · obtain rfl := Option.some.inj hstep
          exact h.set ((h.fits t).recvTo hon (by simp)) rfl rfl rfl
        · obtain rfl := Option.some.inj hstep
          exact h.set ((h.fits t).recvTo hon fun _ => hflag) rfl rfl rfl
  · cases hstep

/-- The test in `loop_send`. -/
theorem Held.sendTest (h : n.Held) {t : Bytes} (hstep : n.step (.sendTest t) = some n') :
    n'.Held := by
  simp only [step] at hstep
  split at hstep
  · next w hw =>
    have hon : (n.tasks t).send ≠ .none := by simp [hw]
    split at hstep
    · cases hstep
    · split at hstep
      · obtain rfl := Option.some.inj hstep
        exact h.set ((h.fits t).sendTo hon (by simp)) rfl rfl rfl
      · next hflag =>
        split at hstep
        · obtain rfl := Option.some.inj hstep
          exact h.set ((h.fits t).sendTo hon (by simp)) rfl rfl rfl
        · obtain rfl := Option.some.inj hstep
          exact h.set ((h.fits t).sendTo hon fun _ => hflag) rfl rfl rfl
  · cases hstep

/-- `do_stop` compares `work_task_id_`. -/
theorem Held.compare (h : n.Held) {t : Bytes} (hstep : n.step (.compare t) = some n') :
    n'.Held := by
  simp only [step] at hstep
  split at hstep
  · next hguard =>
    split at hstep
    · next hid =>
      obtain rfl := Option.some.inj hstep
      exact h.set ((h.fits t).toSend hguard.1 (h.not_asleep hid)) rfl rfl rfl
    · next hid =>
      obtain rfl := Option.some.inj hstep
      -- the task does not work, so it is the wait on `work_cv_` that has to be left
      obtain ⟨hrecv, hsend⟩ := (h.fits t).loops_of_not_working fun hw =>
        hid (workTaskId_of_worker hw)
      have hfits := (h.fits t).notifyStarter
      have hc : (n.tasks t).notifyStarter.caller = .flagged := hguard.1
      have hcall := hfits.call
      rw [TaskThreads.CallFits, hc] at hcall
      refine (h.notifyAll fun _ _ _ h => h.notifyStarter).set (hfits.call_signalled ?_ ?_ ?_ ?_)
        (congrArg tasks (notifyAll_setTask t _ _)) rfl rfl
      · exact StarterThread.notify_ne_asleep _
      · simp [TaskThreads.notifyStarter, hrecv]
      · simp [TaskThreads.notifyStarter, hsend]
      · exact hcall
  · cases hstep

/-- `do_stop` signals `buffer_cv_`, and all three waits have been signalled. -/
theorem Held.signalRecv (h : n.Held) {t : Bytes} (hstep : n.step (.signalRecv t) = some n') :
    n'.Held := by
  simp only [step, Option.ite_none_right_eq_some, Option.some.injEq] at hstep
  obtain ⟨hc, rfl⟩ := hstep
  have hcall := (h.fits t).call
  rw [TaskThreads.CallFits, hc] at hcall
  refine (h.notifyAll fun _ _ _ h => h.notifyRecv).set
    ((h.fits t).notifyRecv.call_signalled ?_ ?_ ?_ ?_)
    (congrArg tasks (notifyAll_setTask t _ _)) rfl rfl
  · intro hasleep
    simpa [hc] using (h.fits t).starterHeard hasleep hcall.2.1
  · exact LoopThread.notify_ne_asleep _
  · intro hasleep
    simpa [hc] using (h.fits t).sendHeard hasleep hcall.2.1
  · exact hcall

/-- **One step** of any of the threads. -/
theorem held_step {a : ThreadAct} (h : n.Held) (hstep : n.step a = some n') : n'.Held := by
  cases a with
  | start t =>
    simp only [step] at hstep
    split at hstep
    · next hguard =>
      obtain rfl := Option.some.inj hstep
      have hput := h.put (frameBytes (lockId t) lockMsg)
      have hout : ((n.put (frameBytes (lockId t) lockMsg)).tasks t).caller = .out := hguard.1
      have hcall := (hput.fits t).call
      rw [TaskThreads.CallFits, hout] at hcall
      refine hput.set ((hput.fits t).call_unflagged ?_ ?_) rfl rfl rfl
      · simp [hcall.2.1]
      · exact hcall
    · cases hstep
  | spawn t =>
    simp only [step, Option.ite_none_right_eq_some, Option.some.injEq] at hstep
    obtain ⟨hc, rfl⟩ := hstep
    exact h.set ((h.fits t).spawn hc) rfl rfl rfl
  | list t =>
    simp only [step, Option.ite_none_right_eq_some, Option.some.injEq] at hstep
    obtain ⟨hc, rfl⟩ := hstep
    have hcall := (h.fits t).call
    rw [TaskThreads.CallFits, hc] at hcall
    refine h.set ((h.fits t).call_unflagged ?_ ?_) rfl rfl rfl
    · exact hcall.1.flag_ne
    · exact ⟨hcall.1, rfl⟩
  | startTest t => exact h.startTest hstep
  | enlist t =>
    simp only [step, Option.ite_none_right_eq_some, Option.some.injEq] at hstep
    obtain ⟨hs, rfl⟩ := hstep
    have hset : Held (n.setTask t { n.tasks t with
        starter := .waiting .awake
        flag := some ((n.tasks t).flag.getD false) }) := h.set ((h.fits t).enlist hs) rfl rfl rfl
    exact hset.notifyAll fun _ _ _ h => h.notifyCaller
  | workTest t => exact h.workTest hstep
  | makeRecv t =>
    simp only [step, Option.ite_none_right_eq_some, Option.some.injEq] at hstep
    obtain ⟨hs, rfl⟩ := hstep
    refine h.set ((h.fits t).work hs (fun _ => .inl rfl) (fun hne => ?_) (by simp) id) rfl rfl rfl
    have hon := (h.fits t).sendOn hne
    simp [hs] at hon
  | makeSend t =>
    simp only [step, Option.ite_none_right_eq_some, Option.some.injEq] at hstep
    obtain ⟨hs, rfl⟩ := hstep
    exact h.set ((h.fits t).work hs (fun _ => .inr rfl) (fun _ => .inl rfl) id (by simp)) rfl rfl
      rfl
  | joinRecv t =>
    simp only [step, Option.ite_none_right_eq_some, Option.some.injEq] at hstep
    obtain ⟨⟨hs, -⟩, rfl⟩ := hstep
    exact h.set ((h.fits t).work hs (by simp) (fun _ => .inr rfl) (by simp) id) rfl rfl rfl
  | joinSend t =>
    simp only [step, Option.ite_none_right_eq_some, Option.some.injEq] at hstep
    obtain ⟨⟨hs, -⟩, rfl⟩ := hstep
    refine h.set ((h.fits t).work hs (fun hne => ?_) (by simp) id (by simp)) rfl rfl rfl
    have hon := (h.fits t).recvOn hne
    simp [hs] at hon
  | leave t =>
    simp only [step, Option.ite_none_right_eq_some, Option.some.injEq] at hstep
    obtain ⟨⟨hs, -⟩, rfl⟩ := hstep
    exact h.leave hs
  | recvTest t => exact h.recvTest hstep
  | store t =>
    simp only [step] at hstep
    split at hstep
    · next frame hw =>
      obtain rfl := Option.some.inj hstep
      exact h.set ((h.fits t).recvTo (by simp [hw]) (by simp)) rfl rfl rfl
    · cases hstep
  | sendTest t => exact h.sendTest hstep
  | write t =>
    simp only [step] at hstep
    split at hstep
    · next data hw =>
      obtain rfl := Option.some.inj hstep
      exact h.set ((h.fits t).sendTo (by simp [hw]) (by simp)) rfl rfl rfl
    · cases hstep
  | stop t =>
    simp only [step, Option.ite_none_right_eq_some, Option.some.injEq] at hstep
    obtain ⟨⟨hc, -⟩, rfl⟩ := hstep
    have hcall := (h.fits t).call
    rw [TaskThreads.CallFits, hc] at hcall
    refine h.set ((h.fits t).call_unflagged ?_ ?_) rfl rfl rfl
    · simp [hcall.2.1]
    · exact hcall
  | gotLock t =>
    simp only [step, Option.ite_none_right_eq_some, Option.some.injEq] at hstep
    obtain ⟨hc, rfl⟩ := hstep
    have hcall := (h.fits t).call
    rw [TaskThreads.CallFits, hc] at hcall
    refine h.set ((h.fits t).call_unflagged ?_ ?_) rfl rfl rfl
    · simp [hcall.2.1]
    · exact hcall
  | setFlag t =>
    simp only [step, Option.ite_none_right_eq_some, Option.some.injEq] at hstep
    obtain ⟨hc, rfl⟩ := hstep
    have hcall := (h.fits t).call
    rw [TaskThreads.CallFits, hc] at hcall
    rw [if_pos hcall.2.1]
    exact h.set ((h.fits t).setFlag hc) rfl rfl rfl
  | compare t => exact h.compare hstep
  | signalSend t =>
    simp only [step, Option.ite_none_right_eq_some, Option.some.injEq] at hstep
    obtain ⟨hc, rfl⟩ := hstep
    exact (h.notifyAll fun _ _ _ h => h.notifySend).set
      ((h.fits t).notifySend.toRecv hc (LoopThread.notify_ne_asleep _))
      (congrArg tasks (notifyAll_setTask t _ _)) rfl rfl
  | signalRecv t => exact h.signalRecv hstep
  | detach t =>
    simp only [step, Option.ite_none_right_eq_some, Option.some.injEq] at hstep
    obtain ⟨hc, rfl⟩ := hstep
    have hcall := (h.fits t).call
    rw [TaskThreads.CallFits, hc] at hcall
    obtain ⟨hstarter, hrecv, hsend⟩ :=
      (h.fits t).not_asleep hcall.2.1 (by simp [hc]) (by simp [hc]) (by simp [hc])
    refine h.set ((h.fits t).call_signalled hstarter hrecv hsend ?_) rfl rfl rfl
    exact ⟨hcall.1, hcall.2.1, rfl, hcall.2.2⟩
  | join t =>
    simp only [step, Option.ite_none_right_eq_some, Option.some.injEq] at hstep
    obtain ⟨⟨hc, hs⟩, rfl⟩ := hstep
    exact h.set ((h.fits t).join hc hs) rfl rfl rfl
  | delist t =>
    simp only [step, Option.ite_none_right_eq_some, Option.some.injEq] at hstep
    obtain ⟨hc, rfl⟩ := hstep
    exact h.set ((h.fits t).delist hc) rfl rfl rfl
  | wakeCaller t =>
    simp only [step, Option.ite_none_right_eq_some, Option.some.injEq] at hstep
    obtain ⟨hc, rfl⟩ := hstep
    have hcall := (h.fits t).call
    rw [TaskThreads.CallFits, hc] at hcall
    refine h.set ((h.fits t).call_unflagged ?_ ?_) rfl rfl rfl
    · exact hcall.1.flag_ne
    · exact hcall
  | wakeStarter t =>
    simp only [step, Option.ite_none_right_eq_some, Option.some.injEq] at hstep
    obtain ⟨hs, rfl⟩ := hstep
    refine h.set ((h.fits t).starterTo ?_ ?_ (by simp) (by simp) rfl (by simp)) rfl rfl rfl
    · simp [TaskThreads.Enlisted, hs]
    · simp [hs, StarterThread.isWorking]
  | wakeRecv t =>
    simp only [step, Option.ite_none_right_eq_some, Option.some.injEq] at hstep
    obtain ⟨hs, rfl⟩ := hstep
    exact h.set ((h.fits t).recvTo (by simp [hs]) (by simp)) rfl rfl rfl
  | wakeSend t =>
    simp only [step, Option.ite_none_right_eq_some, Option.some.injEq] at hstep
    obtain ⟨hs, rfl⟩ := hstep
    exact h.set ((h.fits t).sendTo (by simp [hs]) (by simp)) rfl rfl rfl
  | put data =>
    cases hstep
    exact h.put data
  | arrive frame =>
    cases hstep
    exact ⟨h.fits, h.le_one⟩
  | arrived =>
    cases hstep
    exact h.notifyAll fun _ _ _ h => h.notifyRecv

/-! ## Exclusive work -/

/-- What holds of the threads of a connection at any time. -/
structure Exclusive (n : ConnThreads) : Prop where
  oneRecv : ∀ t t', (n.tasks t).recv.runs = true → (n.tasks t').recv.runs = true → t = t'
  oneSend : ∀ t t', (n.tasks t).send.runs = true → (n.tasks t').send.runs = true → t = t'
  /-- a thread is made only where there is none -/
  made : ∀ t, ((n.tasks t).caller = .counted → (n.tasks t).starter = .none) ∧
    ((n.tasks t).starter = .working .entered → (n.tasks t).recv = .none) ∧
    ((n.tasks t).starter = .working .recvMade → (n.tasks t).send = .none)
  /-- nobody sleeps on `work_cv_` while nobody works -/
  idle : n.workCount = 0 → ∀ t, (n.tasks t).starter ≠ .waiting .asleep
  /-- no thread of a task sleeps when its `do_stop` has finished signalling -/
  stopped : ∀ t, (n.tasks t).caller.hasSignalled = true →
    (n.tasks t).starter ≠ .waiting .asleep ∧ (n.tasks t).recv ≠ .waiting .asleep ∧
      (n.tasks t).send ≠ .waiting .asleep

/-- A loop runs only in the task that works. -/
theorem Held.worker_of_loop (h : n.Held) {t : Bytes}
    (hrun : (n.tasks t).recv.runs = true ∨ (n.tasks t).send.runs = true) : n.worker = some t := by
  refine (h.fits t).working.mp ?_
  rcases hrun with hrun | hrun
  · have hon : (n.tasks t).recv ≠ .none := by
      intro hnone
      simp [hnone, LoopThread.runs] at hrun
    rcases (h.fits t).recvOn hon with hs | hs
    · simp [hs, StarterThread.isWorking]
    · simp [hs, StarterThread.isWorking]
  · have hon : (n.tasks t).send ≠ .none := by
      intro hnone
      simp [hnone, LoopThread.runs] at hrun
    rcases (h.fits t).sendOn hon with hs | hs
    · simp [hs, StarterThread.isWorking]
    · simp [hs, StarterThread.isWorking]

theorem Held.exclusive (h : n.Held) : n.Exclusive where
  oneRecv t t' ht ht' :=
    Option.some.inj ((h.worker_of_loop (.inl ht)).symm.trans (h.worker_of_loop (.inl ht')))
  oneSend t t' ht ht' :=
    Option.some.inj ((h.worker_of_loop (.inr ht)).symm.trans (h.worker_of_loop (.inr ht')))
  made t := by
    refine ⟨fun hc => ?_, fun hs => ?_, fun hs => ?_⟩
    · have hcall := (h.fits t).call
      rw [TaskThreads.CallFits, hc] at hcall
      exact hcall.1
    · by_contra hon
      simpa [hs] using (h.fits t).recvOn hon
    · by_contra hon
      simpa [hs] using (h.fits t).sendOn hon
  idle hcount t hasleep := (h.fits t).busy hasleep (if_pos hcount)
  stopped t hc := by
    have hcall := (h.fits t).call
    cases hcaller : (n.tasks t).caller with
    | signalled | detached _ | joined =>
      rw [TaskThreads.CallFits, hcaller] at hcall
      refine (h.fits t).not_asleep hcall.2.1 ?_ ?_ ?_
      all_goals simp [hcaller]
    | _ =>
      rw [hcaller] at hc
      cases hc

/-- **One worker, and no wake-up is lost**, in every state that the threads of any number of tasks
can reach. -/
theorem exclusive_work {acts : List ThreadAct} (hrun : run step {} acts = some n) : n.Exclusive :=
  (run_invariant (fun _ _ _ => held_step) held_start hrun).exclusive

/-- Task 1 works and task 2 sleeps. Task 1 is stopped while its loops sleep, and task 2 takes
over. -/
theorem exclusive_work_small : ∃ acts n, run step {} acts = some n ∧
    (n.tasks [1]).caller = .signalled ∧ (n.tasks [2]).starter = .working .entered ∧
    n.Exclusive := by
  obtain ⟨acts, n, hrun, hc, hs⟩ : ∃ acts n, run step {} acts = some n ∧
      (n.tasks [1]).caller = .signalled ∧ (n.tasks [2]).starter = .working .entered :=
    ⟨[.start [1], .spawn [1], .list [1], .startTest [1], .enlist [1], .startTest [1], .workTest [1],
      .makeRecv [1], .makeSend [1], .recvTest [1], .sendTest [1], .write [1], .sendTest [1],
      .start [2], .spawn [2], .enlist [2], .list [2], .startTest [2], .workTest [2],
      .sendTest [1], .write [1], .sendTest [1], .stop [1], .gotLock [1], .setFlag [1], .compare [1],
      .signalSend [1], .signalRecv [1], .recvTest [1], .sendTest [1], .joinRecv [1], .joinSend [1],
      .leave [1], .workTest [2]], _, rfl, rfl, rfl⟩
  exact ⟨acts, n, hrun, hc, hs, exclusive_work hrun⟩

end ConnThreads

end Rosetta

import Mathlib.Logic.Function.Basic
import Rosetta.Connection.Direction

/-!
# Both ends of a connection

A `Link` is a TCP connection with the `Connection` objects at its two ends: one `Direction` each way,
and for each end what the tasks there have done with it (`LinkEnd`).

A task calls `start` and later `stop`. Both tell the other end with a byte under the id
`"lock:" + task_id`: `start` sends one, `stop` waits for the one of the other end, and holds
`task_mtx_` meanwhile.
-/

namespace Rosetta

open Lib

inductive End where
  | P | Q
  deriving DecidableEq, Repr

def End.other : End → End
  | .P => .Q
  | .Q => .P

/-- How far a task has come with its calls of `start` and `stop`. -/
inductive Phase where
  /-- `start` has not sent the lock byte, or `stop` has returned -/
  | out
  /-- the lock byte is sent -/
  | sent
  /-- `start` has returned -/
  | started
  /-- `stop` holds `task_mtx_` and waits for the lock byte of the other end -/
  | waiting
  /-- `stop` has it and is in `do_stop` -/
  | released
  deriving DecidableEq, Repr

/-- The stop flag of the task is not set, so that `do_start` may run the loops. -/
def Phase.mayWork : Phase → Bool
  | .sent | .started | .waiting => true
  | _ => false

structure LinkEnd where
  /-- the task whose `stop` holds `task_mtx_` -/
  taskMtx : Option Bytes := none
  phase : Bytes → Phase := fun _ => .out
  /-- how many lock bytes the task has sent -/
  starts : Bytes → Nat := fun _ => 0
  /-- how many it has received -/
  stops : Bytes → Nat := fun _ => 0

namespace LinkEnd

def start (x : LinkEnd) (task : Bytes) : LinkEnd :=
  { x with
    phase := Function.update x.phase task .sent
    starts := Function.update x.starts task (x.starts task + 1) }

def registered (x : LinkEnd) (task : Bytes) : LinkEnd :=
  { x with phase := Function.update x.phase task .started }

def stop (x : LinkEnd) (task : Bytes) : LinkEnd :=
  { x with taskMtx := some task, phase := Function.update x.phase task .waiting }

def release (x : LinkEnd) (task : Bytes) : LinkEnd :=
  { x with
    taskMtx := none
    phase := Function.update x.phase task .released
    stops := Function.update x.stops task (x.stops task + 1) }

def finish (x : LinkEnd) (task : Bytes) : LinkEnd :=
  { x with phase := Function.update x.phase task .out }

end LinkEnd

structure Link where
  /-- from this end to the other one -/
  dir : End → Direction
  ends : End → LinkEnd := fun _ => {}

inductive LinkAct where
  /-- `start` takes `task_mtx_`, sends the lock byte and lets the mutex go -/
  | start (e : End) (task : Bytes)
  /-- `do_start` has set the stop flag to `false`, and `start` returns -/
  | registered (e : End) (task : Bytes)
  /-- `stop` takes `task_mtx_` -/
  | stop (e : End) (task : Bytes)
  /-- its `recv` returns, and the mutex is let go -/
  | lockRecv (e : End) (task : Bytes)
  /-- `do_stop` returns: the loops of the task have ended -/
  | doStop (e : End) (task : Bytes)
  /-- a message of a channel at `e` -/
  | send (e : End) (id data : Bytes)
  | recv (e : End) (call : RecvCall)
  /-- a step of the loops or of the socket in the direction from `e` -/
  | net (e : End) (a : DirAct)

/-- The task that runs a loop. -/
def Loop.task {β : Type} : Loop β → Option Bytes
  | .idle => none
  | .wait t => some t
  | .busy t _ => some t

/-- The call of `recv` in `stop`. -/
def lockCall (task : Bytes) : RecvCall := { id := lockId task, length := 1 }

namespace Link

def new : Exec Link := do
  let d ← Direction.new
  .ok { dir := fun _ => d }

def setDir (l : Link) (e : End) (d : Direction) : Link :=
  { l with dir := Function.update l.dir e d }

def setEnd (l : Link) (e : End) (x : LinkEnd) : Link :=
  { l with ends := Function.update l.ends e x }

/-- The phase of the task at `e` that runs a loop. -/
def workerPhase (l : Link) (e : End) : Option Bytes → Phase
  | some task => (l.ends e).phase task
  | none => .out

/-- A loop is started by a task that has called `start`, and ends when its stop flag is set. The
send loop of a direction belongs to the one end, the receive loop to the other. -/
def mayStep (l : Link) (e : End) : DirAct → Bool
  | .sendStart task => ((l.ends e).phase task).mayWork
  | .sendStop => l.workerPhase e (l.dir e).snd.loop.task = .released
  | .recvStart task => ((l.ends e.other).phase task).mayWork
  | .recvStop => l.workerPhase e.other (l.dir e).rcv.loop.task = .released
  | a => a.isInternal

def exec (l : Link) : LinkAct → Exec Link
  | .start e task =>
    if (l.ends e).phase task = .out ∧ (l.ends e).taskMtx = none then do
      let d ← (l.dir e).exec (.send (lockId task) lockMsg)
      .ok ((l.setDir e d).setEnd e ((l.ends e).start task))
    else
      .error .blocked
  | .registered e task =>
    if (l.ends e).phase task = .sent then .ok (l.setEnd e ((l.ends e).registered task))
    else .error .blocked
  | .stop e task =>
    if (l.ends e).phase task = .started ∧ (l.ends e).taskMtx = none then
      .ok (l.setEnd e ((l.ends e).stop task))
    else
      .error .blocked
  | .lockRecv e task =>
    if (l.ends e).phase task = .waiting then do
      let d ← (l.dir e.other).exec (.recv (lockCall task))
      .ok ((l.setDir e.other d).setEnd e ((l.ends e).release task))
    else
      .error .blocked
  | .doStop e task =>
    if (l.ends e).phase task = .released ∧ (l.dir e).snd.loop.task ≠ some task ∧
        (l.dir e.other).rcv.loop.task ≠ some task then
      .ok (l.setEnd e ((l.ends e).finish task))
    else
      .error .blocked
  | .send e id data => do
    let d ← (l.dir e).exec (.send id data)
    .ok (l.setDir e d)
  | .recv e call => do
    let d ← (l.dir e.other).exec (.recv call)
    .ok (l.setDir e.other d)
  | .net e a =>
    if l.mayStep e a then do
      let d ← (l.dir e).exec a
      .ok (l.setDir e d)
    else
      .error .blocked

/-- What a step is when it is possible. -/
inductive Does (l : Link) : LinkAct → Link → Prop
  | start {e : End} {task : Bytes} {d : Direction} (hout : (l.ends e).phase task = .out)
    (hmtx : (l.ends e).taskMtx = none)
    (hd : (l.dir e).exec (.send (lockId task) lockMsg) = .ok d) :
    Does l (.start e task) ((l.setDir e d).setEnd e ((l.ends e).start task))
  | registered {e : End} {task : Bytes} (hsent : (l.ends e).phase task = .sent) :
    Does l (.registered e task) (l.setEnd e ((l.ends e).registered task))
  | stop {e : End} {task : Bytes} (hstarted : (l.ends e).phase task = .started)
    (hmtx : (l.ends e).taskMtx = none) :
    Does l (.stop e task) (l.setEnd e ((l.ends e).stop task))
  | lockRecv {e : End} {task : Bytes} {d : Direction} (hwait : (l.ends e).phase task = .waiting)
    (hd : (l.dir e.other).exec (.recv (lockCall task)) = .ok d) :
    Does l (.lockRecv e task) ((l.setDir e.other d).setEnd e ((l.ends e).release task))
  | doStop {e : End} {task : Bytes} (hreleased : (l.ends e).phase task = .released)
    (hsnd : (l.dir e).snd.loop.task ≠ some task)
    (hrcv : (l.dir e.other).rcv.loop.task ≠ some task) :
    Does l (.doStop e task) (l.setEnd e ((l.ends e).finish task))
  | send {e : End} {id data : Bytes} {d : Direction}
    (hd : (l.dir e).exec (.send id data) = .ok d) : Does l (.send e id data) (l.setDir e d)
  | recv {e : End} {call : RecvCall} {d : Direction}
    (hd : (l.dir e.other).exec (.recv call) = .ok d) :
    Does l (.recv e call) (l.setDir e.other d)
  | net {e : End} {a : DirAct} {d : Direction} (hmay : l.mayStep e a = true)
    (hd : (l.dir e).exec a = .ok d) : Does l (.net e a) (l.setDir e d)

/-- The invariants of a link are derived from this, and none looks into `exec`. -/
theorem does_of_exec {l l' : Link} {a : LinkAct} (h : l.exec a = .ok l') : l.Does a l' := by
  cases a with
  | start e task =>
    rw [exec] at h
    split at h
    · next hguard =>
      obtain ⟨d, hd, h⟩ := Exec.bind_eq_ok.mp h
      obtain rfl := Except.ok.inj h
      exact .start hguard.1 hguard.2 hd
    · cases h
  | registered e task =>
    rw [exec] at h
    split at h
    · next hsent =>
      obtain rfl := Except.ok.inj h
      exact .registered hsent
    · cases h
  | stop e task =>
    rw [exec] at h
    split at h
    · next hguard =>
      obtain rfl := Except.ok.inj h
      exact .stop hguard.1 hguard.2
    · cases h
  | lockRecv e task =>
    rw [exec] at h
    split at h
    · next hwait =>
      obtain ⟨d, hd, h⟩ := Exec.bind_eq_ok.mp h
      obtain rfl := Except.ok.inj h
      exact .lockRecv hwait hd
    · cases h
  | doStop e task =>
    rw [exec] at h
    split at h
    · next hguard =>
      obtain rfl := Except.ok.inj h
      exact .doStop hguard.1 hguard.2.1 hguard.2.2
    · cases h
  | send e id data =>
    obtain ⟨d, hd, h⟩ := Exec.bind_eq_ok.mp h
    obtain rfl := Except.ok.inj h
    exact .send hd
  | recv e call =>
    obtain ⟨d, hd, h⟩ := Exec.bind_eq_ok.mp h
    obtain rfl := Except.ok.inj h
    exact .recv hd
  | net e a =>
    rw [exec] at h
    split at h
    · next hmay =>
      obtain ⟨d, hd, h⟩ := Exec.bind_eq_ok.mp h
      obtain rfl := Except.ok.inj h
      exact .net hmay hd
    · cases h

end Link

/-- An id that is read as that of a lock byte. -/
def isLockId (id : Bytes) : Bool := id.take 5 = [108, 111, 99, 107, 58]

/-- Frames that can be read back, and messages that are no lock bytes. -/
def LinkAct.Plain : LinkAct → Prop
  | .start _ task => task.length ≤ 249
  | .send _ id data => isLockId id = false ∧ id.length ≤ 254 ∧ (id ≠ [] ∨ data ≠ [])
  | .recv _ call => isLockId call.id = false
  | _ => True

instance : DecidablePred LinkAct.Plain
  | .start _ _ => inferInstanceAs (Decidable (_ ≤ _))
  | .send _ _ _ => inferInstanceAs (Decidable (_ ∧ _ ∧ _))
  | .recv _ _ => inferInstanceAs (Decidable (_ = _))
  | .registered _ _ | .stop _ _ | .lockRecv _ _ | .doStop _ _ | .net _ _ => isTrue trivial

end Rosetta

import Mathlib.Data.List.AList
import Rosetta.Frame.Basic

/-!
# `Connection`: buffers and worker loops

A `Connection` object sends and receives, and the two halves share none of their buffers:

* `SendHalf` — `send_buffer_`, and the `loop_send` that empties it
* `RecvHalf` — `buffer_`, `mapbuffer_`, and the `loop_recv` that sorts frames into them

A loop waits at the top of its body, then runs two critical sections with its local variables in
between (`Loop`). Each critical section is one function here.

A call that would sleep on a condition variable ends in `Fault.blocked`.
-/

namespace Rosetta

open CycleBuffer

/-- `Connection::State`. -/
inductive ConnState where
  | invalid | handshaking | handshaked | connecting | connected | closing | closed | failed
  deriving DecidableEq, Repr

/-- `loop_send` or `loop_recv` of the task that is the worker of a connection. -/
inductive Loop (β : Type) where
  /-- no task runs it -/
  | idle
  /-- at the wait -/
  | wait (task : Bytes)
  /-- between its two critical sections, with what it took in the first one -/
  | busy (task : Bytes) (local_ : β)

/-- The local variables in use. -/
def Loop.held {β : Type} : Loop β → List β
  | .busy _ x => [x]
  | _ => []

/-- `do_start` of `task` runs the loop. -/
def Loop.start {β : Type} (task : Bytes) : Loop β → Exec (Loop β)
  | .idle => .ok (.wait task)
  | _ => .error .blocked

/-- The loop sees the stop flag of its task. It looks only where it waits. -/
def Loop.stop {β : Type} : Loop β → Exec (Loop β)
  | .wait _ => .ok .idle
  | _ => .error .blocked

/-! ## Sending -/

/-- `"lock:" + task_id`, the id under which the two ends tell each other about a task. -/
def lockId (task : Bytes) : Bytes := [108, 111, 99, 107, 58] ++ task

theorem lockId_injective {task task' : Bytes} (h : lockId task = lockId task') : task = task' :=
  List.append_cancel_left h

theorem length_lockId (task : Bytes) : (lockId task).length = 5 + task.length := by
  rw [lockId, List.length_append]
  rfl

theorem lockId_ne_nil (task : Bytes) : lockId task ≠ [] := by simp [lockId]

/-- `"1"`. -/
def lockMsg : Bytes := [49]

structure SendHalf where
  sendBuffer : CycleBuffer
  loop : Loop Bytes := .idle

namespace SendHalf

/-- `Connection::Connection`, as far as `send_buffer_` goes. -/
def new : Exec SendHalf := do
  let b ← CycleBuffer.new (1024 * 1024 * 128)
  .ok { sendBuffer := b }

def putIntoSendBuffer (s : SendHalf) (data : Bytes) : Exec SendHalf := do
  let b ← s.sendBuffer.write data
  .ok { s with sendBuffer := b }

/-- `send(id, data, length, timeout)`. -/
def send (s : SendHalf) (id data : Bytes) : Exec SendHalf := do
  let buffer ← simpleBuffer id data
  s.putIntoSendBuffer buffer

/-- First critical section of `loop_send`: drain the whole buffer. -/
def loopSendTake (s : SendHalf) : Exec SendHalf :=
  match s.loop with
  | .wait task =>
    if 0 < s.sendBuffer.size then do
      newChar s.sendBuffer.size
      let (data, b) ← s.sendBuffer.read s.sendBuffer.size
      .ok { sendBuffer := b, loop := .busy task data }
    else
      .error .blocked
  | _ => .error .blocked

/-- The rest of the body of `loop_send` when the socket accepts everything. -/
def loopSendWrite (s : SendHalf) : Exec (Bytes × SendHalf) :=
  match s.loop with
  | .busy task data => .ok (data, { s with loop := .wait task })
  | _ => .error .blocked

end SendHalf

/-! ## Receiving -/

/-- `map<string, shared_ptr<cycle_buffer>>`. -/
abbrev Mapbuffer := AList fun _ : Bytes => CycleBuffer

structure RecvHalf where
  state : ConnState := .invalid
  buffer : CycleBuffer
  mapbuffer : Mapbuffer := ∅
  loop : Loop (Bytes × Bytes) := .idle

/-- The arguments of `recv(id, data, length, timeout)`, what it read from `state_` when it was
called, and how many milliseconds ago that was. -/
structure RecvCall where
  id : Bytes
  length : Nat
  timeout : Int := -1
  tmpstate : ConnState := .invalid
  elapsed : Int := 0

def E_TIMEOUT : Int := -3

def E_UNCONNECTED : Int := -4

namespace RecvHalf

def new : Exec RecvHalf := do
  let b ← CycleBuffer.new (1024 * 1024 * 10)
  .ok { buffer := b }

/-- `write(data, len)`: the epoll thread puts received bytes into `buffer_`. -/
def write (r : RecvHalf) (data : Bytes) : Exec RecvHalf := do
  let b ← r.buffer.write data
  .ok { r with buffer := b }

/-- First critical section of `loop_recv`. The return value of `read` is not looked at. -/
def loopRecvTake (r : RecvHalf) : Exec RecvHalf :=
  match r.loop with
  | .wait task => do
    let readable ← r.buffer.canRead
    if readable then do
      let f ← r.buffer.readFrame
      .ok { r with buffer := f.buf, loop := .busy task (f.id, f.data) }
    else
      .error .blocked
  | _ => .error .blocked

/-- `mapbuffer_[id]`, with a new ring for a new id. -/
def ringFor (m : Mapbuffer) (id : Bytes) : Exec CycleBuffer :=
  match m.lookup id with
  | some b => .ok b
  | none => CycleBuffer.new (1024 * 8)

/-- `mapbuffer_[id]->write(data)`. -/
def store (m : Mapbuffer) (id data : Bytes) : Exec Mapbuffer := do
  let b ← ringFor m id
  let b' ← b.write data
  .ok (m.insert id b')

/-- Second critical section of `loop_recv`. -/
def loopRecvStore (r : RecvHalf) : Exec RecvHalf :=
  match r.loop with
  | .busy task (id, data) => do
    let m ← store r.mapbuffer id data
    .ok { r with mapbuffer := m, loop := .wait task }
  | _ => .error .blocked

/-- `recv`: an error code, or the bytes and their number. -/
def recv (r : RecvHalf) (call : RecvCall) : Exec (Int × Bytes × RecvHalf) :=
  let timeout := if call.timeout < 0 then 1000 * 1000000 else call.timeout
  if call.tmpstate = .connected ∧ r.state ≠ .connected then
    .ok (E_UNCONNECTED, [], r)
  else if timeout < call.elapsed then
    .ok (E_TIMEOUT, [], r)
  else
    match r.mapbuffer.lookup call.id with
    | some b =>
      if b.canReadLen call.length then do
        let (data, b') ← b.read call.length
        .ok (data.length, data, { r with mapbuffer := r.mapbuffer.insert call.id b' })
      else
        .error .blocked
    | none => .error .blocked

def getUnrecvSize (r : RecvHalf) : Nat :=
  r.buffer.size + (r.mapbuffer.entries.map fun e => e.2.size).sum

end RecvHalf

end Rosetta

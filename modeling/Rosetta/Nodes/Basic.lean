import Mathlib.Data.Finset.Basic
import Rosetta.Link.Basic
import Rosetta.Pool.Basic

/-!
# Two nodes

`P` dials `Q`: a task at `P` gets its connection from a `TCPClient`, a task at `Q` from a
`TCPServer`. Both keep one connection for the other node and share it among their tasks. The last
task of a node closes it, when nothing is left to read.

* `Tcp` — a TCP connection: what is on its way, and the fields of the two `Connection` objects
* `Node` — the static members of `TCPClient` at `P` and of `TCPServer` at `Q`, and the tasks
* `TwoNodes` — both nodes, and all connections there have ever been, by the order of their dialing

A task can leave and come back under the same id.
-/

namespace Rosetta

open Lib CycleBuffer

/-! ## Connections -/

structure Tcp where
  link : Link
  conns : End → PoolConn := fun _ => {}

/-- `flush_send_buffer`. -/
def Direction.flushSendBuffer (d : Direction) : Exec Direction :=
  if 0 < d.snd.sendBuffer.size then do
    newChar d.snd.sendBuffer.size
    let (data, b) ← d.snd.sendBuffer.read d.snd.sendBuffer.size
    .ok { d with snd := { d.snd with sendBuffer := b }, wire := d.wire ++ data }
  else
    .ok d

namespace Tcp

def closedAt (t : Tcp) (e : End) : Bool := (t.conns e).state.isClosed

/-- Neither end has closed the connection. -/
def isOpen (t : Tcp) : Bool := !t.closedAt .P && !t.closedAt .Q

/-- `close` at `e`. -/
def close (t : Tcp) (e : End) : Exec Tcp :=
  if (t.conns e).state ≠ .closed then do
    let d ← (t.link.dir e).flushSendBuffer
    .ok { link := t.link.setDir e d, conns := Function.update t.conns e (t.conns e).close }
  else
    .ok t

/-- `set_reuseable(false)` at `e`. -/
def spoil (t : Tcp) (e : End) : Tcp :=
  { t with conns := Function.update t.conns e { t.conns e with reuseable := false } }

/-- `get_unrecv_size()` at `e`. -/
def unrecvSize (t : Tcp) (e : End) : Nat := (t.link.dir e.other).rcv.getUnrecvSize

/-- A step that is no call of `start`. A closed socket is not read. -/
def mayStep (t : Tcp) : LinkAct → Bool
  | .start _ _ => false
  | .net e (.deliver _) => !t.closedAt e.other
  | _ => true

end Tcp

/-! ## Tasks -/

/-- How far a task has come with its channel. -/
inductive TaskState where
  | idle
  /-- at `P`: in the wait for the task that dials; at `Q`: `put_connection` has returned `false` -/
  | waiting
  | dialing
  /-- the server has been told the client id, and the connection is not yet in the map -/
  | dialed (c : Nat)
  /-- it is in the map, and `start` is not yet called -/
  | published (c : Nat)
  /-- `find_connection` has called `start`, and `put_connection` has not returned -/
  | found (c : Nat)
  | active (c : Nat)
  /-- `connect` has returned `false`; `task_count_` and `to_connect_set_` stay as they are -/
  | failed
  deriving DecidableEq

namespace TaskState

/-- The connection on which `start` was called. -/
def conn : TaskState → Option Nat
  | .found c | .active c => some c
  | _ => none

/-- The task dials, and no other task does. -/
def dials : TaskState → Bool
  | .dialing | .dialed _ => true
  | _ => false

/-- The connection that the task has dialed and not yet started. -/
def own : TaskState → Option Nat
  | .dialed c | .published c => some c
  | _ => none

end TaskState

structure Node where
  /-- `task_count_` counts them -/
  tasks : Finset Bytes := ∅
  states : Bytes → TaskState := fun _ => .idle
  /-- the entry of the other node in `connections_` -/
  connections : Option Nat := none

namespace Node

def setState (n : Node) (task : Bytes) (s : TaskState) : Node :=
  { n with states := Function.update n.states task s }

/-- `map::insert` keeps an entry that is there. -/
def insert (n : Node) (c : Nat) : Node := { n with connections := n.connections.or (some c) }

/-- `task_count_++`. -/
def count (n : Node) (task : Bytes) : Node := { n with tasks := Insert.insert task n.tasks }

/-- `task_count_--`. -/
def uncount (n : Node) (task : Bytes) : Node := { n with tasks := n.tasks.erase task }

end Node

structure TwoNodes where
  tcp : Nat → Tcp
  /-- the connection that is dialed next -/
  next : Nat := 0
  /-- the connection that is accepted next -/
  accepted : Nat := 0
  nodes : End → Node := fun _ => {}
  /-- `to_connect_set_` of `P` holds the address of `Q` -/
  toConnect : Bool := false
  /-- how often a task has called `start`, on any connection -/
  uses : End → Bytes → Nat := fun _ _ => 0

inductive NodeAct where
  /-- `TCPServer::start` at `Q` -/
  | serverStart (task : Bytes)
  /-- the critical section at the beginning of `TCPClient::connect` at `P` -/
  | connect (task : Bytes)
  /-- the wait for the other dialer is over -/
  | wake (task : Bytes)
  | dial (task : Bytes)
  | dialFail (task : Bytes)
  /-- the dialed connection is put into the map -/
  | publish (task : Bytes)
  /-- `conn_->start(task_id_)` of the task that has dialed -/
  | startDialed (task : Bytes)
  /-- `handle_accept` at `Q` -/
  | accept
  /-- `find_connection` at `Q` -/
  | find (task : Bytes)
  /-- the rest of `put_connection` -/
  | put (task : Bytes)
  /-- `TCPClient::close` or `TCPServer::stop`, behind `Connection::stop` -/
  | leave (e : End) (task : Bytes)
  /-- `handle_error` at `e` finds that the other end has closed -/
  | error (e : End) (c : Nat)
  /-- the epoll thread at `e` closes, because the other end has -/
  | lost (e : End) (c : Nat)
  /-- a step of the tasks and workers on a connection -/
  | link (c : Nat) (a : LinkAct)

namespace TwoNodes

def new : Exec TwoNodes := do
  let l ← Link.new
  .ok { tcp := fun _ => { link := l } }

def setTcp (p : TwoNodes) (c : Nat) (t : Tcp) : TwoNodes :=
  { p with tcp := Function.update p.tcp c t }

def setNode (p : TwoNodes) (e : End) (n : Node) : TwoNodes :=
  { p with nodes := Function.update p.nodes e n }

def setState (p : TwoNodes) (e : End) (task : Bytes) (s : TaskState) : TwoNodes :=
  p.setNode e ((p.nodes e).setState task s)

/-- The connection that a task uses. -/
def conn (p : TwoNodes) (e : End) (task : Bytes) : Option Nat := ((p.nodes e).states task).conn

/-- `start(task)` on the connection `c`, whose result goes to the task. -/
def startOn (p : TwoNodes) (e : End) (c : Nat) (task : Bytes) (s : TaskState) : Exec TwoNodes := do
  let l ← (p.tcp c).link.exec (.start e task)
  let p := (p.setTcp c { p.tcp c with link := l }).setState e task s
  .ok { p with
    uses := Function.update p.uses e (Function.update (p.uses e) task (p.uses e task + 1)) }

/-- Wait for the task that dials, or dial. -/
def waitOrDial (p : TwoNodes) (task : Bytes) : TwoNodes :=
  if p.toConnect then p.setState .P task .waiting
  else { p.setState .P task .dialing with toConnect := true }

/-- Moves the connection to `recycle_connections_`. -/
def retire (p : TwoNodes) (e : End) : TwoNodes :=
  p.setNode e { p.nodes e with connections := none }

/-- `task_count_++`, then the look-up in the map. -/
def connect (p : TwoNodes) (task : Bytes) : Exec TwoNodes :=
  let p := p.setNode .P ((p.nodes .P).count task)
  match (p.nodes .P).connections with
  | some c =>
    if ((p.tcp c).conns .P).reuseable then p.startOn .P c task (.active c)
    else .ok ((p.retire .P).waitOrDial task)
  | none => .ok (p.waitOrDial task)

/-- `get_unrecv_size()` of the map. -/
def unrecvSize (p : TwoNodes) (e : End) : Nat :=
  match (p.nodes e).connections with
  | some c => (p.tcp c).unrecvSize e
  | none => 0

/-- Closes the connection of the map. -/
def closeMapped (p : TwoNodes) (e : End) : Exec TwoNodes :=
  match (p.nodes e).connections with
  | some c => do
    let t ← (p.tcp c).close e
    .ok (p.setTcp c t)
  | none => .ok p

/-- The map is emptied as well, and the client forgets who dials. -/
def closeAll (p : TwoNodes) (e : End) : Exec TwoNodes := do
  let p ← p.closeMapped e
  .ok { p.retire e with toConnect := p.toConnect && decide (e = .Q) }

/-- No task is left, and nothing to read. -/
def isLast (p : TwoNodes) (e : End) : Bool := (p.nodes e).tasks = ∅ ∧ p.unrecvSize e = 0

/-- `task_count_--`. -/
def uncount (p : TwoNodes) (e : End) (task : Bytes) : TwoNodes :=
  p.setNode e (((p.nodes e).uncount task).setState task .idle)

def leave (p : TwoNodes) (e : End) (task : Bytes) : Exec TwoNodes :=
  if (p.uncount e task).isLast e then (p.uncount e task).closeAll e else .ok (p.uncount e task)

def exec (p : TwoNodes) : NodeAct → Exec TwoNodes
  | .serverStart task =>
    if (p.nodes .Q).states task = .idle then
      .ok (p.setNode .Q (((p.nodes .Q).count task).setState task .waiting))
    else
      .error .blocked
  | .connect task =>
    if (p.nodes .P).states task = .idle then p.connect task else .error .blocked
  | .wake task =>
    match (p.nodes .P).states task, (p.nodes .P).connections with
    | .waiting, some c => p.startOn .P c task (.active c)
    | _, _ => .error .blocked
  | .dial task =>
    if (p.nodes .P).states task = .dialing then
      .ok { p.setState .P task (.dialed p.next) with next := p.next + 1 }
    else
      .error .blocked
  | .dialFail task =>
    if (p.nodes .P).states task = .dialing then .ok (p.setState .P task .failed)
    else .error .blocked
  | .publish task =>
    match (p.nodes .P).states task with
    | .dialed c =>
      .ok { p.setNode .P (((p.nodes .P).insert c).setState task (.published c)) with
        toConnect := false }
    | _ => .error .blocked
  | .startDialed task =>
    match (p.nodes .P).states task with
    | .published c => p.startOn .P c task (.active c)
    | _ => .error .blocked
  | .accept =>
    if p.accepted < p.next then
      .ok { p.setNode .Q { p.nodes .Q with connections := some p.accepted } with
        accepted := p.accepted + 1 }
    else
      .error .blocked
  | .find task =>
    match (p.nodes .Q).states task, (p.nodes .Q).connections with
    | .waiting, some c =>
      if ((p.tcp c).conns .Q).reuseable then p.startOn .Q c task (.found c) else .ok p
    | .waiting, none => .ok p
    | _, _ => .error .blocked
  | .put task =>
    match (p.nodes .Q).states task with
    | .found c =>
      .ok (p.setState .Q task (if ((p.tcp c).conns .Q).reuseable then .active c else .waiting))
    | _ => .error .blocked
  | .leave e task =>
    match (p.nodes e).states task with
    | .active c =>
      if ((p.tcp c).link.ends e).phase task = .out then p.leave e task else .error .blocked
    | _ => .error .blocked
  | .error e c =>
    if (p.tcp c).closedAt e.other then .ok (p.setTcp c ((p.tcp c).spoil e)) else .error .blocked
  | .lost e c =>
    if (p.tcp c).closedAt e.other then do
      let t ← (p.tcp c).close e
      .ok (p.setTcp c t)
    else
      .error .blocked
  | .link c a =>
    if c < p.next ∧ (p.tcp c).mayStep a then do
      let l ← (p.tcp c).link.exec a
      .ok (p.setTcp c { p.tcp c with link := l })
    else
      .error .blocked

def step (p : TwoNodes) (a : NodeAct) : Option TwoNodes := (p.exec a).toOption

end TwoNodes

end Rosetta

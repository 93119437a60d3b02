import Rosetta.Link.Basic
import Rosetta.Pool.Basic

/-!
# The `TCPServer`s of a node

Each task of a node has a `TCPServer` of its own, with the ids of the clients that it expects and a
thread for `loop_main`. The listening socket, the epoll set and `connections_` are static. One of
the threads at a time runs the epoll loop, and it does so for all tasks: it accepts their clients
and reads the sockets of their connections.

* `ServerConn` — an accepted connection: what is in the socket, the receiving half, and how far each
  task has come with it
* `ServerTask` — a `TCPServer`
* `Server` — the static members, the connections and the tasks

A client sends its id when it has connected (`hello`). `stop` waits for `loop_main`, then stops the
task's connections one after the other.
-/

namespace Rosetta

open Lib

/-- An id of a node: a `string` in memory. -/
structure ClientId where
  bytes : Bytes
  fits : bytes.length ≤ maxAlloc

/-- What a client sends first. -/
def ClientId.hello (cid : ClientId) : Bytes := toBytes64 (8 + cid.bytes.length) ++ cid.bytes

/-! ## Connections -/

structure ServerConn where
  conn : PoolConn := {}
  /-- arrived at the socket, and not yet read -/
  wire : Bytes := []
  rcv : RecvHalf
  taskMtx : Option Bytes := none
  phases : AList fun _ : Bytes => Phase := ∅

namespace ServerConn

def phase (x : ServerConn) (task : Bytes) : Phase := (x.phases.lookup task).getD .out

def setPhase (x : ServerConn) (task : Bytes) (ph : Phase) : ServerConn :=
  { x with phases := x.phases.insert task ph }

def setRcv (x : ServerConn) (r : RecvHalf) : ServerConn := { x with rcv := r }

/-- `handle_read` moves some bytes of the socket to `buffer_`. -/
def read (x : ServerConn) (k : Nat) : Exec ServerConn :=
  if x.conn.state.isClosed = false ∧ 0 < k ∧ k ≤ 8192 ∧ k ≤ x.wire.length then do
    let r ← x.rcv.write (x.wire.take k)
    .ok { x with rcv := r, wire := x.wire.drop k }
  else
    .error .blocked

/-- `start` sends the lock byte. -/
def start (task : Bytes) (x : ServerConn) : Exec ServerConn :=
  if x.phase task = .out ∧ x.taskMtx = none then .ok (x.setPhase task .sent) else .error .blocked

/-- `start` returns. -/
def registered (task : Bytes) (x : ServerConn) : Exec ServerConn :=
  if x.phase task = .sent then .ok (x.setPhase task .started) else .error .blocked

/-- `stop` takes `task_mtx_` and begins to wait for the lock byte. -/
def stop (task : Bytes) (x : ServerConn) : Exec ServerConn :=
  if x.phase task = .started ∧ x.taskMtx = none then
    .ok { x.setPhase task .waiting with taskMtx := some task }
  else
    .error .blocked

/-- `stop` has the lock byte. -/
def lockRecv (task : Bytes) (x : ServerConn) : Exec ServerConn :=
  if x.phase task = .waiting then do
    let (_, _, r) ← x.rcv.recv (lockCall task)
    .ok { (x.setRcv r).setPhase task .released with taskMtx := none }
  else
    .error .blocked

/-- `do_stop` returns. -/
def doStop (task : Bytes) (x : ServerConn) : Exec ServerConn :=
  if x.phase task = .released ∧ x.rcv.loop.task ≠ some task then
    .ok { x with phases := x.phases.erase task }
  else
    .error .blocked

/-- A call of `recv` by a channel. -/
def recv (call : RecvCall) (x : ServerConn) : Exec ServerConn := do
  let (_, _, r) ← x.rcv.recv call
  .ok (x.setRcv r)

/-- `do_start` of the task runs `loop_recv`. -/
def recvStart (task : Bytes) (x : ServerConn) : Exec ServerConn :=
  if (x.phase task).mayWork then do
    let l ← x.rcv.loop.start task
    .ok (x.setRcv { x.rcv with loop := l })
  else
    .error .blocked

/-- `loop_recv` sees the stop flag of its task. -/
def recvStop (x : ServerConn) : Exec ServerConn :=
  match x.rcv.loop.task with
  | some task =>
    if x.phase task = .released then do
      let l ← x.rcv.loop.stop
      .ok (x.setRcv { x.rcv with loop := l })
    else
      .error .blocked
  | none => .error .blocked

def recvTake (x : ServerConn) : Exec ServerConn := do
  let r ← x.rcv.loopRecvTake
  .ok (x.setRcv r)

def recvStore (x : ServerConn) : Exec ServerConn := do
  let r ← x.rcv.loopRecvStore
  .ok (x.setRcv r)

end ServerConn

/-! ## Tasks -/

/-- Where `loop_main` is. -/
inductive LoopMain where
  /-- another task runs the epoll loop -/
  | waiting
  /-- in the loop, until all expected clients have connected -/
  | checking
  /-- in the loop, until `stop_` is set -/
  | serving
  | ended
  deriving DecidableEq, Repr

structure ServerTask where
  expectedCids : List ClientId
  /-- `stop_` -/
  stop : Bool := false
  loopMain : LoopMain := .waiting
  /-- what `find_connection` has returned to a call of `put_connection` -/
  found : List (Bytes × Nat) := []
  serverConnections : AList fun _ : Bytes => Nat := ∅

namespace ServerTask

/-- `std::find` in `expected_cids_`. -/
def expects (s : ServerTask) (cid : Bytes) : Bool := s.expectedCids.any fun e => e.bytes == cid

/-- Its thread runs the epoll loop. -/
def owns (s : ServerTask) : Bool :=
  match s.loopMain with
  | .checking | .serving => true
  | _ => false

/-- Its thread runs the epoll loop, or will take it over. -/
def reads (s : ServerTask) : Bool :=
  match s.loopMain with
  | .checking | .serving => true
  | .waiting => !s.stop
  | .ended => false

end ServerTask

structure Server where
  isInited : Bool := false
  taskCount : Nat := 0
  listenCount : Nat := 0
  tasks : AList fun _ : Bytes => ServerTask := ∅
  /-- all connections there have ever been, in the order of their acceptance -/
  conns : List ServerConn := []
  connections : AList fun _ : Bytes => Nat := ∅

inductive ServerAct where
  | start (task : Bytes) (expectedCids : List ClientId)
  /-- `loop_main` finds `listen_count_` at 0 -/
  | takeLoop (task : Bytes)
  /-- `loop_main` finds `stop_` set and returns -/
  | quitLoop (task : Bytes)
  /-- all expected clients have connected -/
  | allConnected (task : Bytes)
  /-- the loop is left, and the next thread is notified -/
  | endLoop (task : Bytes) (timedOut : Bool)
  /-- `handle_accept`, of a client that has sent `hello` -/
  | accept (task hello : Bytes)
  /-- bytes of the peer -/
  | arrive (c : Nat) (data : Bytes)
  /-- `handle_read` -/
  | read (task : Bytes) (c k : Nat)
  /-- `handle_error` calls `set_reuseable(false)` -/
  | spoil (task : Bytes) (c : Nat)
  /-- `epoll_del` and `close`, after an EOF or an error -/
  | close (task : Bytes) (c : Nat)
  /-- `find_connection`, in which the task calls `start` on the connection -/
  | find (task cid : Bytes)
  | registered (task : Bytes) (c : Nat)
  /-- the rest of `put_connection` -/
  | put (task cid : Bytes) (c : Nat)
  | recvStart (task : Bytes) (c : Nat)
  | recvTake (c : Nat)
  | recvStore (c : Nat)
  | recvStop (c : Nat)
  | recv (c : Nat) (call : RecvCall)
  /-- `stop` sets `stop_` -/
  | stop (task : Bytes)
  /-- `stop` calls `Connection::stop` -/
  | stopConn (task cid : Bytes)
  | lockRecv (task cid : Bytes)
  | doStop (task cid : Bytes)
  /-- the rest of `stop` -/
  | leave (task : Bytes)

/-- The id in the first bytes that a client has sent, and the bytes behind it. -/
def readCid (hello : Bytes) : Exec (Option (Bytes × Bytes)) :=
  if hello.length < 8 then .ok none
  else do
    let len := wrapSub64 (ofBytes64 (hello.take 8)) 8
    resize len
    let cid := (hello.drop 8).take len
    .ok (if cid.length = len then some (cid, hello.drop (8 + len)) else none)

namespace Server

def setTask (n : Server) (task : Bytes) (s : ServerTask) : Server :=
  { n with tasks := n.tasks.insert task s }

/-- A step of a task that is in the state for it. -/
def onTask (n : Server) (task : Bytes) (p : ServerTask → Bool) (f : ServerTask → ServerTask) :
    Exec Server :=
  match n.tasks.lookup task with
  | some s => if p s then .ok (n.setTask task (f s)) else .error .blocked
  | none => .error .blocked

def onConn (n : Server) (c : Nat) (f : ServerConn → Exec ServerConn) : Exec Server :=
  match n.conns[c]? with
  | some x => do
    let x' ← f x
    .ok { n with conns := n.conns.set c x' }
  | none => .error .blocked

/-- The task runs the epoll loop. -/
def Owns (n : Server) (task : Bytes) : Prop := ∃ s ∈ n.tasks.lookup task, s.owns

instance (n : Server) (task : Bytes) : Decidable (n.Owns task) :=
  inferInstanceAs (Decidable (∃ s ∈ n.tasks.lookup task, s.owns = true))

/-- `connections_` gets a new connection for `cid`. -/
def register (n : Server) (cid wire : Bytes) : Exec Server := do
  let r ← RecvHalf.new
  .ok { n with
    conns := n.conns ++ [{ wire, rcv := r }]
    connections := (n.connections.erase cid).insert cid n.conns.length }

/-- `handle_accept`: the client must be one that this task expects. -/
def handleAccept (n : Server) (s : ServerTask) (hello : Bytes) : Exec Server := do
  let r ← readCid hello
  match r with
  | some (cid, wire) =>
    if s.expects cid then n.register cid wire else .ok n
  | none => .ok n

/-- `get_unrecv_size()`. -/
def unrecvSize (n : Server) : Nat :=
  (n.connections.entries.map fun e =>
    match n.conns[e.2]? with
    | some x => x.rcv.getUnrecvSize
    | none => 0).sum

/-- The last task closes what is in `connections_`. -/
def closeAll (n : Server) : Server :=
  { n with
    conns := n.conns.mapIdx fun c x =>
      if ∃ e ∈ n.connections.entries, e.2 = c then { x with conn := x.conn.close } else x
    connections := ∅
    isInited := false }

/-- `find_connection`. -/
def findConnection (n : Server) (task cid : Bytes) (s : ServerTask) : Exec Server :=
  match n.connections.lookup cid with
  | some c =>
    match n.conns[c]? with
    | some x =>
      if x.conn.reuseable then do
        let n' ← n.onConn c (ServerConn.start task)
        .ok (n'.setTask task { s with found := (cid, c) :: s.found })
      else .ok n
    | none => .error .blocked
  | none => .ok n

/-- The calls of `Connection::stop` for the other connections have returned or not begun. -/
def MayStop (n : Server) (task : Bytes) (s : ServerTask) : Prop :=
  ∀ e ∈ s.serverConnections.entries, ∀ x ∈ n.conns[e.2]?, x.phase task = .started

instance (n : Server) (task : Bytes) (s : ServerTask) : Decidable (n.MayStop task s) :=
  inferInstanceAs (Decidable (∀ e ∈ s.serverConnections.entries, ∀ x ∈ n.conns[e.2]?, _))

/-- A step of `stop` on the connection of `cid`. -/
def onStopping (n : Server) (cid : Bytes) (s : ServerTask) (f : ServerConn → Exec ServerConn) :
    Exec Server :=
  match s.serverConnections.lookup cid with
  | some c => if s.stop ∧ s.loopMain = .ended then n.onConn c f else .error .blocked
  | none => .error .blocked

/-- All expected clients are in `connections_`. -/
def allIn (n : Server) (s : ServerTask) : Bool :=
  s.expectedCids.all fun cid => (n.connections.lookup cid.bytes).isSome

def exec (n : Server) : ServerAct → Exec Server
  | .start task expectedCids =>
    if (n.tasks.lookup task).isNone then
      .ok { n.setTask task { expectedCids } with isInited := true, taskCount := n.taskCount + 1 }
    else .error .blocked
  | .takeLoop task =>
    if n.listenCount = 0 then do
      let n' ← n.onTask task (fun s => s.loopMain = .waiting ∧ !s.stop)
        fun s => { s with loopMain := .checking }
      .ok { n' with listenCount := n'.listenCount + 1 }
    else .error .blocked
  | .quitLoop task =>
    n.onTask task (fun s => s.loopMain = .waiting ∧ s.stop) fun s => { s with loopMain := .ended }
  | .allConnected task =>
    n.onTask task (fun s => s.loopMain = .checking ∧ n.allIn s)
      fun s => { s with loopMain := .serving }
  | .endLoop task timedOut => do
    let n' ← n.onTask task (fun s => s.owns ∧ (s.stop ∨ (s.loopMain = .checking ∧ timedOut)))
      fun s => { s with loopMain := .ended }
    .ok { n' with listenCount := n'.listenCount - 1 }
  | .accept task hello =>
    match n.tasks.lookup task with
    | some s => if s.owns then n.handleAccept s hello else .error .blocked
    | none => .error .blocked
  | .arrive c data => n.onConn c fun x => .ok { x with wire := x.wire ++ data }
  | .read task c k => if n.Owns task then n.onConn c fun x => x.read k else .error .blocked
  | .spoil task c =>
    if n.Owns task then n.onConn c fun x => .ok { x with conn := { x.conn with reuseable := false } }
    else .error .blocked
  | .close task c =>
    if n.Owns task then n.onConn c fun x => .ok { x with conn := x.conn.close }
    else .error .blocked
  | .find task cid =>
    match n.tasks.lookup task with
    | some s => if s.stop then .error .blocked else n.findConnection task cid s
    | none => .error .blocked
  | .registered task c => n.onConn c (ServerConn.registered task)
  | .put task cid c =>
    match n.conns[c]? with
    | some x =>
      n.onTask task (fun s => (cid, c) ∈ s.found ∧ x.phase task = .started) fun s => { s with
        found := s.found.erase (cid, c)
        serverConnections :=
          if x.conn.reuseable ∧ (s.serverConnections.lookup cid).isNone then
            s.serverConnections.insert cid c
          else s.serverConnections }
    | none => .error .blocked
  | .recvStart task c => n.onConn c (ServerConn.recvStart task)
  | .recvTake c => n.onConn c ServerConn.recvTake
  | .recvStore c => n.onConn c ServerConn.recvStore
  | .recvStop c => n.onConn c ServerConn.recvStop
  | .recv c call => n.onConn c (ServerConn.recv call)
  | .stop task =>
    -- `BasicIO::init` has returned
    n.onTask task (fun s => !s.stop ∧ s.found.isEmpty) fun s => { s with stop := true }
  | .stopConn task cid =>
    match n.tasks.lookup task with
    | some s =>
      if n.MayStop task s then n.onStopping cid s (ServerConn.stop task) else .error .blocked
    | none => .error .blocked
  | .lockRecv task cid =>
    match n.tasks.lookup task with
    | some s => n.onStopping cid s (ServerConn.lockRecv task)
    | none => .error .blocked
  | .doStop task cid =>
    match n.tasks.lookup task with
    | some s => do
      let n' ← n.onStopping cid s (ServerConn.doStop task)
      .ok (n'.setTask task { s with serverConnections := s.serverConnections.erase cid })
    | none => .error .blocked
  | .leave task =>
    match n.tasks.lookup task with
    | some s =>
      if s.stop ∧ s.loopMain = .ended ∧ s.serverConnections.entries = [] then
        let n' := { n with tasks := n.tasks.erase task, taskCount := n.taskCount - 1 }
        .ok (if n'.taskCount = 0 ∧ n'.unrecvSize = 0 then n'.closeAll else n')
      else .error .blocked
    | none => .error .blocked

def step (n : Server) (a : ServerAct) : Option Server := (n.exec a).toOption

end Server

end Rosetta

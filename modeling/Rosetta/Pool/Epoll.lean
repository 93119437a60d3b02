import Rosetta.Pool.Effect

/-!
# The channels of a node and the epoll set

A `BasicIO` starts a `TCPServer`, dials with its `TCPClient`s, takes accepted connections with
`put_connection`, and in the end closes the clients and stops the server. All channels of a node
share the pools and one epoll set, `epollfd_`: the first `start` makes it, the last `stop` closes it.

A connection gets into the set after it is in its map: `handle_accept` adds the accepted ones, the
`BasicIO` whose client has dialed adds the dialed ones. `handle_read` and `handle_error` take it out
when they close it.
-/

namespace Rosetta

open Lib

/-- A `BasicIO`. -/
structure IoTask where
  /-- its `TCPClient`s that are not closed -/
  clients : List Nat := []
  /-- its calls of `put_connection` -/
  puts : List Nat := []
  /-- `server_connections_` of its server -/
  served : List Nat := []

structure IoNode where
  pools : NodePools := {}
  isInited : Bool := false
  /-- what is in the set `epollfd_` -/
  registered : List (Side × Nat) := []
  /-- in a map, and `epoll_add` is still to be called -/
  pending : List (Side × Nat) := []
  /-- the clients that have dialed and whose connection is still to be added -/
  dialers : List Nat := []
  tasks : Nat → Option IoTask := fun _ => none

inductive IoAct where
  /-- `TCPServer::start` -/
  | start (t : Nat)
  /-- `TCPServer::stop`, from `task_mtx_` on; `unrecv` is `get_unrecv_size()` -/
  | stop (t unrecv : Nat)
  /-- `handle_accept`, up to the entry in the map -/
  | accept (cid : Bytes)
  /-- the `epoll_add` of `handle_accept` -/
  | added (c : Nat)
  /-- `handle_read` reads an EOF: `epoll_del`, and `close` is entered -/
  | eof (side : Side) (c : Nat)
  | error (side : Side) (c : Nat)
  /-- the same in `handle_error` -/
  | errorClose (side : Side) (c : Nat)
  | closeEnd (side : Side) (c : Nat)
  | find (t k : Nat) (nodeId : Bytes)
  | put (t k : Nat)
  | connect (t k : Nat) (address : Bytes)
  | wake (k : Nat)
  | publish (k : Nat)
  | dialFail (k : Nat)
  /-- `add_connection_to_epoll` -/
  | addConnection (k : Nat)
  | clientClose (t k unrecv : Nat)

namespace IoNode

def setTask (n : IoNode) (t : Nat) (io : Option IoTask) : IoNode :=
  { n with tasks := Function.update n.tasks t io }

/-- A step of the pools. -/
def poolStep (n : IoNode) (a : PoolAct) : Option IoNode :=
  (n.pools.step a).map fun p => { n with pools := p }

def epollAdd (n : IoNode) (side : Side) (c : Nat) : IoNode :=
  { n with
    registered := (side, c) :: n.registered
    pending := n.pending.filter (· ≠ (side, c)) }

def epollDel (n : IoNode) (side : Side) (c : Nat) : IoNode :=
  { n with registered := n.registered.filter (· ≠ (side, c)) }

/-- What `put_connection` puts into `server_connections_`. -/
def handedBy (n : IoNode) (k : Nat) : List Nat :=
  match n.pools.puts k with
  | some f => if (n.pools.server.conns f.conn).reuseable then [f.conn] else []
  | none => []

def step (n : IoNode) : IoAct → Option IoNode
  | .start t =>
    if (n.tasks t).isNone then
      -- `init` makes a new set
      ({ n.setTask t (some {}) with
        isInited := true
        registered := if n.isInited then n.registered else [] } : IoNode).poolStep .serverStart
    else none
  | .stop t unrecv =>
    match n.tasks t with
    | some io =>
      -- `BasicIO::init` has returned, and `close` has closed the clients
      if (∀ k ∈ io.clients, (n.pools.clients k).busy = false) ∧
          ∀ k ∈ io.puts, n.pools.puts k = none then do
        let n ← (n.setTask t none).poolStep (.serverStop unrecv)
        if n.pools.server.taskCount = 0 ∧ unrecv = 0 then
          some { n with
            isInited := false
            registered := []
            pending := n.pending.filter fun e => e.1 ≠ .server }
        else
          some n
      else none
    | none => none
  | .accept cid =>
    if n.isInited then
      ({ n with pending := (.server, n.pools.server.next) :: n.pending } : IoNode).poolStep
        (.accept cid)
    else none
  | .added c => if (Side.server, c) ∈ n.pending then some (n.epollAdd .server c) else none
  | .eof side c =>
    if (side, c) ∈ n.registered then (n.epollDel side c).poolStep (.eof side c) else none
  | .error side c => if (side, c) ∈ n.registered then n.poolStep (.error side c) else none
  | .errorClose side c =>
    if (side, c) ∈ n.registered then (n.epollDel side c).poolStep (.errorClose side c) else none
  | .closeEnd side c => n.poolStep (.closeEnd side c)
  | .find t k nodeId =>
    match n.tasks t with
    | some io =>
      (n.setTask t (some { io with puts := k :: io.puts })).poolStep (.find k nodeId)
    | none => none
  | .put t k =>
    match n.tasks t with
    | some io =>
      if k ∈ io.puts then
        (n.setTask t (some { io with served := n.handedBy k ++ io.served })).poolStep (.put k)
      else none
    | none => none
  | .connect t k address =>
    match n.tasks t with
    | some io =>
      (n.setTask t (some { io with clients := k :: io.clients })).poolStep (.connect k address)
    | none => none
  | .wake k => n.poolStep (.wake k)
  | .publish k =>
    ({ n with
      pending := (.client, n.pools.client.next) :: n.pending
      dialers := k :: n.dialers } : IoNode).poolStep (.publish k)
  | .dialFail k => n.poolStep (.dialFail k)
  | .addConnection k =>
    match n.pools.clients k with
    | .connected c =>
      if k ∈ n.dialers then
        some { n.epollAdd .client c with dialers := n.dialers.filter (· ≠ k) }
      else none
    | _ => none
  | .clientClose t k unrecv =>
    match n.tasks t with
    | some io =>
      if k ∈ io.clients ∧ k ∉ n.dialers then
        (n.setTask t (some { io with clients := io.clients.filter (· ≠ k) })).poolStep
          (.clientClose k unrecv)
      else none
    | none => none

/-- `close` was not entered. -/
def isOpen (n : IoNode) (side : Side) (c : Nat) : Prop :=
  ((n.pools.pool side).conns c).state.isClosed = false

instance (n : IoNode) (side : Side) (c : Nat) : Decidable (n.isOpen side c) :=
  inferInstanceAs (Decidable (_ = false))

/--
The three places at which a connection gets lost from the epoll set:

* the set is closed while `TCPClient` keeps open connections
* a client takes a connection that another one has dialed and not yet added
* `put_connection` takes one that `handle_accept` has not yet added
-/
def Careful (n : IoNode) : IoAct → Prop
  | .stop _ unrecv => n.pools.server.taskCount = 1 ∧ unrecv = 0 →
    ∀ e ∈ n.pools.client.connections.entries, ¬ n.isOpen .client e.2
  | .connect _ _ address => ∀ c ∈ n.pools.client.connections.lookup address,
    (Side.client, c) ∉ n.pending
  | .wake k => ∀ c ∈ n.pools.wakesOn k, (Side.client, c) ∉ n.pending
  | .put _ k => ∀ f ∈ n.pools.puts k, (Side.server, f.conn) ∉ n.pending
  | _ => True

instance (n : IoNode) : DecidablePred n.Careful
  | .stop _ _ => inferInstanceAs (Decidable (_ → ∀ e ∈ n.pools.client.connections.entries, _))
  | .connect _ _ address =>
    inferInstanceAs (Decidable (∀ c ∈ n.pools.client.connections.lookup address, _))
  | .wake k => inferInstanceAs (Decidable (∀ c ∈ n.pools.wakesOn k, _))
  | .put _ k => inferInstanceAs (Decidable (∀ f ∈ n.pools.puts k, _))
  | .start _ | .accept _ | .added _ | .eof _ _ | .error _ _ | .errorClose _ _ | .closeEnd _ _
  | .find _ _ _ | .publish _ | .dialFail _ | .addConnection _ | .clientClose _ _ _ => isTrue trivial

end IoNode

end Rosetta

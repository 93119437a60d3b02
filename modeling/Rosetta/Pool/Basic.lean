import Mathlib.Data.List.AList
import Mathlib.Logic.Function.Basic
import Rosetta.Connection.Basic
import Rosetta.Lib.Run

/-!
# The connections that a node keeps

`TCPServer` keeps the connections it has accepted, by the id of the peer, and `TCPClient` those it
has dialed, by the address of the peer. Both maps are static: all tasks of the node share them and
take their connections from them.

* `Pool` — one of the two maps, with the objects it points to
* `NodePools` — both of them, and the calls of the tasks that are under way
* `Does` — what a step is when it is possible

`step` has one action for each critical section. `close` is two of them when the epoll thread does
it, because it holds no lock.
-/

namespace Rosetta

open Lib

/-- `close` was entered. -/
def ConnState.isClosed : ConnState → Bool
  | .closing | .closed => true
  | _ => false

/-- The fields of a `Connection` that the pools look at. -/
structure PoolConn where
  state : ConnState := .invalid
  reuseable : Bool := true
  deriving DecidableEq

namespace PoolConn

/-- `close`, up to `state_ = Closing`. -/
def closeBegin (c : PoolConn) : PoolConn := if c.state ≠ .closed then { c with state := .closing } else c

/-- The rest of `close`, when it was entered. -/
def closeEnd (c : PoolConn) : PoolConn := { c with state := .closed }

def close (c : PoolConn) : PoolConn := if c.state ≠ .closed then c.closeBegin.closeEnd else c

end PoolConn

structure Pool where
  /-- the objects, by their number -/
  conns : Nat → PoolConn := fun _ => {}
  /-- the number of the next object -/
  next : Nat := 0
  connections : AList fun _ : Bytes => Nat := ∅
  recycleConnections : List Nat := []
  taskCount : Nat := 0

namespace Pool

def update (p : Pool) (c : Nat) (f : PoolConn → PoolConn) : Pool :=
  { p with conns := Function.update p.conns c (f (p.conns c)) }

/-- The map holds `c`. -/
def Kept (p : Pool) (c : Nat) : Prop := ∃ e ∈ p.connections.entries, e.2 = c

instance (p : Pool) (c : Nat) : Decidable (p.Kept c) :=
  inferInstanceAs (Decidable (∃ e ∈ p.connections.entries, e.2 = c))

/-- Moves the connection of `key` to `recycle_connections_`. -/
def retire (p : Pool) (key : Bytes) : Pool :=
  match p.connections.lookup key with
  | some c => { p with
      recycleConnections := p.recycleConnections ++ [c]
      connections := p.connections.erase key }
  | none => p

/-- Puts a new object into the map; `map::insert` keeps an entry that is there. -/
def insertNew (p : Pool) (key : Bytes) : Pool :=
  { p with
    conns := Function.update p.conns p.next {}
    next := p.next + 1
    connections :=
      if (p.connections.lookup key).isSome then p.connections
      else p.connections.insert key p.next }

/-- The last task closes every connection and empties the map. -/
def closeAll (p : Pool) : Pool :=
  { p with
    conns := fun c => if p.Kept c then (p.conns c).close else p.conns c
    connections := ∅
    recycleConnections := [] }

end Pool

/-- A `TCPClient` and its `connect`. -/
inductive ClientState where
  | idle
  /-- in the wait for the task that dials the same address -/
  | waiting (address : Bytes)
  | dialing (address : Bytes)
  | connected (c : Nat)
  /-- `connect` has returned `false` -/
  | failed

/-- A connection found in a map, and its `state_` when it was looked up. -/
structure Found where
  conn : Nat
  state : ConnState
  deriving DecidableEq

/-- Which of the two maps. -/
inductive Side where
  | server | client
  deriving DecidableEq, Repr

instance : LawfulBEq (Side × Nat) := inferInstance

structure NodePools where
  server : Pool := {}
  client : Pool := {}
  toConnectSet : List Bytes := []
  clients : Nat → ClientState := fun _ => .idle
  /-- calls of `put_connection` that have passed `find_connection` -/
  puts : Nat → Option Found := fun _ => none
  /-- connections given to a task by `put_connection`, or by `connect` out of the map -/
  handed : List Found := []

inductive PoolAct where
  /-- `handle_accept` of a client `cid` that is expected -/
  | accept (cid : Bytes)
  /-- `handle_read` reads an EOF and begins to close -/
  | eof (side : Side) (c : Nat)
  /-- `handle_error` finds the socket closed and sets `reuseable_` -/
  | error (side : Side) (c : Nat)
  /-- `handle_error` begins to close -/
  | errorClose (side : Side) (c : Nat)
  /-- the epoll thread has closed the socket -/
  | closeEnd (side : Side) (c : Nat)
  /-- `find_connection` in the call `k` of `put_connection(node_id)` -/
  | find (k : Nat) (nodeId : Bytes)
  /-- the rest of `put_connection` -/
  | put (k : Nat)
  /-- the critical section at the beginning of `connect` -/
  | connect (k : Nat) (address : Bytes)
  /-- the wait for the other dialer is over -/
  | wake (k : Nat)
  /-- the dial succeeds, and the connection is put into the map -/
  | publish (k : Nat)
  /-- all retries fail -/
  | dialFail (k : Nat)
  /-- `TCPClient::close`, from `task_mtx_` on; `unrecv` is `get_unrecv_size()` -/
  | clientClose (k : Nat) (unrecv : Nat)
  | serverStart
  /-- `TCPServer::stop`, from `task_mtx_` on -/
  | serverStop (unrecv : Nat)

namespace NodePools

def pool (n : NodePools) : Side → Pool
  | .server => n.server
  | .client => n.client

def setPool (n : NodePools) (side : Side) (p : Pool) : NodePools :=
  match side with
  | .server => { n with server := p }
  | .client => { n with client := p }

def setClient (n : NodePools) (k : Nat) (c : ClientState) : NodePools :=
  { n with clients := Function.update n.clients k c }

/-- `conn_ = iter->second`, and `connect` returns `true`. -/
def reuse (n : NodePools) (k c : Nat) : NodePools :=
  { n.setClient k (.connected c) with handed := n.handed ++ [⟨c, (n.client.conns c).state⟩] }

/-- Wait for the task that dials the address, or dial. -/
def waitOrDial (n : NodePools) (k : Nat) (address : Bytes) : NodePools :=
  if address ∈ n.toConnectSet then n.setClient k (.waiting address)
  else { n.setClient k (.dialing address) with toConnectSet := address :: n.toConnectSet }

/-- The look-up of `connect`. -/
def lookUp (n : NodePools) (k : Nat) (address : Bytes) : NodePools :=
  match n.client.connections.lookup address with
  | some c =>
    if (n.client.conns c).reuseable then n.reuse k c
    else (n.setPool .client (n.client.retire address)).waitOrDial k address
  | none => n.waitOrDial k address

/-- The first critical section of `connect`: `task_count_++`, then the look-up. -/
def connect (n : NodePools) (k : Nat) (address : Bytes) : NodePools :=
  (n.setPool .client { n.client with taskCount := n.client.taskCount + 1 }).lookUp k address

/-- What a client that waits for another dialer finds. -/
def wakesOn (n : NodePools) (k : Nat) : Option Nat :=
  match n.clients k with
  | .waiting address => n.client.connections.lookup address
  | _ => none

/-- The last task leaves: the counter is `0` and nothing is left to read. -/
def lastTask (p : Pool) (unrecv : Nat) : Pool :=
  let p := { p with taskCount := p.taskCount - 1 }
  if p.taskCount = 0 ∧ unrecv = 0 then p.closeAll else p

def step (n : NodePools) : PoolAct → Option NodePools
  | .accept cid => some { n with server := (n.server.retire cid).insertNew cid }
  | .eof side c =>
    if c < (n.pool side).next ∧ ((n.pool side).conns c).state.isClosed = false then
      some (n.setPool side ((n.pool side).update c PoolConn.closeBegin))
    else none
  | .error side c =>
    if c < (n.pool side).next then
      some (n.setPool side ((n.pool side).update c fun x => { x with reuseable := false }))
    else none
  | .errorClose side c =>
    -- `set_reuseable(false)` has been called
    if c < (n.pool side).next ∧ ((n.pool side).conns c).reuseable = false then
      some (n.setPool side ((n.pool side).update c PoolConn.closeBegin))
    else none
  | .closeEnd side c =>
    if ((n.pool side).conns c).state = .closing then
      some (n.setPool side ((n.pool side).update c PoolConn.closeEnd))
    else none
  | .find k nodeId =>
    match n.server.connections.lookup nodeId with
    | some c =>
      if (n.server.conns c).reuseable then
        some { n with puts := Function.update n.puts k (some ⟨c, (n.server.conns c).state⟩) }
      else some n
    | none => some n
  | .put k =>
    match n.puts k with
    | some f =>
      if (n.server.conns f.conn).reuseable then
        some { n with puts := Function.update n.puts k none, handed := n.handed ++ [f] }
      else some { n with puts := Function.update n.puts k none }
    | none => none
  | .connect k address =>
    match n.clients k with
    | .idle => some (n.connect k address)
    | _ => none
  | .wake k =>
    match n.wakesOn k with
    | some c => some (n.reuse k c)
    | none => none
  | .publish k =>
    match n.clients k with
    | .dialing address =>
      some { n.setClient k (.connected n.client.next) with
        client := n.client.insertNew address
        toConnectSet := n.toConnectSet.filter (· ≠ address) }
    | _ => none
  | .dialFail k =>
    match n.clients k with
    | .dialing _ => some (n.setClient k .failed)
    | _ => none
  | .clientClose k unrecv =>
    match n.clients k with
    | .connected _ =>
      let client := lastTask n.client unrecv
      some { n.setClient k .idle with
        client := client
        toConnectSet := if client.taskCount = 0 ∧ unrecv = 0 then [] else n.toConnectSet }
    | _ => none
  | .serverStart => some { n with
      server := { n.server with taskCount := n.server.taskCount + 1 } }
  | .serverStop unrecv =>
    if 0 < n.server.taskCount then some { n with server := lastTask n.server unrecv } else none

/-- What a step is when it is possible, and what it has found. -/
inductive Does (n : NodePools) : PoolAct → NodePools → Prop
  | accept (cid : Bytes) :
    Does n (.accept cid) { n with server := (n.server.retire cid).insertNew cid }
  | eof {side : Side} {c : Nat} (hlt : c < (n.pool side).next)
    (hopen : ((n.pool side).conns c).state.isClosed = false) :
    Does n (.eof side c) (n.setPool side ((n.pool side).update c PoolConn.closeBegin))
  | error {side : Side} {c : Nat} (hlt : c < (n.pool side).next) :
    Does n (.error side c)
      (n.setPool side ((n.pool side).update c fun x => { x with reuseable := false }))
  | errorClose {side : Side} {c : Nat} (hlt : c < (n.pool side).next)
    (hflag : ((n.pool side).conns c).reuseable = false) :
    Does n (.errorClose side c) (n.setPool side ((n.pool side).update c PoolConn.closeBegin))
  | closeEnd {side : Side} {c : Nat} (hclosing : ((n.pool side).conns c).state = .closing) :
    Does n (.closeEnd side c) (n.setPool side ((n.pool side).update c PoolConn.closeEnd))
  | found {k c : Nat} {nodeId : Bytes} (hc : n.server.connections.lookup nodeId = some c)
    (hreuse : (n.server.conns c).reuseable = true) :
    Does n (.find k nodeId)
      { n with puts := Function.update n.puts k (some ⟨c, (n.server.conns c).state⟩) }
  | notFound (k : Nat) (nodeId : Bytes) : Does n (.find k nodeId) n
  | put {k : Nat} {f : Found} (hf : n.puts k = some f) :
    Does n (.put k) { n with puts := Function.update n.puts k none, handed := n.handed ++ [f] }
  | putNone {k : Nat} {f : Found} (hf : n.puts k = some f) :
    Does n (.put k) { n with puts := Function.update n.puts k none }
  | connect {k : Nat} (address : Bytes) (hk : n.clients k = .idle) :
    Does n (.connect k address) (n.connect k address)
  | wake {k c : Nat} (hc : n.wakesOn k = some c) : Does n (.wake k) (n.reuse k c)
  | publish {k : Nat} {address : Bytes} (hk : n.clients k = .dialing address) :
    Does n (.publish k) { n.setClient k (.connected n.client.next) with
      client := n.client.insertNew address
      toConnectSet := n.toConnectSet.filter (· ≠ address) }
  | dialFail {k : Nat} {address : Bytes} (hk : n.clients k = .dialing address) :
    Does n (.dialFail k) (n.setClient k .failed)
  | clientClose {k c : Nat} (unrecv : Nat) (hk : n.clients k = .connected c) :
    Does n (.clientClose k unrecv) { n.setClient k .idle with
      client := lastTask n.client unrecv
      toConnectSet :=
        if (lastTask n.client unrecv).taskCount = 0 ∧ unrecv = 0 then [] else n.toConnectSet }
  | serverStart :
    Does n .serverStart { n with server := { n.server with taskCount := n.server.taskCount + 1 } }
  | serverStop (unrecv : Nat) (hcount : 0 < n.server.taskCount) :
    Does n (.serverStop unrecv) { n with server := lastTask n.server unrecv }

/-- The invariants of the pools are derived from this, and none looks into `step`. -/
theorem does_of_step {n n' : NodePools} {a : PoolAct} (h : n.step a = some n') : n.Does a n' := by
  cases a with
  | accept cid =>
    cases h
    exact .accept cid
  | eof side c =>
    simp only [step, Option.ite_none_right_eq_some, Option.some.injEq] at h
    obtain ⟨hguard, rfl⟩ := h
    exact .eof hguard.1 hguard.2
  | error side c =>
    simp only [step, Option.ite_none_right_eq_some, Option.some.injEq] at h
    obtain ⟨hlt, rfl⟩ := h
    exact .error hlt
  | errorClose side c =>
    simp only [step, Option.ite_none_right_eq_some, Option.some.injEq] at h
    obtain ⟨hguard, rfl⟩ := h
    exact .errorClose hguard.1 hguard.2
  | closeEnd side c =>
    simp only [step, Option.ite_none_right_eq_some, Option.some.injEq] at h
    obtain ⟨hclosing, rfl⟩ := h
    exact .closeEnd hclosing
  | find k nodeId =>
    simp only [step] at h
    split at h
    · next c hc =>
      split at h
      · next hreuse =>
        cases h
        exact .found hc hreuse
      · cases h
        exact .notFound k nodeId
    · cases h
      exact .notFound k nodeId
  | put k =>
    simp only [step] at h
    split at h
    · next f hf =>
      split at h
      · cases h
        exact .put hf
      · cases h
        exact .putNone hf
    · cases h
  | connect k address =>
    simp only [step] at h
    split at h
    · next hk =>
      cases h
      exact .connect address hk
    · cases h
  | wake k =>
    simp only [step] at h
    split at h
    · next c hc =>
      cases h
      exact .wake hc
    · cases h
  | publish k =>
    simp only [step] at h
    split at h
    · next address hk =>
      cases h
      exact .publish hk
    · cases h
  | dialFail k =>
    simp only [step] at h
    split at h
    · next address hk =>
      cases h
      exact .dialFail hk
    · cases h
  | clientClose k unrecv =>
    simp only [step] at h
    split at h
    · next c hk =>
      cases h
      exact .clientClose unrecv hk
    · cases h
  | serverStart =>
    cases h
    exact .serverStart
  | serverStop unrecv =>
    simp only [step, Option.ite_none_right_eq_some, Option.some.injEq] at h
    obtain ⟨hcount, rfl⟩ := h
    exact .serverStop unrecv hcount

/-- What `find_connection` returns. -/
def findConnection (n : NodePools) (cid : Bytes) : Option Nat :=
  match n.server.connections.lookup cid with
  | some c => if (n.server.conns c).reuseable then some c else none
  | none => none

/-- It is the look-up in the calls of `put_connection` of all tasks. -/
theorem step_find (n : NodePools) (k : Nat) (cid : Bytes) :
    n.step (.find k cid) = some (match n.findConnection cid with
      | some c => { n with puts := Function.update n.puts k (some ⟨c, (n.server.conns c).state⟩) }
      | none => n) := by
  unfold findConnection
  simp only [step]
  cases n.server.connections.lookup cid with
  | none => rfl
  | some c =>
    simp only
    split <;> rfl

end NodePools

end Rosetta

import Rosetta.Client.Dial
import Rosetta.Pool.Effect
import Rosetta.Pool.Reuse
import Rosetta.Server.Listener

/-!
# How often a descriptor is closed

`Connection::close(task_id)` calls `::close` unless the connection is closed already, and
`~Connection` does not. `SSLConnection::close()` has another signature: it does not override the
former, and `~SSLConnection` calls it whatever has been called before.

* `NodeFds` — the pools with the references of the tasks, the calls of `close` that are under way,
  and the calls of `::close`
* `Moves` — what a step does to one connection
* `Once` — the steps after which each descriptor is closed once
-/

namespace Rosetta

open Lib

/-- Calls of `close(cfd)` in `handle_accept`. -/
def Accepted.closes : Accepted → Nat
  | .registered _ => 0
  | _ => 1

/-- How far the last `TCPClient::close` is in its loop over `connections_`. -/
inductive LastClose where
  | between
  /-- in `close`, with the connection of this address -/
  | closing (address : Bytes) (c : Nat)
  deriving DecidableEq

/-- The map or `recycle_connections_` holds `c`. -/
def Pool.Has (p : Pool) (c : Nat) : Prop := p.Kept c ∨ c ∈ p.recycleConnections

instance (p : Pool) (c : Nat) : Decidable (p.Has c) := inferInstanceAs (Decidable (_ ∨ _))

structure NodeFds where
  pools : NodePools := {}
  /-- the references of the tasks: `conn_`, `server_connections_`, `connection_map` and those of the
  calls of `put_connection` -/
  held : List (Side × Nat) := []
  /-- calls of `::close` on the descriptor of a connection, without those of the destructor -/
  closes : Side → Nat → Nat := fun _ _ => 0
  /-- the same for each descriptor that was given no connection -/
  refused : List Nat := []
  /-- the connection that the epoll thread is closing -/
  epoll : Option (Side × Nat) := none
  lastClose : Option LastClose := none
  /-- the clients of which a handshake has failed, after `connected_ = true` -/
  halfConnected : List Nat := []

inductive FdAct where
  /-- a step of the pools that closes nothing -/
  | quiet (a : PoolAct)
  /-- `handle_accept` of a client that is turned away -/
  | refuse (expectedCids : List ClientId) (g : Greeting)
  /-- a round of the dial loop that does not connect -/
  | round (k : Nat) (timeout : Int) (cid : Bytes) (a : Attempt)
  | eof (side : Side) (c : Nat)
  | errorClose (side : Side) (c : Nat)
  /-- the rest of `close` in the epoll thread -/
  | closeEnd
  | serverStop (unrecv : Nat)
  /-- `TCPClient::close`, up to the loop over `connections_` -/
  | clientClose (k unrecv : Nat)
  /-- the loop goes on with this address: `close` begins, or the entry is erased -/
  | lastNext (address : Bytes)
  /-- `close` ends, and the entry is erased -/
  | lastEnd
  /-- the end of the loop, and the critical section -/
  | lastDone
  /-- a task lets go of a reference -/
  | drop (side : Side) (c : Nat)

namespace Pool

variable {p : Pool}

theorem kept_iff {c : Nat} : p.Kept c ↔ ∃ key, p.connections.lookup key = some c := by
  constructor
  · rintro ⟨e, he, rfl⟩
    exact ⟨e.1, AList.mem_lookup_iff.mpr he⟩
  · rintro ⟨key, hkey⟩
    exact kept_of_lookup hkey

/-- What is moved to `recycle_connections_` is still held. -/
theorem has_retire (p : Pool) (key : Bytes) (c : Nat) : (p.retire key).Has c ↔ p.Has c := by
  unfold Has
  rw [kept_iff, kept_iff]
  constructor
  · rintro (⟨key', hkey'⟩ | hmem)
    · exact .inl ⟨key', (NodePools.lookup_retire hkey').2⟩
    · unfold retire at hmem
      split at hmem
      · next c' hc' =>
        rcases List.mem_append.mp hmem with hmem | hmem
        · exact .inr hmem
        · obtain rfl := List.mem_singleton.mp hmem
          exact .inl ⟨key, hc'⟩
      · exact .inr hmem
  · unfold retire
    split
    · next c' hc' =>
      rintro (⟨key', hkey'⟩ | hmem)
      · by_cases hk : key' = key
        · subst hk
          obtain rfl := Option.some.inj (hc'.symm.trans hkey')
          exact .inr (List.mem_append_right _ (List.mem_singleton_self _))
        · exact .inl ⟨key', lookup_erase_eq_some.mpr ⟨hk, hkey'⟩⟩
      · exact .inr (List.mem_append_left _ hmem)
    · exact id

theorem lookup_retire_self (p : Pool) (key : Bytes) :
    (p.retire key).connections.lookup key = none := by
  unfold retire
  split
  · simp
  · next h => exact h

theorem has_insertNew (p : Pool) (key : Bytes) {c : Nat} (hc : c ≠ p.next) :
    (p.insertNew key).Has c ↔ p.Has c := by
  unfold Has
  rw [kept_iff, kept_iff]
  constructor
  · rintro (⟨key', hkey'⟩ | hmem)
    · exact .inl ⟨key', (NodePools.lookup_insertNew hkey').resolve_right hc⟩
    · exact .inr hmem
  · rintro (⟨key', hkey'⟩ | hmem)
    · refine .inl ⟨key', ?_⟩
      simp only [insertNew]
      split
      · exact hkey'
      · next hnone =>
        refine lookup_insert_eq_some.mpr (.inr ⟨?_, hkey'⟩)
        rintro rfl
        simp [hkey'] at hnone
    · exact .inr hmem

theorem has_insertNew_self (p : Pool) {key : Bytes} (h : p.connections.lookup key = none) :
    (p.insertNew key).Has p.next := by
  have hkey : (p.insertNew key).connections.lookup key = some p.next := by simp [insertNew, h]
  exact .inl (kept_of_lookup hkey)

/-- What becomes of a connection in a step that closes nothing; `given` says that the step gives it
to a task. -/
inductive Moves (p p' : Pool) (given : Prop) (c : Nat) : Prop
  | keep (hnext : c < p'.next ↔ c < p.next) (hstate : (p'.conns c).state = (p.conns c).state)
    (hhas : p'.Has c ↔ p.Has c) (hgiven : given → p.Has c)
  | born (hnext : ¬ c < p.next) (hnext' : c < p'.next) (hstate : (p'.conns c).state = .invalid)
    (hheld : p'.Has c ∨ given)

theorem moves_insertNew (p : Pool) (key : Bytes) {given : Prop} {c : Nat}
    (hgiven : c ≠ p.next → given → p.Has c) (hheld : c = p.next → (p.insertNew key).Has c ∨ given) :
    p.Moves (p.insertNew key) given c := by
  by_cases hc : c = p.next
  · refine .born (by omega) (by simp [insertNew, hc]) ?_ (hheld hc)
    simp [insertNew, hc]
  · refine .keep ?_ ?_ (has_insertNew p key hc) (hgiven hc)
    · simp only [insertNew]
      omega
    · simp [insertNew, hc]

theorem Moves.of_retire {p' : Pool} (key : Bytes) {given : Prop} {c : Nat}
    (h : (p.retire key).Moves p' given c) : p.Moves p' given c := by
  obtain ⟨hconns, hnext⟩ := NodePools.Pool.conns_retire p key
  cases h with
  | keep hnext' hstate hhas hgiven =>
    rw [hnext] at hnext'
    rw [hconns] at hstate
    rw [has_retire] at hhas hgiven
    exact .keep hnext' hstate hhas hgiven
  | born hnot hlt hstate hheld =>
    rw [hnext] at hnot
    exact .born hnot hlt hstate hheld

end Pool

namespace PoolAct

/-- Nothing is closed, and no reference is lost. -/
def isQuiet : PoolAct → Bool
  | .eof _ _ | .errorClose _ _ | .closeEnd _ _ | .clientClose _ _ | .serverStop _ => false
  | _ => true

/-- It needs `task_mtx_` of `TCPClient`. -/
def locks : PoolAct → Bool
  | .connect _ _ | .wake _ | .publish _ => true
  | _ => false

/-- It is made by the epoll thread. -/
def polls : PoolAct → Bool
  | .accept _ | .error _ _ => true
  | _ => false

end PoolAct

namespace NodePools

variable {n n' : NodePools}

/-- `conn_` of the client `k`, when it is connected. -/
def connOf (n : NodePools) (k : Nat) : List (Side × Nat) :=
  match n.clients k with
  | .connected c => [(.client, c)]
  | _ => []

/-- The references that a step gives to a task. -/
def taken (n n' : NodePools) : PoolAct → List (Side × Nat)
  | .find _ nodeId => (n.findConnection nodeId).toList.map (Side.server, ·)
  | .connect k _ | .wake k | .publish k => n'.connOf k
  | _ => []

theorem mem_connOf {k c : Nat} {side : Side} :
    (side, c) ∈ n.connOf k ↔ side = .client ∧ n.clients k = .connected c := by
  unfold connOf
  split
  · next c' hc' => simp [hc', eq_comm]
  · next hnot => simpa using fun _ => hnot c

theorem moves_of_same {side : Side} {given : Prop} {c : Nat}
    (hconns : (n'.pool side).conns = (n.pool side).conns)
    (hnext : (n'.pool side).next = (n.pool side).next)
    (hhas : (n'.pool side).Has c ↔ (n.pool side).Has c) (hgiven : given → (n.pool side).Has c) :
    (n.pool side).Moves (n'.pool side) given c :=
  .keep (by rw [hnext]) (by rw [hconns]) hhas hgiven

/-- `connect` changes the map at most by moving an entry. -/
theorem connect_client (k : Nat) (address : Bytes) :
    (n.connect k address).client = { n.client with taskCount := n.client.taskCount + 1 } ∨
      (n.connect k address).client =
        Pool.retire { n.client with taskCount := n.client.taskCount + 1 } address := by
  unfold connect lookUp
  split
  · split
    · exact .inl rfl
    · obtain ⟨_, -, -, hclient, -⟩ := waitOrDial_spec (n := NodePools.setPool _ .client _) k address
      exact .inr hclient
  · obtain ⟨_, -, -, hclient, -⟩ := waitOrDial_spec (n := NodePools.setPool _ .client _) k address
    exact .inl hclient

theorem has_of_lookup {p : Pool} {key : Bytes} {c : Nat} (h : p.connections.lookup key = some c) :
    p.Has c := .inl (Pool.kept_of_lookup h)

theorem has_of_findConnection {nodeId : Bytes} {c : Nat} (h : n.findConnection nodeId = some c) :
    n.server.Has c := by
  unfold findConnection at h
  split at h
  · next c' hc' =>
    split at h
    · obtain rfl := Option.some.inj h
      exact has_of_lookup hc'
    · cases h
  · cases h

/-- The map of the dialed connections changes only with `task_mtx_`. -/
theorem connections_of_quiet {a : PoolAct} (hq : a.isQuiet = true) (hlocks : a.locks = false)
    (hstep : n.step a = some n') : n'.client.connections = n.client.connections := by
  cases does_of_step hstep with
  | eof | errorClose | closeEnd | clientClose | serverStop => cases hq
  | connect | wake | publish => cases hlocks
  | @error side c => cases side <;> rfl
  | accept | found | notFound | put | putNone | dialFail | serverStart => rfl

/-- **What a quiet step does to a connection.** -/
theorem moves_quiet {a : PoolAct} (hq : a.isQuiet = true) (hstep : n.step a = some n') (side : Side)
    (c : Nat) : (n.pool side).Moves (n'.pool side) ((side, c) ∈ n.taken n' a) c := by
  cases does_of_step hstep with
  | eof | errorClose | closeEnd | clientClose | serverStop => cases hq
  | accept cid =>
    cases side with
    | server =>
      refine Pool.Moves.of_retire cid (Pool.moves_insertNew _ cid (by simp [taken]) ?_)
      rintro rfl
      exact .inl (Pool.has_insertNew_self _ (Pool.lookup_retire_self _ cid))
    | client => exact moves_of_same rfl rfl Iff.rfl (by simp [taken])
  | @error side' c' hlt =>
    by_cases hside : side = side'
    · subst hside
      rw [pool_setPool]
      refine .keep Iff.rfl ?_ Iff.rfl (by simp [taken])
      by_cases hc : c = c'
      · subst hc
        simp [Pool.update]
      · simp [Pool.update, hc]
    · rw [pool_setPool_ne hside]
      exact .keep Iff.rfl rfl Iff.rfl (by simp [taken])
  | found hc hreuse | notFound k nodeId =>
    refine moves_of_same (by cases side <;> rfl) (by cases side <;> rfl)
      (by cases side <;> exact Iff.rfl) fun hmem => ?_
    obtain ⟨c', hc', heq⟩ := List.mem_map.mp hmem
    obtain ⟨rfl, rfl⟩ := Prod.mk.inj heq
    exact has_of_findConnection (Option.mem_toList.mp hc')
  | put | putNone | dialFail | serverStart =>
    exact moves_of_same (by cases side <;> rfl) (by cases side <;> rfl)
      (by cases side <;> exact Iff.rfl) (by simp [taken])
  | @connect k address hk =>
    obtain ⟨st, hst, hclients, hconns, hnext, -, hserver, -⟩ := n.connect_spec k address
    have hgiven : (side, c) ∈ n.taken (n.connect k address) (.connect k address) →
        side = .client ∧ n.client.Has c := by
      intro hmem
      obtain ⟨rfl, hc⟩ := mem_connOf.mp hmem
      rw [hclients, Function.update_self] at hc
      exact ⟨rfl, has_of_lookup (hst c hc)⟩
    cases side with
    | server =>
      have hsame : (n.connect k address).pool .server = n.pool .server := hserver
      exact moves_of_same (by rw [hsame]) (by rw [hsame]) (by rw [hsame]) fun hmem =>
        absurd (hgiven hmem).1 (by simp)
    | client =>
      refine moves_of_same hconns hnext ?_ fun hmem => (hgiven hmem).2
      have hpool : (n.connect k address).pool .client = (n.connect k address).client := rfl
      rw [hpool]
      rcases n.connect_client k address with hclient | hclient
      · rw [hclient]
        exact Iff.rfl
      · rw [hclient]
        exact Pool.has_retire _ address c
  | @wake k c' hc =>
    refine moves_of_same (by cases side <;> rfl) (by cases side <;> rfl)
      (by cases side <;> exact Iff.rfl) fun hmem => ?_
    obtain ⟨rfl, hk⟩ := mem_connOf.mp hmem
    simp only [reuse, setClient, Function.update_self] at hk
    obtain rfl := ClientState.connected.inj hk
    obtain ⟨address, hlookup⟩ := lookup_of_wakesOn hc
    exact has_of_lookup hlookup
  | @publish k address hk =>
    cases side with
    | server =>
      exact moves_of_same rfl rfl Iff.rfl fun hmem => absurd (mem_connOf.mp hmem).1 (by simp)
    | client =>
      refine Pool.moves_insertNew _ address ?_ ?_
      · intro hne hmem
        have hk := (mem_connOf.mp hmem).2
        simp only [setClient, Function.update_self] at hk
        exact absurd (ClientState.connected.inj hk).symm hne
      · rintro rfl
        exact .inr (mem_connOf.mpr ⟨rfl, by simp [setClient]; rfl⟩)

end NodePools

namespace NodeFds

def Made (s : NodeFds) (side : Side) (c : Nat) : Prop := c < (s.pools.pool side).next

/-- There is a reference to the connection. Without one it is destroyed. -/
def Ref (s : NodeFds) (side : Side) (c : Nat) : Prop :=
  (s.pools.pool side).Has c ∨ (side, c) ∈ s.held

instance (s : NodeFds) (side : Side) (c : Nat) : Decidable (s.Ref side c) :=
  inferInstanceAs (Decidable (_ ∨ _))

instance (s : NodeFds) (side : Side) (c : Nat) : Decidable (s.Made side c) :=
  inferInstanceAs (Decidable (_ < _))

def state (s : NodeFds) (side : Side) (c : Nat) : ConnState := ((s.pools.pool side).conns c).state

/-- What the epoll thread needs for an event of a connection. -/
def CanPoll (s : NodeFds) (side : Side) (c : Nat) : Prop :=
  s.epoll = none ∧ 0 < s.pools.server.taskCount ∧ s.Ref side c

instance (s : NodeFds) (side : Side) (c : Nat) : Decidable (s.CanPoll side c) :=
  inferInstanceAs (Decidable (_ ∧ _))

/-- The server that stops is the last one, and nothing is left to read. -/
def LastStop (s : NodeFds) (unrecv : Nat) : Prop := s.pools.server.taskCount - 1 = 0 ∧ unrecv = 0

instance (s : NodeFds) (unrecv : Nat) : Decidable (s.LastStop unrecv) :=
  inferInstanceAs (Decidable (_ ∧ _))

def setConn (s : NodeFds) (side : Side) (c : Nat) (f : PoolConn → PoolConn) : NodeFds :=
  { s with pools := s.pools.setPool side ((s.pools.pool side).update c f) }

def setClient (s : NodeFds) (p : Pool) : NodeFds := { s with pools := s.pools.setPool .client p }

def eraseAddress (s : NodeFds) (address : Bytes) : NodeFds :=
  s.setClient { s.pools.client with connections := s.pools.client.connections.erase address }

/-- `::close(fd_)`. -/
def closed (s : NodeFds) (side : Side) (c : Nat) : Side → Nat → Nat :=
  fun side' c' => if side' = side ∧ c' = c then s.closes side' c' + 1 else s.closes side' c'

/-- Makes a connection that is in no map, for a client. -/
def dialed (s : NodeFds) (k : Nat) : NodeFds :=
  { s.setClient { s.pools.client with
      conns := Function.update s.pools.client.conns s.pools.client.next {}
      next := s.pools.client.next + 1 } with
    held := s.held ++ [(.client, s.pools.client.next)]
    halfConnected := k :: s.halfConnected }

/-- `connected_`, when the client is not in `connect`. -/
def isConnected (s : NodeFds) (k : Nat) : Bool :=
  match s.pools.clients k with
  | .connected _ => true
  | .failed => s.halfConnected.contains k
  | _ => false

/-- `close` in the epoll thread, up to `::close`. -/
def pollClose (s : NodeFds) (side : Side) (c : Nat) : NodeFds :=
  if s.state side c = .closed then s
  else { s.setConn side c PoolConn.closeBegin with epoll := some (side, c) }

/-- `ssl` says which connections are an `SSLConnection`. -/
def step (ssl : Side → Nat → Bool) (s : NodeFds) : FdAct → Option NodeFds
  | .quiet a =>
    if a.isQuiet ∧ (a.locks → s.lastClose = none) ∧
        (a.polls → s.epoll = none ∧ 0 < s.pools.server.taskCount) then
      (s.pools.step a).map fun n => { s with pools := n, held := s.held ++ s.pools.taken n a }
    else none
  | .refuse expectedCids g =>
    match greet expectedCids g with
    | .ok r =>
      if r.isRegistered then none else some { s with refused := s.refused ++ [r.closes] }
    | .error _ => none
  | .round k timeout cid a =>
    match s.pools.clients k, dialOnce (ssl .client s.pools.client.next) timeout cid a with
    | .dialing _, some r =>
      match r.exit with
      | .noSocket | .connected => none
      | .noHandshake => some (s.dialed k)
      | _ => some { s with refused := s.refused ++ [r.closes] }
    | _, _ => none
  | .eof side c =>
    -- `handle_read` looks at `state_` before it reads, and another `close` may have come since
    if s.CanPoll side c ∧ s.Made side c then some (s.pollClose side c) else none
  | .errorClose side c =>
    if s.CanPoll side c ∧ s.Made side c ∧ ((s.pools.pool side).conns c).reuseable = false then
      some (s.pollClose side c)
    else none
  | .closeEnd =>
    match s.epoll with
    | some (side, c) =>
      some { s.setConn side c PoolConn.closeEnd with closes := s.closed side c, epoll := none }
    | none => none
  | .serverStop unrecv =>
    -- `loop_thread_.join()` comes first, so after the last one there is no epoll thread
    if s.pools.server.taskCount = 1 → s.epoll = none then
      (s.pools.step (.serverStop unrecv)).map fun n => { s with
        pools := n
        closes := fun side c =>
          if s.LastStop unrecv ∧ side = .server ∧ s.pools.server.Kept c ∧ s.state side c ≠ .closed
          then s.closes side c + 1 else s.closes side c }
    else none
  | .clientClose k unrecv =>
    if s.isConnected k ∧ s.lastClose = none then
      let taskCount := s.pools.client.taskCount - 1
      some { s with
        pools := { s.pools.setClient k .idle with client := { s.pools.client with taskCount } }
        lastClose := if taskCount = 0 ∧ unrecv = 0 then some .between else none
        halfConnected := s.halfConnected.filter (· ≠ k) }
    else none
  | .lastNext address =>
    match s.lastClose, s.pools.client.connections.lookup address with
    | some .between, some c =>
      if s.state .client c = .closed then some (s.eraseAddress address)
      else some { s.setConn .client c PoolConn.closeBegin with
        lastClose := some (.closing address c) }
    | _, _ => none
  | .lastEnd =>
    match s.lastClose with
    | some (.closing address c) =>
      some { (s.setConn .client c PoolConn.closeEnd).eraseAddress address with
        closes := s.closed .client c, lastClose := some .between }
    | _ => none
  | .lastDone =>
    if s.lastClose = some .between ∧ s.pools.client.connections.entries = [] then
      some { s with
        pools := { s.pools with
          client := { s.pools.client with recycleConnections := [] }, toConnectSet := [] }
        lastClose := none }
    else none
  | .drop side c =>
    if (side, c) ∈ s.held then some { s with held := s.held.erase (side, c) } else none

/-- What a step is when it is possible. -/
inductive Does (ssl : Side → Nat → Bool) (s : NodeFds) : FdAct → NodeFds → Prop
  | quiet {a : PoolAct} {n : NodePools} (hq : a.isQuiet = true)
    (hlocks : a.locks = true → s.lastClose = none) (hn : s.pools.step a = some n) :
    Does ssl s (.quiet a) { s with pools := n, held := s.held ++ s.pools.taken n a }
  | refuse {expectedCids : List ClientId} {g : Greeting} {r : Accepted}
    (hr : r.isRegistered = false) :
    Does ssl s (.refuse expectedCids g) { s with refused := s.refused ++ [r.closes] }
  | round {k : Nat} {timeout : Int} {cid : Bytes} {a : Attempt} {r : DialRound}
    (hr : r.closes = 1) :
    Does ssl s (.round k timeout cid a) { s with refused := s.refused ++ [r.closes] }
  | dialed {k : Nat} {timeout : Int} {cid : Bytes} {a : Attempt} :
    Does ssl s (.round k timeout cid a) (s.dialed k)
  | eof {side : Side} {c : Nat} (hcan : s.CanPoll side c) :
    Does ssl s (.eof side c) (s.pollClose side c)
  | errorClose {side : Side} {c : Nat} (hcan : s.CanPoll side c) :
    Does ssl s (.errorClose side c) (s.pollClose side c)
  | closeEnd {side : Side} {c : Nat} (hepoll : s.epoll = some (side, c)) :
    Does ssl s .closeEnd
      { s.setConn side c PoolConn.closeEnd with closes := s.closed side c, epoll := none }
  | serverStop (unrecv : Nat) :
    Does ssl s (.serverStop unrecv) { s with
      pools := { s.pools with server := NodePools.lastTask s.pools.server unrecv }
      closes := fun side c =>
        if s.LastStop unrecv ∧ side = .server ∧ s.pools.server.Kept c ∧ s.state side c ≠ .closed
        then s.closes side c + 1 else s.closes side c }
  | clientClose {k unrecv taskCount : Nat} {l : Option LastClose} (hnone : s.lastClose = none)
    (hl : l = some .between ∨ l = none) :
    Does ssl s (.clientClose k unrecv) { s with
      pools := { s.pools.setClient k .idle with client := { s.pools.client with taskCount } }
      lastClose := l
      halfConnected := s.halfConnected.filter (· ≠ k) }
  | lastSkip {address : Bytes} {c : Nat} (hbetween : s.lastClose = some .between)
    (hc : s.pools.client.connections.lookup address = some c)
    (hclosed : s.state .client c = .closed) :
    Does ssl s (.lastNext address) (s.eraseAddress address)
  | lastNext {address : Bytes} {c : Nat} (hbetween : s.lastClose = some .between)
    (hc : s.pools.client.connections.lookup address = some c)
    (hopen : s.state .client c ≠ .closed) :
    Does ssl s (.lastNext address)
      { s.setConn .client c PoolConn.closeBegin with lastClose := some (.closing address c) }
  | lastEnd {address : Bytes} {c : Nat} (hlast : s.lastClose = some (.closing address c)) :
    Does ssl s .lastEnd { (s.setConn .client c PoolConn.closeEnd).eraseAddress address with
      closes := s.closed .client c, lastClose := some .between }
  | lastDone (hbetween : s.lastClose = some .between) :
    Does ssl s .lastDone { s with
      pools := { s.pools with
        client := { s.pools.client with recycleConnections := [] }, toConnectSet := [] }
      lastClose := none }
  | drop (side : Side) (c : Nat) :
    Does ssl s (.drop side c) { s with held := s.held.erase (side, c) }

/-- A round that is over has closed its descriptor, or has made a connection of it. -/
theorem closes_eq_one {ssl : Bool} {timeout : Int} {cid : Bytes} {a : Attempt} {r : DialRound}
    (h : dialOnce ssl timeout cid a = some r) (hsocket : r.exit ≠ .noSocket)
    (hconnected : r.exit.setsConnected = false) : r.closes = 1 := by
  have hfd : 0 ≤ a.socketFd := by
    by_contra hneg
    unfold dialOnce at h
    rw [if_pos (by omega)] at h
    obtain rfl := Option.some.inj h
    exact hsocket rfl
  rw [closes_of_dialOnce h hfd, hconnected]
  rfl

theorem does_of_step {ssl : Side → Nat → Bool} {s s' : NodeFds} {a : FdAct}
    (h : step ssl s a = some s') : Does ssl s a s' := by
  cases a with
  | quiet a =>
    simp only [step, Option.ite_none_right_eq_some] at h
    obtain ⟨⟨hq, hlocks, -⟩, h⟩ := h
    obtain ⟨n, hn, rfl⟩ := Option.map_eq_some_iff.mp h
    exact .quiet hq hlocks hn
  | refuse expectedCids g =>
    simp only [step] at h
    split at h
    · simp only [Option.ite_none_left_eq_some, Option.some.injEq] at h
      obtain ⟨hnot, rfl⟩ := h
      exact .refuse (Bool.eq_false_iff.mpr hnot)
    · cases h
  | round k timeout cid a =>
    simp only [step] at h
    split at h
    · next r _ hr =>
      cases hexit : r.exit with
      | noSocket | connected => simp [hexit] at h
      | noHandshake =>
        simp only [hexit, Option.some.injEq] at h
        exact h ▸ .dialed
      | notConnected | noAck | noCid =>
        simp only [hexit, Option.some.injEq] at h
        have hcloses : r.closes = 1 :=
          closes_eq_one hr (by simp [hexit]) (by simp [hexit, DialExit.setsConnected])
        exact h ▸ .round hcloses
    · cases h
  | eof side c =>
    simp only [step, Option.ite_none_right_eq_some, Option.some.injEq] at h
    obtain ⟨⟨hcan, -⟩, rfl⟩ := h
    exact .eof hcan
  | errorClose side c =>
    simp only [step, Option.ite_none_right_eq_some, Option.some.injEq] at h
    obtain ⟨⟨hcan, -, -⟩, rfl⟩ := h
    exact .errorClose hcan
  | closeEnd =>
    simp only [step] at h
    split at h
    · next side c hepoll =>
      obtain rfl := Option.some.inj h
      exact .closeEnd hepoll
    · cases h
  | serverStop unrecv =>
    simp only [step, Option.ite_none_right_eq_some] at h
    obtain ⟨-, h⟩ := h
    obtain ⟨n, hn, rfl⟩ := Option.map_eq_some_iff.mp h
    cases NodePools.does_of_step hn with
    | serverStop => exact .serverStop unrecv
  | clientClose k unrecv =>
    simp only [step, Option.ite_none_right_eq_some, Option.some.injEq] at h
    obtain ⟨⟨-, hnone⟩, rfl⟩ := h
    refine .clientClose hnone ?_
    split
    · exact .inl rfl
    · exact .inr rfl
  | lastNext address =>
    simp only [step] at h
    split at h
    · next c hbetween hc =>
      split at h
      · next hclosed =>
        obtain rfl := Option.some.inj h
        exact .lastSkip hbetween hc hclosed
      · next hopen =>
        obtain rfl := Option.some.inj h
        exact .lastNext hbetween hc hopen
    · cases h
  | lastEnd =>
    simp only [step] at h
    split at h
    · next address c hlast =>
      obtain rfl := Option.some.inj h
      exact .lastEnd hlast
    · cases h
  | lastDone =>
    simp only [step, Option.ite_none_right_eq_some, Option.some.injEq] at h
    obtain ⟨⟨hbetween, -⟩, rfl⟩ := h
    exact .lastDone hbetween
  | drop side c =>
    simp only [step, Option.ite_none_right_eq_some, Option.some.injEq] at h
    obtain ⟨-, rfl⟩ := h
    exact .drop side c

/-- `close(task_id)` of the connection does not go wrong: it does nothing, or it is that of a plain
connection and no other one is under way. -/
def MayClose (ssl : Side → Nat → Bool) (s : NodeFds) (side : Side) (c : Nat) : Prop :=
  s.state side c = .closed ∨ (ssl side c = false ∧ s.state side c ≠ .closing)

/-- The connection may be destroyed: its destructor closes it, or it is closed. -/
def MayGo (ssl : Side → Nat → Bool) (s : NodeFds) (side : Side) (c : Nat) : Prop :=
  ssl side c = true ∨ s.state side c = .closed

instance (ssl : Side → Nat → Bool) (s : NodeFds) (side : Side) (c : Nat) :
    Decidable (s.MayClose ssl side c) := inferInstanceAs (Decidable (_ ∨ _))

instance (ssl : Side → Nat → Bool) (s : NodeFds) (side : Side) (c : Nat) :
    Decidable (s.MayGo ssl side c) := inferInstanceAs (Decidable (_ ∨ _))

/-- What `recycle_connections_` alone holds may be destroyed. -/
def MayClear (ssl : Side → Nat → Bool) (s : NodeFds) (side : Side) : Prop :=
  ∀ c ∈ (s.pools.pool side).recycleConnections, (side, c) ∉ s.held → s.MayGo ssl side c

instance (ssl : Side → Nat → Bool) (s : NodeFds) (side : Side) : Decidable (s.MayClear ssl side) :=
  inferInstanceAs (Decidable (∀ c ∈ (s.pools.pool side).recycleConnections, _ → _))

/-- No `close(task_id)` meets an `SSLConnection` or another `close` of its connection, and no plain
connection is destroyed that is not closed. -/
def Once (ssl : Side → Nat → Bool) (s : NodeFds) : FdAct → Prop
  | .eof side c | .errorClose side c => s.MayClose ssl side c
  | .serverStop unrecv => s.LastStop unrecv →
    (∀ e ∈ s.pools.server.connections.entries, s.MayClose ssl .server e.2) ∧ s.MayClear ssl .server
  | .lastNext address =>
    ∀ c ∈ s.pools.client.connections.lookup address, s.MayClose ssl .client c
  | .lastDone => s.MayClear ssl .client
  | .drop side c =>
    s.held.count (side, c) = 1 → ¬ (s.pools.pool side).Has c → s.MayGo ssl side c
  | _ => True

instance (ssl : Side → Nat → Bool) (s : NodeFds) : DecidablePred (s.Once ssl)
  | .eof side c | .errorClose side c => inferInstanceAs (Decidable (s.MayClose ssl side c))
  | .serverStop unrecv => inferInstanceAs (Decidable (s.LastStop unrecv →
    (∀ e ∈ s.pools.server.connections.entries, s.MayClose ssl .server e.2) ∧
      s.MayClear ssl .server))
  | .lastNext address => inferInstanceAs (Decidable
    (∀ c ∈ s.pools.client.connections.lookup address, s.MayClose ssl .client c))
  | .lastDone => inferInstanceAs (Decidable (s.MayClear ssl .client))
  | .drop side c => inferInstanceAs (Decidable
    (s.held.count (side, c) = 1 → ¬ (s.pools.pool side).Has c → s.MayGo ssl side c))
  | .quiet _ | .refuse _ _ | .round _ _ _ _ | .closeEnd | .clientClose _ _ | .lastEnd =>
    isTrue trivial

/-! ## One connection -/

/-- The epoll thread closes it. -/
def ByEpoll (s : NodeFds) (side : Side) (c : Nat) : Prop := s.epoll = some (side, c)

/-- The last client closes it. -/
def ByLast (s : NodeFds) (side : Side) (c : Nat) : Prop :=
  side = .client ∧ ∃ address, s.lastClose = some (.closing address c)

/-- What holds of a connection, whatever has happened to it. -/
structure Tidy (ssl : Side → Nat → Bool) (s : NodeFds) (side : Side) (c : Nat) : Prop where
  made : s.Ref side c → s.Made side c
  fresh : ¬ s.Made side c → s.closes side c = 0
  busy : s.ByEpoll side c ∨ s.ByLast side c →
    s.Made side c ∧ ssl side c = false ∧ s.state side c = .closing
  alone : ¬ (s.ByEpoll side c ∧ s.ByLast side c)
  closes : s.Made side c →
    s.closes side c = if ssl side c = false ∧ s.state side c = .closed then 1 else 0
  gone : s.Made side c → ¬ s.Ref side c → s.MayGo ssl side c

/-- What a step does to one connection. -/
inductive Moves (ssl : Side → Nat → Bool) (s s' : NodeFds) (side : Side) (c : Nat) : Prop
  | keep (hmade : s'.Made side c ↔ s.Made side c) (hstate : s'.state side c = s.state side c)
    (hcloses : s'.closes side c = s.closes side c) (hepoll : s'.ByEpoll side c ↔ s.ByEpoll side c)
    (hlast : s'.ByLast side c ↔ s.ByLast side c) (href : s'.Ref side c → s.Ref side c)
    (hgone : s.Ref side c → s'.Ref side c ∨ s.MayGo ssl side c)
  | born (hmade : ¬ s.Made side c) (hmade' : s'.Made side c) (hstate : s'.state side c = .invalid)
    (hcloses : s'.closes side c = s.closes side c) (hepoll : s'.ByEpoll side c → s.ByEpoll side c)
    (hlast : s'.ByLast side c → s.ByLast side c) (href : s'.Ref side c)
  | begin_ (hmade : s.Made side c) (hmade' : s'.Made side c) (hssl : ssl side c = false)
    (hopen : s.state side c ≠ .closed) (hidle : s.state side c ≠ .closing)
    (hstate : s'.state side c = .closing) (hcloses : s'.closes side c = s.closes side c)
    (halone : ¬ (s'.ByEpoll side c ∧ s'.ByLast side c)) (href : s'.Ref side c)
  | finish (hbusy : s.ByEpoll side c ∨ s.ByLast side c) (hmade' : s'.Made side c)
    (hstate : s'.state side c = .closed) (hcloses : s'.closes side c = s.closes side c + 1)
    (hepoll : ¬ s'.ByEpoll side c) (hlast : ¬ s'.ByLast side c)
  | closeNow (hmade : s.Made side c) (hmade' : s'.Made side c) (hssl : ssl side c = false)
    (hopen : s.state side c ≠ .closed) (hidle : s.state side c ≠ .closing)
    (hstate : s'.state side c = .closed) (hcloses : s'.closes side c = s.closes side c + 1)
    (hepoll : s'.ByEpoll side c → s.ByEpoll side c) (hlast : s'.ByLast side c → s.ByLast side c)

variable {ssl : Side → Nat → Bool} {s s' : NodeFds} {side : Side} {c : Nat}

/-- **What a step leaves tidy.** -/
theorem Tidy.moves (h : s.Tidy ssl side c) (hm : Moves ssl s s' side c) : s'.Tidy ssl side c := by
  cases hm with
  | keep hmade hstate hcloses hepoll hlast href hgone =>
    refine ⟨fun hr => hmade.mpr (h.made (href hr)), ?_, ?_, ?_, ?_, ?_⟩
    · intro hnot
      rw [hcloses, h.fresh (fun hm => hnot (hmade.mpr hm))]
    · rw [hepoll, hlast, hmade, hstate]
      exact h.busy
    · rw [hepoll, hlast]
      exact h.alone
    · rw [hmade, hcloses, hstate]
      exact h.closes
    · intro hm hnot
      have hgo : s.MayGo ssl side c := by
        by_cases hr : s.Ref side c
        · exact (hgone hr).resolve_left hnot
        · exact h.gone (hmade.mp hm) hr
      unfold MayGo at hgo ⊢
      rwa [hstate]
  | born hmade hmade' hstate hcloses hepoll hlast href =>
    have hnot : ¬ (s.ByEpoll side c ∨ s.ByLast side c) := fun hb => hmade (h.busy hb).1
    refine ⟨fun _ => hmade', fun hnot => absurd hmade' hnot, ?_, ?_, ?_,
      fun _ hnr => absurd href hnr⟩
    · intro hb
      exact absurd (hb.imp hepoll hlast) hnot
    · intro hb
      exact hnot (.inl (hepoll hb.1))
    · intro _
      rw [hcloses, h.fresh hmade]
      simp [hstate]
  | begin_ hmade hmade' hssl hopen hidle hstate hcloses halone href =>
    refine ⟨fun _ => hmade', fun hnot => absurd hmade' hnot, fun _ => ⟨hmade', hssl, hstate⟩,
      halone, ?_, fun _ hnr => absurd href hnr⟩
    intro _
    rw [hcloses, h.closes hmade]
    simp [hstate, hopen]
  | finish hbusy hmade' hstate hcloses hepoll hlast =>
    obtain ⟨hmade, hssl, hclosing⟩ := h.busy hbusy
    refine ⟨fun _ => hmade', fun hnot => absurd hmade' hnot, ?_, fun hb => hepoll hb.1, ?_,
      fun _ _ => .inr hstate⟩
    · rintro (hb | hb)
      · exact absurd hb hepoll
      · exact absurd hb hlast
    · intro _
      rw [hcloses, h.closes hmade]
      simp [hstate, hssl, hclosing]
  | closeNow hmade hmade' hssl hopen hidle hstate hcloses hepoll hlast =>
    have hnot : ¬ (s.ByEpoll side c ∨ s.ByLast side c) := fun hb => hidle (h.busy hb).2.2
    refine ⟨fun _ => hmade', fun hnot => absurd hmade' hnot, ?_, ?_, ?_, fun _ _ => .inr hstate⟩
    · intro hb
      exact absurd (hb.imp hepoll hlast) hnot
    · intro hb
      exact hnot (.inl (hepoll hb.1))
    · intro _
      rw [hcloses, h.closes hmade]
      simp [hstate, hssl, hopen]

/-! ## The steps -/

/-- A step that is seen neither in the pools nor in the calls. -/
theorem moves_of_same (hpools : ∀ side, (s'.pools.pool side).conns = (s.pools.pool side).conns ∧
      (s'.pools.pool side).next = (s.pools.pool side).next ∧
      ∀ c, (s'.pools.pool side).Has c ↔ (s.pools.pool side).Has c)
    (hheld : s'.held = s.held) (hcloses : s'.closes = s.closes) (hepoll : s'.epoll = s.epoll)
    (hlast : s'.ByLast side c ↔ s.ByLast side c) : Moves ssl s s' side c := by
  obtain ⟨hconns, hnext, hhas⟩ := hpools side
  have href : s'.Ref side c ↔ s.Ref side c := by
    unfold Ref
    rw [hhas, hheld]
  refine .keep ?_ ?_ ?_ ?_ hlast href.mp fun h => .inl (href.mpr h)
  · unfold Made
    rw [hnext]
  · unfold state
    rw [hconns]
  · rw [hcloses]
  · unfold ByEpoll
    rw [hepoll]

theorem moves_grow {n : NodePools} {given : List (Side × Nat)} {halfConnected : List Nat}
    (h : (s.pools.pool side).Moves (n.pool side) ((side, c) ∈ given) c) :
    Moves ssl s { s with pools := n, held := s.held ++ given, halfConnected } side c := by
  cases h with
  | keep hnext hstate hhas hgiven =>
    refine .keep hnext hstate rfl Iff.rfl Iff.rfl ?_ ?_
    · rintro (h | h)
      · exact .inl (hhas.mp h)
      · rcases List.mem_append.mp h with h | h
        · exact .inr h
        · exact .inl (hgiven h)
    · rintro (h | h)
      · exact .inl (.inl (hhas.mpr h))
      · exact .inl (.inr (List.mem_append_left _ h))
  | born hnot hlt hstate hheld =>
    exact .born hnot hlt hstate rfl id id (hheld.imp_right (List.mem_append_right _))

variable {side' : Side} {c' : Nat} {f : PoolConn → PoolConn}

theorem made_setConn : (s.setConn side' c' f).Made side c ↔ s.Made side c := by
  unfold Made setConn
  by_cases h : side = side'
  · subst h
    rw [NodePools.pool_setPool]
    exact Iff.rfl
  · rw [NodePools.pool_setPool_ne h]

theorem has_setConn :
    ((s.setConn side' c' f).pools.pool side).Has c ↔ (s.pools.pool side).Has c := by
  unfold setConn
  by_cases h : side = side'
  · subst h
    rw [NodePools.pool_setPool]
    exact Iff.rfl
  · rw [NodePools.pool_setPool_ne h]

theorem state_setConn_self :
    (s.setConn side c f).state side c = (f ((s.pools.pool side).conns c)).state := by
  simp [state, setConn, NodePools.pool_setPool, Pool.update]

theorem state_setConn_ne (hne : ¬ (side = side' ∧ c = c')) :
    (s.setConn side' c' f).state side c = s.state side c := by
  unfold state setConn
  by_cases h : side = side'
  · subst h
    have hc : c ≠ c' := fun heq => hne ⟨rfl, heq⟩
    simp [NodePools.pool_setPool, Pool.update, hc]
  · rw [NodePools.pool_setPool_ne h]

theorem state_closeBegin (h : s.state side c ≠ .closed) :
    (s.setConn side c PoolConn.closeBegin).state side c = .closing := by
  have h : ((s.pools.pool side).conns c).state ≠ .closed := h
  rw [state_setConn_self]
  unfold PoolConn.closeBegin
  rw [if_pos h]

/-- The part of a step that is about the other connections. -/
theorem moves_other (hne : ¬ (side = side' ∧ c = c'))
    (hpools : s'.pools = (s.setConn side' c' f).pools)
    (hheld : s'.held = s.held) (hcloses : s'.closes side c = s.closes side c)
    (hepoll : s'.ByEpoll side c ↔ s.ByEpoll side c) (hlast : s'.ByLast side c ↔ s.ByLast side c) :
    Moves ssl s s' side c := by
  have href : s'.Ref side c ↔ s.Ref side c := by
    unfold Ref
    rw [hheld, hpools]
    exact or_congr_left has_setConn
  have hmade : s'.Made side c ↔ s.Made side c := by
    have hsame : (s.setConn side' c' f).Made side c ↔ s.Made side c := made_setConn
    unfold Made at hsame ⊢
    rwa [hpools]
  refine .keep hmade ?_ hcloses hepoll hlast href.mp fun h => .inl (href.mpr h)
  have hsame : (s.setConn side' c' f).state side c = s.state side c := state_setConn_ne hne
  unfold state at hsame ⊢
  rwa [hpools]

/-- `close` is called in the epoll thread. -/
theorem moves_pollClose (h : s.Tidy ssl side' c') (hmay : s.MayClose ssl side' c')
    (hcan : s.CanPoll side' c') : Moves ssl s (s.pollClose side' c') side c := by
  unfold pollClose
  by_cases hopen : s.state side' c' = .closed
  · rw [if_pos hopen]
    exact moves_of_same (fun _ => ⟨rfl, rfl, fun _ => Iff.rfl⟩) rfl rfl rfl Iff.rfl
  rw [if_neg hopen]
  obtain ⟨hidle, -, href⟩ := hcan
  obtain ⟨hssl, hnot⟩ := hmay.resolve_left hopen
  by_cases hne : side = side' ∧ c = c'
  · obtain ⟨rfl, rfl⟩ := hne
    refine .begin_ (h.made href) (made_setConn.mpr (h.made href)) hssl hopen hnot
      (state_closeBegin hopen) rfl ?_ (href.imp_left has_setConn.mpr)
    rintro ⟨-, hlast⟩
    exact hnot (h.busy (.inr hlast)).2.2
  · refine moves_other hne rfl rfl rfl ?_ Iff.rfl
    unfold ByEpoll
    rw [hidle]
    simp only [reduceCtorEq, iff_false, Option.some.injEq, Prod.mk.injEq]
    exact fun heq => hne ⟨heq.1.symm, heq.2.symm⟩

/-- The entry of an address goes. -/
theorem has_eraseAddress {address : Bytes}
    (hc' : s.pools.client.connections.lookup address = some c')
    (hne : ¬ (side = .client ∧ c = c')) :
    ((s.eraseAddress address).pools.pool side).Has c ↔ (s.pools.pool side).Has c := by
  cases side with
  | server => exact Iff.rfl
  | client =>
    have hc : c ≠ c' := fun heq => hne ⟨rfl, heq⟩
    have hkept : Pool.Kept { s.pools.client with
        connections := s.pools.client.connections.erase address } c ↔ s.pools.client.Kept c := by
      rw [Pool.kept_iff, Pool.kept_iff]
      constructor
      · rintro ⟨key, hkey⟩
        exact ⟨key, (lookup_erase_eq_some.mp hkey).2⟩
      · rintro ⟨key, hkey⟩
        refine ⟨key, lookup_erase_eq_some.mpr ⟨?_, hkey⟩⟩
        rintro rfl
        exact hc (Option.some.inj (hkey.symm.trans hc'))
    exact or_congr_left hkept

theorem ref_of_eraseAddress {address : Bytes} (h : (s.eraseAddress address).Ref side c) :
    s.Ref side c := by
  cases side with
  | server => exact h
  | client =>
    refine h.imp_left fun h => h.imp_left fun h => ?_
    obtain ⟨key, hkey⟩ := Pool.kept_iff.mp h
    exact Pool.kept_iff.mpr ⟨key, (lookup_erase_eq_some.mp hkey).2⟩

theorem made_eraseAddress {address : Bytes} :
    (s.eraseAddress address).Made side c ↔ s.Made side c := by
  cases side <;> exact Iff.rfl

theorem state_eraseAddress {address : Bytes} :
    (s.eraseAddress address).state side c = s.state side c := by
  cases side <;> rfl

/-- The loop of the last client finds a connection that is closed. -/
theorem moves_skip {address : Bytes} (hc' : s.pools.client.connections.lookup address = some c')
    (hclosed : s.state .client c' = .closed) : Moves ssl s (s.eraseAddress address) side c := by
  refine .keep made_eraseAddress state_eraseAddress rfl Iff.rfl Iff.rfl ref_of_eraseAddress ?_
  intro href
  by_cases hne : side = .client ∧ c = c'
  · obtain ⟨rfl, rfl⟩ := hne
    exact .inr (.inr hclosed)
  · exact .inl (href.imp_left (has_eraseAddress hc' hne).mpr)

/-- It begins to close a connection. -/
theorem moves_lastClose {address : Bytes} (h : s.Tidy ssl .client c')
    (hmay : s.MayClose ssl .client c') (hbetween : s.lastClose = some .between)
    (hc' : s.pools.client.connections.lookup address = some c')
    (hopen : s.state .client c' ≠ .closed) :
    Moves ssl s { s.setConn .client c' PoolConn.closeBegin with
      lastClose := some (.closing address c') } side c := by
  obtain ⟨hssl, hnot⟩ := hmay.resolve_left hopen
  have href : s.Ref .client c' := .inl (NodePools.has_of_lookup hc')
  by_cases hne : side = .client ∧ c = c'
  · obtain ⟨rfl, rfl⟩ := hne
    refine .begin_ (h.made href) (made_setConn.mpr (h.made href)) hssl hopen hnot
      (state_closeBegin hopen) rfl ?_ (href.imp_left has_setConn.mpr)
    rintro ⟨hepoll, -⟩
    exact hnot (h.busy (.inl hepoll)).2.2
  · refine moves_other hne rfl rfl rfl Iff.rfl ?_
    unfold ByLast
    rw [hbetween]
    constructor
    · rintro ⟨rfl, address', heq⟩
      obtain ⟨-, rfl⟩ := LastClose.closing.inj (Option.some.inj heq)
      exact absurd ⟨rfl, rfl⟩ hne
    · rintro ⟨-, address', heq⟩
      cases heq

/-- `::close` in the epoll thread. -/
theorem moves_closeEnd (h : s.Tidy ssl side' c') (hepoll : s.epoll = some (side', c')) :
    Moves ssl s { s.setConn side' c' PoolConn.closeEnd with
      closes := s.closed side' c', epoll := none } side c := by
  by_cases hne : side = side' ∧ c = c'
  · obtain ⟨rfl, rfl⟩ := hne
    have hbusy := h.busy (.inl hepoll)
    refine .finish (.inl hepoll) (made_setConn.mpr hbusy.1) state_setConn_self ?_
      (by simp [ByEpoll]) fun hlast => h.alone ⟨hepoll, hlast⟩
    simp [closed]
  · refine moves_other hne rfl rfl ?_ ?_ Iff.rfl
    · simp [closed, hne]
    · unfold ByEpoll
      rw [hepoll]
      simp only [reduceCtorEq, false_iff, Option.some.injEq, Prod.mk.injEq]
      exact fun heq => hne ⟨heq.1.symm, heq.2.symm⟩

/-- `::close` in the loop of the last client. -/
theorem moves_lastEnd {address : Bytes} (h : s.Tidy ssl .client c')
    (hlast : s.lastClose = some (.closing address c'))
    (hc' : s.pools.client.connections.lookup address = some c') :
    Moves ssl s { (s.setConn .client c' PoolConn.closeEnd).eraseAddress address with
      closes := s.closed .client c', lastClose := some .between } side c := by
  have hbusy := h.busy (.inr ⟨rfl, address, hlast⟩)
  by_cases hne : side = .client ∧ c = c'
  · obtain ⟨rfl, rfl⟩ := hne
    refine .finish (.inr ⟨rfl, address, hlast⟩) (made_eraseAddress.mpr (made_setConn.mpr hbusy.1))
      (state_eraseAddress.trans state_setConn_self) ?_
      (fun hepoll => h.alone ⟨hepoll, rfl, address, hlast⟩) ?_
    · simp [closed]
    · rintro ⟨-, address', heq⟩
      cases heq
  · have hhas := (has_eraseAddress (s := s.setConn .client c' PoolConn.closeEnd) hc' hne).trans
      has_setConn
    refine .keep (made_eraseAddress.trans made_setConn)
      (state_eraseAddress.trans (state_setConn_ne hne)) ?_ Iff.rfl ?_ (Or.imp_left hhas.mp)
      fun href => .inl (href.imp_left hhas.mpr)
    · simp [closed, hne]
    · unfold ByLast
      rw [hlast]
      constructor
      · rintro ⟨-, address', heq⟩
        cases heq
      · rintro ⟨rfl, address', heq⟩
        obtain ⟨-, rfl⟩ := LastClose.closing.inj (Option.some.inj heq)
        exact absurd ⟨rfl, rfl⟩ hne

/-- `recycle_connections_` is emptied. -/
theorem moves_lastDone {toConnectSet : List Bytes}
    (hmay : s.MayClear ssl .client) (hbetween : s.lastClose = some .between) :
    Moves ssl s { s with
      pools := { s.pools with
        client := { s.pools.client with recycleConnections := [] }, toConnectSet := toConnectSet }
      lastClose := none } side c := by
  refine .keep (by cases side <;> exact Iff.rfl) (by cases side <;> rfl) rfl Iff.rfl ?_ ?_ ?_
  · unfold ByLast
    rw [hbetween]
    constructor <;>
    · rintro ⟨-, address, heq⟩
      cases heq
  · cases side with
    | server => exact id
    | client =>
      rintro ((hkept | hmem) | hheld)
      · exact .inl (.inl hkept)
      · cases hmem
      · exact .inr hheld
  · cases side with
    | server => exact .inl
    | client =>
      rintro ((hkept | hmem) | hheld)
      · exact .inl (.inl (.inl hkept))
      · by_cases hheld : (Side.client, c) ∈ s.held
        · exact .inl (.inr hheld)
        · exact .inr (hmay c hmem hheld)
      · exact .inl (.inr hheld)

/-- A task lets go of a reference. -/
theorem moves_drop (hmay : s.held.count (side', c') = 1 → ¬ (s.pools.pool side').Has c' →
      s.MayGo ssl side' c') :
    Moves ssl s { s with held := s.held.erase (side', c') } side c := by
  refine .keep Iff.rfl rfl rfl Iff.rfl Iff.rfl ?_ ?_
  · rintro (hhas | hheld)
    · exact .inl hhas
    · exact .inr (List.mem_of_mem_erase hheld)
  · rintro (hhas | hheld)
    · exact .inl (.inl hhas)
    · by_cases hmem : (side, c) ∈ s.held.erase (side', c')
      · exact .inl (.inr hmem)
      · by_cases hhas : (s.pools.pool side).Has c
        · exact .inl (.inl hhas)
        · have heq : (side, c) = (side', c') := by
            by_contra hne
            exact hmem ((List.mem_erase_of_ne hne).mpr hheld)
          obtain ⟨rfl, rfl⟩ := Prod.mk.inj heq
          have hpos : 0 < s.held.count (side, c) := List.count_pos_iff.mpr hheld
          have hzero : (s.held.erase (side, c)).count (side, c) = 0 := List.count_eq_zero.mpr hmem
          rw [List.count_erase_self] at hzero
          exact .inr (hmay (by omega) hhas)

/-- The last server closes what the map holds, and empties both. -/
theorem moves_lastStop {n : NodePools} {unrecv : Nat} (h : s.Tidy ssl side c)
    (hmay : (∀ e ∈ s.pools.server.connections.entries, s.MayClose ssl .server e.2) ∧
      s.MayClear ssl .server) (hlast : s.LastStop unrecv)
    (hserver : n.server = NodePools.lastTask s.pools.server unrecv)
    (hclient : n.client = s.pools.client) :
    Moves ssl s { s with
      pools := n
      closes := fun side c =>
        if s.LastStop unrecv ∧ side = .server ∧ s.pools.server.Kept c ∧ s.state side c ≠ .closed
        then s.closes side c + 1 else s.closes side c } side c := by
  have hpool : n.server = Pool.closeAll
      { s.pools.server with taskCount := s.pools.server.taskCount - 1 } := by
    rw [hserver, NodePools.lastTask]
    exact if_pos hlast
  cases side with
  | client =>
    have hsame : n.pool .client = s.pools.pool .client := hclient
    refine .keep ?_ ?_ (by simp) Iff.rfl Iff.rfl ?_ ?_
    · simp only [Made, hsame]
    · simp only [state, hsame]
    · simp only [Ref, hsame]
      exact id
    · simp only [Ref, hsame]
      exact .inl
  | server =>
    have hmade : n.server.next = s.pools.server.next := by rw [hpool]; rfl
    have hconn : n.server.conns c =
        if s.pools.server.Kept c then (s.pools.server.conns c).close
        else s.pools.server.conns c := by
      rw [hpool]
      rfl
    have hhas : ¬ n.server.Has c := by
      rw [hpool]
      rintro (⟨e, he, -⟩ | hmem)
      · simp [Pool.closeAll] at he
      · simp [Pool.closeAll] at hmem
    by_cases hkept : s.pools.server.Kept c
    · rw [if_pos hkept] at hconn
      by_cases hclosed : s.state .server c = .closed
      · have hsame : (s.pools.server.conns c).close = s.pools.server.conns c :=
          if_neg (not_not.mpr hclosed)
        refine .keep ?_ ?_ (by simp [hclosed]) Iff.rfl Iff.rfl ?_ fun _ => .inr (.inr hclosed)
        · simp only [Made, NodePools.pool, hmade]
        · simp only [state, NodePools.pool, hconn, hsame]
        · exact fun href => .inr (href.resolve_left hhas)
      · obtain ⟨e, he, rfl⟩ := hkept
        obtain ⟨hssl, hidle⟩ := (hmay.1 e he).resolve_left hclosed
        have hm : s.Made .server e.2 := h.made (.inl (.inl ⟨e, he, rfl⟩))
        refine .closeNow hm ?_ hssl hclosed hidle ?_ ?_ id id
        · simpa only [Made, NodePools.pool, hmade] using hm
        · have hopen : (s.pools.server.conns e.2).state ≠ .closed := hclosed
          simp only [state, NodePools.pool, hconn, PoolConn.close, if_pos hopen, PoolConn.closeEnd]
        · simp [hlast, hclosed, show s.pools.server.Kept e.2 from ⟨e, he, rfl⟩]
    · rw [if_neg hkept] at hconn
      refine .keep ?_ ?_ (by simp [hkept]) Iff.rfl Iff.rfl ?_ ?_
      · simp only [Made, NodePools.pool, hmade]
      · simp only [state, NodePools.pool, hconn]
      · exact fun href => .inr (href.resolve_left hhas)
      · rintro ((h | hmem) | hheld)
        · exact absurd h hkept
        · by_cases hheld : (Side.server, c) ∈ s.held
          · exact .inl (.inr hheld)
          · exact .inr (hmay.2 c hmem hheld)
        · exact .inl (.inr hheld)

/-- A connection is made whose handshake has failed. -/
theorem moves_dialed (k : Nat) : Moves ssl s (s.dialed k) side c := by
  have hmoves : (s.pools.pool side).Moves ((s.dialed k).pools.pool side)
      ((side, c) ∈ [(Side.client, s.pools.client.next)]) c := by
    cases side with
    | server => exact .keep Iff.rfl rfl Iff.rfl (by simp)
    | client =>
      by_cases hc : c = s.pools.client.next
      · subst hc
        refine .born (Nat.lt_irrefl _) (Nat.lt_succ_self _) ?_ (.inr (List.mem_singleton_self _))
        simp [dialed, setClient, NodePools.pool_setPool]
      · refine .keep ?_ ?_ Iff.rfl (by simp [hc])
        · show c < s.pools.client.next + 1 ↔ c < s.pools.client.next
          omega
        · show ((Function.update s.pools.client.conns s.pools.client.next {}) c).state = _
          rw [Function.update_of_ne hc]
          rfl
  exact moves_grow hmoves

/-- What a run keeps, of all connections and of the descriptors that are closed at once. -/
structure Sound (ssl : Side → Nat → Bool) (s : NodeFds) : Prop where
  tidy : ∀ side c, s.Tidy ssl side c
  entry : ∀ address c, s.lastClose = some (.closing address c) →
    s.pools.client.connections.lookup address = some c
  refused : ∀ n ∈ s.refused, n = 1

/-- **What a step does to each of the connections.** -/
theorem moves_step {a : FdAct} (h : s.Sound ssl) (honce : s.Once ssl a)
    (hstep : step ssl s a = some s') (side : Side) (c : Nat) : Moves ssl s s' side c := by
  cases does_of_step hstep with
  | quiet hq _ hn => exact moves_grow (NodePools.moves_quiet hq hn side c)
  | refuse | round =>
    exact moves_of_same (fun _ => ⟨rfl, rfl, fun _ => Iff.rfl⟩) rfl rfl rfl Iff.rfl
  | @dialed k => exact moves_dialed k
  | eof hcan | errorClose hcan => exact moves_pollClose (h.tidy _ _) honce hcan
  | closeEnd hepoll => exact moves_closeEnd (h.tidy _ _) hepoll
  | serverStop unrecv =>
    by_cases hlast : s.LastStop unrecv
    · exact moves_lastStop (h.tidy side c) (honce hlast) hlast rfl rfl
    · refine moves_of_same (fun side => ?_) rfl (by simp [hlast]) rfl Iff.rfl
      cases side with
      | server =>
        have hsame : NodePools.lastTask s.pools.server unrecv =
            { s.pools.server with taskCount := s.pools.server.taskCount - 1 } := if_neg hlast
        simp only [NodePools.pool, hsame]
        exact ⟨trivial, trivial, fun _ => Iff.rfl⟩
      | client => exact ⟨rfl, rfl, fun _ => Iff.rfl⟩
  | clientClose hnone hl =>
    refine moves_of_same (fun side => by cases side <;> exact ⟨rfl, rfl, fun _ => Iff.rfl⟩) rfl rfl
      rfl ?_
    unfold ByLast
    rcases hl with rfl | rfl <;> simp [hnone]
  | lastSkip _ hc hclosed => exact moves_skip hc hclosed
  | lastNext hbetween hc hopen =>
    exact moves_lastClose (h.tidy .client _) (honce _ hc) hbetween hc hopen
  | lastEnd hlast => exact moves_lastEnd (h.tidy .client _) hlast (h.entry _ _ hlast)
  | lastDone hbetween => exact moves_lastDone honce hbetween
  | drop side' c' => exact moves_drop honce

theorem connections_setConn : (s.setConn side c f).pools.client.connections =
    s.pools.client.connections := by
  cases side <;> rfl

theorem connections_pollClose : (s.pollClose side c).pools.client.connections =
    s.pools.client.connections := by
  unfold pollClose
  split
  · rfl
  · exact connections_setConn

theorem lastClose_pollClose : (s.pollClose side c).lastClose = s.lastClose := by
  unfold pollClose
  split <;> rfl

/-- While the last client closes a connection, the entry stays. -/
theorem entry_step {a : FdAct} (h : s.Sound ssl) (hstep : step ssl s a = some s') (address : Bytes)
    (c : Nat) (hlast : s'.lastClose = some (.closing address c)) :
    s'.pools.client.connections.lookup address = some c := by
  cases does_of_step hstep with
  | @quiet a n hq hlocks hn =>
    have hunlocked : a.locks = false := by
      by_contra hl
      have hnone := hlocks (Bool.not_eq_false _ ▸ hl)
      simp [hnone] at hlast
    simp only [NodePools.connections_of_quiet hq hunlocked hn]
    exact h.entry address c hlast
  | refuse | round | dialed | serverStop | drop => exact h.entry address c hlast
  | eof | errorClose =>
    rw [lastClose_pollClose] at hlast
    rw [connections_pollClose]
    exact h.entry address c hlast
  | closeEnd =>
    have hold := h.entry address c hlast
    simpa only [connections_setConn] using hold
  | clientClose _ hl => rcases hl with rfl | rfl <;> cases hlast
  | lastSkip hbetween => exact absurd (hbetween.symm.trans hlast) (by simp)
  | lastNext _ hc =>
    obtain ⟨rfl, rfl⟩ := LastClose.closing.inj (Option.some.inj hlast)
    exact hc
  | lastEnd | lastDone => cases hlast

theorem closes_of_not_registered {r : Accepted} (h : r.isRegistered = false) : r.closes = 1 := by
  cases r with
  | registered => cases h
  | _ => rfl

theorem refused_step {a : FdAct} (h : ∀ n ∈ s.refused, n = 1) (hstep : step ssl s a = some s') :
    ∀ n ∈ s'.refused, n = 1 := by
  have happend : ∀ m, m = 1 → ∀ n ∈ s.refused ++ [m], n = 1 := by
    intro m hm n hn
    rcases List.mem_append.mp hn with hn | hn
    · exact h n hn
    · exact (List.mem_singleton.mp hn).trans hm
  cases does_of_step hstep with
  | refuse hr => exact happend _ (closes_of_not_registered hr)
  | round hr => exact happend _ hr
  | eof | errorClose =>
    unfold pollClose
    split <;> exact h
  | quiet | dialed | closeEnd | serverStop | clientClose | lastSkip | lastNext | lastEnd | lastDone
  | drop => exact h

theorem sound_step {a : FdAct} (h : s.Sound ssl) (honce : s.Once ssl a)
    (hstep : step ssl s a = some s') : s'.Sound ssl where
  tidy := fun side c => (h.tidy side c).moves (moves_step h honce hstep side c)
  entry := entry_step h hstep
  refused := refused_step h.refused hstep

theorem sound_start (ssl : Side → Nat → Bool) : Sound ssl {} where
  tidy := by
    intro side c
    have hpool : (({} : NodeFds).pools.pool side) = {} := by cases side <;> rfl
    have hnot : ¬ ({} : NodeFds).Made side c := by simp [Made, hpool]
    refine ⟨?_, fun _ => rfl, ?_, ?_, fun hm => absurd hm hnot, fun hm => absurd hm hnot⟩
    · rintro ((hkept | hmem) | hheld)
      · rw [hpool] at hkept
        obtain ⟨key, hkey⟩ := Pool.kept_iff.mp hkept
        simp at hkey
      · simp [hpool] at hmem
      · cases hheld
    · rintro (hepoll | ⟨-, address, hlast⟩)
      · cases hepoll
      · cases hlast
    · rintro ⟨hepoll, -⟩
      cases hepoll
  entry := by
    intro address c hlast
    cases hlast
  refused := by simp

/-! ## Closed once -/

/-- All calls of `::close` on the descriptor of a connection: a connection that nobody refers to has
been destroyed. -/
def total (ssl : Side → Nat → Bool) (s : NodeFds) (side : Side) (c : Nat) : Nat :=
  s.closes side c + if ssl side c = true ∧ s.Made side c ∧ ¬ s.Ref side c then 1 else 0

/-- The maps and `recycle_connections_` are empty, and no task refers to a connection. -/
def Ended (s : NodeFds) : Prop :=
  s.held = [] ∧
    ∀ side, (s.pools.pool side).connections = ∅ ∧ (s.pools.pool side).recycleConnections = []

structure ClosedOnce (ssl : Side → Nat → Bool) (s : NodeFds) : Prop where
  atMost : ∀ side c, s.total ssl side c ≤ 1
  refused : ∀ n ∈ s.refused, n = 1
  ended : s.Ended → ∀ side c, s.Made side c → s.total ssl side c = 1

theorem Tidy.total_le (h : s.Tidy ssl side c) : s.total ssl side c ≤ 1 := by
  unfold total
  by_cases hm : s.Made side c
  · rw [h.closes hm]
    cases hssl : ssl side c with
    | true => by_cases hr : s.Ref side c <;> simp [hm, hr]
    | false => by_cases hclosed : s.state side c = .closed <;> simp [hclosed]
  · simp [h.fresh hm, hm]

theorem Tidy.total_eq (h : s.Tidy ssl side c) (hm : s.Made side c) (hgone : ¬ s.Ref side c) :
    s.total ssl side c = 1 := by
  unfold total
  rw [h.closes hm]
  have hgo := h.gone hm hgone
  cases hssl : ssl side c with
  | true => simp [hm, hgone]
  | false =>
    have hclosed := hgo.resolve_left (by simp [hssl])
    simp [hclosed]

theorem Ended.not_ref (h : s.Ended) (side : Side) (c : Nat) : ¬ s.Ref side c := by
  obtain ⟨hheld, hpools⟩ := h
  obtain ⟨hconnections, hrecycle⟩ := hpools side
  rintro ((hkept | hmem) | hmem)
  · obtain ⟨key, hkey⟩ := Pool.kept_iff.mp hkept
    simp [hconnections] at hkey
  · simp [hrecycle] at hmem
  · simp [hheld] at hmem

/-- **Each descriptor is closed once** in a run in which no `close(task_id)` meets an
`SSLConnection` or another `close` that is under way, and no plain connection is destroyed before it
is closed. -/
theorem closed_once {acts : List FdAct} (hacts : AllSteps (step ssl) (Once ssl) {} acts)
    (hrun : run (step ssl) {} acts = some s) : s.ClosedOnce ssl := by
  have h : s.Sound ssl := run_invariant_of (fun _ _ _ => sound_step) (sound_start ssl) hacts hrun
  exact ⟨fun side c => (h.tidy side c).total_le, h.refused,
    fun hended side c hm => (h.tidy side c).total_eq hm (hended.not_ref side c)⟩

/-- One plain connection is accepted and one is dialed in the second round; the last client closes
the latter, and the last server the former. -/
theorem closed_once_small : ∃ acts s,
    AllSteps (step fun _ _ => false) (Once fun _ _ => false) {} acts ∧
    run (step fun _ _ => false) {} acts = some s ∧ s.Ended ∧ s.Made .server 0 ∧
    s.Made .client 0 ∧ s.refused.length = 2 ∧ s.ClosedOnce fun _ _ => false := by
  obtain ⟨acts, s, hacts, hrun, hended, hserver, hclient, hlen⟩ : ∃ acts s,
      AllSteps (step fun _ _ => false) (Once fun _ _ => false) {} acts ∧
      run (step fun _ _ => false) {} acts = some s ∧ s.Ended ∧ s.Made .server 0 ∧
      s.Made .client 0 ∧ s.refused.length = 2 :=
    ⟨[.quiet .serverStart, .quiet (.connect 0 [9]), .round 0 10 [7]
        { socketFd := 3, connects := [(.ok, 0)], ackRet := 0, cidRet := 0 }, .quiet (.publish 0),
      .refuse [] { ackRet := -1, lenRead := none, cidRead := none }, .quiet (.accept [8]),
      .quiet (.find 0 [8]), .quiet (.put 0), .clientClose 0 0, .lastNext [9], .lastEnd, .lastDone,
      .drop .client 0, .serverStop 0, .drop .server 0], _, by decide, rfl,
      ⟨rfl, fun side => by cases side <;> exact ⟨rfl, rfl⟩⟩, by decide, by decide, rfl⟩
  exact ⟨acts, s, hacts, hrun, hended, hserver, hclient, hlen, closed_once hacts hrun⟩

/-- A peer dials again while its connection is open: the old one is never closed. An EOF comes while
the last client closes: `::close` is called twice. And an `SSLConnection` is closed by the last
client and by its destructor. -/
theorem not_closed_once :
    (∃ (acts : List FdAct) (s : NodeFds), run (step fun _ _ => false) {} acts = some s ∧ s.Ended ∧
      s.Made .server 0 ∧ s.total (fun _ _ => false) .server 0 = 0) ∧
    (∃ (acts : List FdAct) (s : NodeFds), run (step fun _ _ => false) {} acts = some s ∧ s.Ended ∧
      s.total (fun _ _ => false) .client 0 = 2) ∧
    ∃ (acts : List FdAct) (s : NodeFds), run (step fun _ _ => true) {} acts = some s ∧ s.Ended ∧
      s.total (fun _ _ => true) .client 0 = 2 := by
  refine ⟨⟨[.quiet .serverStart, .quiet (.accept [8]), .quiet (.accept [8]), .serverStop 0], _, rfl,
      ⟨rfl, fun side => by cases side <;> exact ⟨rfl, rfl⟩⟩, by decide, by decide⟩,
    ⟨[.quiet .serverStart, .quiet (.connect 0 [9]), .quiet (.publish 0), .clientClose 0 0,
      .eof .client 0, .lastNext [9], .lastEnd, .lastDone, .closeEnd, .drop .client 0,
      .serverStop 0], _, rfl, ⟨rfl, fun side => by cases side <;> exact ⟨rfl, rfl⟩⟩, by decide⟩,
    ⟨[.quiet .serverStart, .quiet (.connect 0 [9]), .quiet (.publish 0), .clientClose 0 0,
      .lastNext [9], .lastEnd, .lastDone, .drop .client 0, .serverStop 0], _, rfl,
      ⟨rfl, fun side => by cases side <;> exact ⟨rfl, rfl⟩⟩, by decide⟩⟩

end NodeFds

end Rosetta

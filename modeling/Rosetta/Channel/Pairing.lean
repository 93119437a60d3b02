import Rosetta.Client.Connect
import Rosetta.Lib.Ledger

/-!
# `start` and `stop` of the connections of a channel

`BasicIO::init` runs one thread for each peer. The thread of a peer that it dials makes a `TCPClient`
and calls `connect`; the thread of a peer that dials calls `put_connection` until that has worked.
Both call `Connection::start` on the way, and `BasicIO::close` calls `Connection::stop`. What it stops
is what two records say: `connected_` with `conn_`, and `server_connections_`.

* `BasicIO` — the channel, with all calls that it has made
* `unpaired` — the connection whose calls a step makes uneven
* `balance` — the calls of `start` less those of `stop`, made and to come
* `paired` — when each `start` has its `stop`
-/

namespace Rosetta

open Lib

/-- A connection that a channel has in its hand. -/
inductive ConnRef where
  | pooled (side : Side) (c : Nat)
  /-- made in a round of the dial loop of the thread `j`, and in no map -/
  | dialed (j round : Nat)
  deriving DecidableEq

/-- A call of `Connection::start` or `Connection::stop`. -/
inductive ConnCall where
  | start (conn : ConnRef) (task : Bytes)
  | stop (conn : ConnRef) (task : Bytes)
  deriving DecidableEq

/-- How far `TCPClient::close` is. -/
inductive CloseAt where
  | open_
  /-- in `stop` -/
  | stopping
  | closed
  deriving DecidableEq

structure TCPClient where
  sid : Bytes
  /-- `server_infos_[j]`; the thread of an id that `client_infos_` repeats reads behind its end -/
  dialer : Option Dialer
  /-- after `clients.insert`, whether `clients` has it -/
  kept : Option Bool := none
  phase : ConnectPhase := .called
  connected : Bool := false
  conn : Option ConnRef := none
  closeAt : CloseAt := .open_

/-- Where the loop around `put_connection` is. -/
inductive PutAt where
  | looking
  /-- behind `find_connection`, which has returned a connection -/
  | found (c : Nat)
  | done
  deriving DecidableEq

/-- A thread of `init`. -/
inductive ConnThread where
  | client (x : TCPClient)
  | server (cid : Bytes) (at_ : PutAt)

inductive IOStage where
  | created
  /-- `TCPServer::start` has failed; `stop` then joins a thread that there is not -/
  | failed
  /-- `TCPServer::start` has worked, and the threads run -/
  | init
  /-- in `close`, after `init` has returned -/
  | closing
  /-- `TCPServer::stop` has returned -/
  | stopped
  deriving DecidableEq

structure BasicIO where
  taskId : Bytes
  pools : NodePools
  threads : List ConnThread
  serverConnections : AList fun _ : Bytes => Nat := ∅
  calls : List ConnCall := []
  stage : IOStage := .created

/-- What the constructor gets, with what the clients find out. -/
structure IOSetup where
  taskId : Bytes
  serverInfos : List (Bytes × Dialer)
  clientInfos : List Bytes

inductive IOAct where
  /-- `TCPServer::start` -/
  | serverStart (ok : Bool)
  /-- a client is made and put into `clients` -/
  | make (j : Nat)
  /-- a step of its `connect` -/
  | connect (j : Nat) (a : ConnectAct)
  | find (j : Nat)
  /-- the rest of `put_connection` -/
  | put (j : Nat)
  /-- `close` begins -/
  | close
  /-- `TCPClient::close`, up to the call of `stop` -/
  | clientStop (j : Nat)
  /-- the rest of it, when `stop` has returned -/
  | clientLeave (j unrecv : Nat)
  | serverStop (unrecv : Nat)
  /-- a step of the epoll thread or of another channel -/
  | other (a : PoolAct)

/-- A step of the call itself. -/
def ConnectAct.isOwn : ConnectAct → Bool
  | .other _ => false
  | _ => true

namespace TCPClient

/-- `close` will call `stop` on `c`. -/
def owes (x : TCPClient) (c : ConnRef) : Bool :=
  match x.phase with
  | .returned _ => x.connected && x.conn = some c
  | _ => false

/-- `connect` has returned. -/
def Returned (x : TCPClient) : Prop := x.phase = .returned true ∨ x.phase = .returned false

instance (x : TCPClient) : Decidable x.Returned := inferInstanceAs (Decidable (_ ∨ _))

/-- `conn_` after a step of `connect` in the thread `j` that has led to `t`. -/
def connAfter (x : TCPClient) (j : Nat) (d : Dialer) (t : ConnectCall) (a : ConnectAct) :
    Option ConnRef :=
  if t.phase = .returned true then
    match t.pools.clients d.client with
    | .connected c => some (.pooled .client c)
    | _ => x.conn
  else
    match a, x.phase with
    | .round a, .dialing rounds =>
      match dialOnce d.isSslSocket d.timeout d.cid a with
      | some r => if r.exit.setsConnected then some (.dialed j rounds) else x.conn
      | none => x.conn
    | _, _ => x.conn

/-- The client after this step. -/
def after (x : TCPClient) (j : Nat) (d : Dialer) (t : ConnectCall) (a : ConnectAct) : TCPClient :=
  { x with phase := t.phase, connected := t.connected, conn := x.connAfter j d t a }

/-- The call of `start` in a step that has led to this state. -/
def started (x : TCPClient) (taskId : Bytes) : List ConnCall :=
  match x.phase, x.conn with
  | .returned true, some c => [.start c taskId]
  | _, _ => []

/-- The connection that `connect` leaves in `conn_` when it gives up in this round, with `connected_`
set. -/
def leftConnected (x : TCPClient) (j : Nat) (a : Attempt) : Option ConnRef := do
  let d ← x.dialer
  let r ← dialOnce d.isSslSocket d.timeout d.cid a
  match x.phase with
  | .dialing rounds =>
    if r.exit = .connected ∨ rounds + 1 < dialRounds d.connRetries then none
    else if r.exit = .noHandshake then some (.dialed j rounds)
    else if x.connected then x.conn
    else none
  | _ => none

/-- The connection that a step of `connect` leaves so. -/
def leftBy (x : TCPClient) (j : Nat) : ConnectAct → Option ConnRef
  | .round a => x.leftConnected j a
  | _ => none

end TCPClient

namespace ConnThread

def owes (c : ConnRef) : ConnThread → Bool
  | .client x => x.owes c
  | .server _ (.found c') => c = .pooled .server c'
  | .server _ _ => false

/-- `clients` has the client of this id. -/
def Keeps (sid : Bytes) : ConnThread → Prop
  | .client x => x.sid = sid ∧ x.kept = some true
  | .server _ _ => False

instance (sid : Bytes) : DecidablePred (Keeps sid)
  | .client x => inferInstanceAs (Decidable (x.sid = sid ∧ x.kept = some true))
  | .server _ _ => isFalse id

/-- The thread has ended. A client that is not in `clients` is destroyed at the end. -/
def Done : ConnThread → Prop
  | .client x => x.Returned ∧ (x.kept = some true ∨ x.closeAt = .closed)
  | .server _ p => p = .done

instance : DecidablePred Done
  | .client x => inferInstanceAs (Decidable (x.Returned ∧ (x.kept = some true ∨ x.closeAt = .closed)))
  | .server _ p => inferInstanceAs (Decidable (p = .done))

/-- Its client, if it has one, is closed. -/
def Closed : ConnThread → Prop
  | .client x => x.Returned ∧ x.closeAt = .closed
  | .server _ p => p = .done

instance : DecidablePred Closed
  | .client x => inferInstanceAs (Decidable (x.Returned ∧ x.closeAt = .closed))
  | .server _ p => inferInstanceAs (Decidable (p = .done))

end ConnThread

namespace BasicIO

/-- `conn_f` looks the id up among the servers first. -/
def start (c : IOSetup) (n : NodePools) : BasicIO where
  taskId := c.taskId
  pools := n
  threads := (c.serverInfos.map Prod.fst ++ c.clientInfos).mapIdx fun j id =>
    if id ∈ c.serverInfos.map Prod.fst then
      .client { sid := id, dialer := c.serverInfos[j]?.map fun info => { info.2 with client := j } }
    else .server id .looking

def setThread (s : BasicIO) (j : Nat) (t : ConnThread) : BasicIO :=
  { s with threads := s.threads.set j t }

def call (s : BasicIO) (k : ConnCall) : BasicIO := { s with calls := s.calls ++ [k] }

/-- The stage in which a client is closed. -/
def closesIn (x : TCPClient) : IOStage := if x.kept = some true then .closing else .init

def step (s : BasicIO) : IOAct → Option BasicIO
  | .serverStart ok =>
    if s.stage = .created then
      (s.pools.step .serverStart).map fun n =>
        { s with pools := n, stage := if ok then .init else .failed }
    else none
  | .make j =>
    match s.threads[j]? with
    | some (.client x) =>
      if s.stage = .init ∧ x.kept = none then
        some (s.setThread j (.client { x with kept := some (decide (∀ t ∈ s.threads, ¬ t.Keeps x.sid)) }))
      else none
    | _ => none
  | .connect j a =>
    match s.threads[j]? with
    | some (.client x) =>
      match x.dialer with
      | some d =>
        if s.stage = .init ∧ x.kept ≠ none ∧ a.isOwn then
          (ConnectCall.step d ⟨s.pools, s.pools.shared, x.phase, x.connected⟩ a).map fun t =>
            { s.setThread j (.client (x.after j d t a)) with
              pools := t.pools
              calls := s.calls ++ (x.after j d t a).started s.taskId }
        else none
      | none => none
    | _ => none
  | .find j =>
    match s.threads[j]? with
    | some (.server cid .looking) =>
      if s.stage = .init then
        match s.pools.findConnection cid with
        | some c =>
          some ((s.setThread j (.server cid (.found c))).call (.start (.pooled .server c) s.taskId))
        | none => some s
      else none
    | _ => none
  | .put j =>
    match s.threads[j]? with
    | some (.server cid (.found c)) =>
      if s.stage ≠ .init then none
      else if (s.pools.server.conns c).reuseable then
        -- `map::insert` keeps an entry that is there
        some { s.setThread j (.server cid .done) with
          serverConnections := if (s.serverConnections.lookup cid).isSome then s.serverConnections
            else s.serverConnections.insert cid c }
      else some (s.setThread j (.server cid .looking))
    | _ => none
  | .close =>
    if s.stage = .init ∧ ∀ t ∈ s.threads, t.Done then some { s with stage := .closing } else none
  | .clientStop j =>
    match s.threads[j]? with
    | some (.client x) =>
      if x.Returned ∧ x.kept ≠ none ∧ x.closeAt = .open_ ∧ s.stage = closesIn x then
        if x.connected then
          x.conn.map fun c =>
            (s.setThread j (.client { x with connected := false, closeAt := .stopping })).call
              (.stop c s.taskId)
        else some (s.setThread j (.client { x with closeAt := .closed }))
      else none
    | _ => none
  | .clientLeave j unrecv =>
    match s.threads[j]? with
    | some (.client x) =>
      match x.dialer with
      | some d =>
        -- a connection that was not started has no client in the pools, and its `stop` does not return
        if x.closeAt = .stopping ∧ s.stage = closesIn x then
          (s.pools.step (.clientClose d.client unrecv)).map fun n =>
            { s with pools := n }.setThread j (.client { x with closeAt := .closed })
        else none
      | none => none
    | _ => none
  | .serverStop unrecv =>
    if s.stage = .closing ∧ ∀ t ∈ s.threads, t.Closed then
      (s.pools.step (.serverStop unrecv)).map fun n =>
        { s with
          pools := n
          calls := s.calls ++
            s.serverConnections.entries.map fun e => .stop (.pooled .server e.2) s.taskId
          serverConnections := ∅
          stage := .stopped }
    else none
  | .other a =>
    if ∀ k ∈ a.client, s.threads.length ≤ k then
      (s.pools.step a).map fun n => { s with pools := n }
    else none

/-- What a step is when it is possible. -/
inductive Does (s : BasicIO) : IOAct → BasicIO → Prop
  | serverStart {ok : Bool} {n : NodePools} (hstage : s.stage = .created) :
    Does s (.serverStart ok) { s with pools := n, stage := if ok then .init else .failed }
  | make {j : Nat} {x : TCPClient} (kept : Bool) (hx : s.threads[j]? = some (.client x))
    (hstage : s.stage = .init) :
    Does s (.make j) (s.setThread j (.client { x with kept := some kept }))
  | connect {j : Nat} {x : TCPClient} {d : Dialer} {a : ConnectAct} {t : ConnectCall}
    (hx : s.threads[j]? = some (.client x)) (hd : x.dialer = some d) (hstage : s.stage = .init)
    (ha : a.isOwn = true)
    (ht : ConnectCall.Does d ⟨s.pools, s.pools.shared, x.phase, x.connected⟩ a t) :
    Does s (.connect j a) { s.setThread j (.client (x.after j d t a)) with
      pools := t.pools, calls := s.calls ++ (x.after j d t a).started s.taskId }
  | found {j c : Nat} {cid : Bytes} (hx : s.threads[j]? = some (.server cid .looking))
    (hstage : s.stage = .init) (hc : s.pools.findConnection cid = some c) :
    Does s (.find j)
      ((s.setThread j (.server cid (.found c))).call (.start (.pooled .server c) s.taskId))
  | notFound (j : Nat) : Does s (.find j) s
  | put {j c : Nat} {cid : Bytes} (hx : s.threads[j]? = some (.server cid (.found c)))
    (hstage : s.stage = .init) (hreuse : (s.pools.server.conns c).reuseable = true) :
    Does s (.put j) { s.setThread j (.server cid .done) with
      serverConnections := if (s.serverConnections.lookup cid).isSome then s.serverConnections
        else s.serverConnections.insert cid c }
  | putBack {j c : Nat} {cid : Bytes} (hx : s.threads[j]? = some (.server cid (.found c)))
    (hstage : s.stage = .init) (hreuse : (s.pools.server.conns c).reuseable ≠ true) :
    Does s (.put j) (s.setThread j (.server cid .looking))
  | close (hstage : s.stage = .init) : Does s .close { s with stage := .closing }
  | clientStop {j : Nat} {x : TCPClient} {c : ConnRef} (hx : s.threads[j]? = some (.client x))
    (hreturned : x.Returned) (hstage : s.stage = closesIn x) (hconnected : x.connected = true)
    (hc : x.conn = some c) :
    Does s (.clientStop j)
      ((s.setThread j (.client { x with connected := false, closeAt := .stopping })).call
        (.stop c s.taskId))
  | clientClosed {j : Nat} {x : TCPClient} (hx : s.threads[j]? = some (.client x))
    (hreturned : x.Returned) (hstage : s.stage = closesIn x) (hconnected : x.connected = false) :
    Does s (.clientStop j) (s.setThread j (.client { x with closeAt := .closed }))
  | clientLeave {j unrecv : Nat} {x : TCPClient} {n : NodePools}
    (hx : s.threads[j]? = some (.client x)) (hstopping : x.closeAt = .stopping)
    (hstage : s.stage = closesIn x) :
    Does s (.clientLeave j unrecv)
      ({ s with pools := n }.setThread j (.client { x with closeAt := .closed }))
  | serverStop {unrecv : Nat} {n : NodePools} (hclosed : ∀ t ∈ s.threads, t.Closed) :
    Does s (.serverStop unrecv) { s with
      pools := n
      calls := s.calls ++
        s.serverConnections.entries.map fun e => .stop (.pooled .server e.2) s.taskId
      serverConnections := ∅
      stage := .stopped }
  | other {a : PoolAct} {n : NodePools} : Does s (.other a) { s with pools := n }

theorem does_of_step {s s' : BasicIO} {a : IOAct} (h : s.step a = some s') : s.Does a s' := by
  cases a with
  | serverStart ok =>
    simp only [step, Option.ite_none_right_eq_some] at h
    obtain ⟨hstage, h⟩ := h
    obtain ⟨n, -, rfl⟩ := Option.map_eq_some_iff.mp h
    exact .serverStart hstage
  | make j =>
    simp only [step] at h
    split at h
    · next x hx =>
      simp only [Option.ite_none_right_eq_some, Option.some.injEq] at h
      obtain ⟨hguard, rfl⟩ := h
      exact .make _ hx hguard.1
    · cases h
  | connect j a =>
    simp only [step] at h
    split at h
    · next x hx =>
      split at h
      · next d hd =>
        simp only [Option.ite_none_right_eq_some] at h
        obtain ⟨⟨hstage, -, ha⟩, h⟩ := h
        obtain ⟨t, ht, rfl⟩ := Option.map_eq_some_iff.mp h
        exact .connect hx hd hstage ha (ConnectCall.does_of_step ht)
      · cases h
    · cases h
  | find j =>
    simp only [step] at h
    split at h
    · next cid hx =>
      simp only [Option.ite_none_right_eq_some] at h
      obtain ⟨hstage, h⟩ := h
      split at h
      · next c hc =>
        obtain rfl := Option.some.inj h
        exact .found hx hstage hc
      · obtain rfl := Option.some.inj h
        exact .notFound j
    · cases h
  | put j =>
    simp only [step] at h
    split at h
    · next cid c hx =>
      split at h
      · cases h
      · next hstage =>
        split at h
        · next hreuse =>
          obtain rfl := Option.some.inj h
          exact .put hx (not_not.mp hstage) hreuse
        · next hreuse =>
          obtain rfl := Option.some.inj h
          exact .putBack hx (not_not.mp hstage) hreuse
    · cases h
  | close =>
    simp only [step, Option.ite_none_right_eq_some, Option.some.injEq] at h
    obtain ⟨hguard, rfl⟩ := h
    exact .close hguard.1
  | clientStop j =>
    simp only [step] at h
    split at h
    · next x hx =>
      simp only [Option.ite_none_right_eq_some] at h
      obtain ⟨⟨hreturned, -, -, hstage⟩, h⟩ := h
      split at h
      · next hconnected =>
        obtain ⟨c, hc, rfl⟩ := Option.map_eq_some_iff.mp h
        exact .clientStop hx hreturned hstage hconnected hc
      · next hconnected =>
        obtain rfl := Option.some.inj h
        exact .clientClosed hx hreturned hstage (Bool.eq_false_iff.mpr hconnected)
    · cases h
  | clientLeave j unrecv =>
    simp only [step] at h
    split at h
    · next x hx =>
      split at h
      · next d hd =>
        simp only [Option.ite_none_right_eq_some] at h
        obtain ⟨⟨hstopping, hstage⟩, h⟩ := h
        obtain ⟨n, -, rfl⟩ := Option.map_eq_some_iff.mp h
        exact .clientLeave hx hstopping hstage
      · cases h
    · cases h
  | serverStop unrecv =>
    simp only [step, Option.ite_none_right_eq_some] at h
    obtain ⟨⟨-, hclosed⟩, h⟩ := h
    obtain ⟨n, -, rfl⟩ := Option.map_eq_some_iff.mp h
    exact .serverStop hclosed
  | other a =>
    simp only [step, Option.ite_none_right_eq_some] at h
    obtain ⟨-, h⟩ := h
    obtain ⟨n, -, rfl⟩ := Option.map_eq_some_iff.mp h
    exact .other

/-- The connection whose calls the step makes uneven. It is that of a `put_connection` which finds it
no longer reuseable, or finds an entry of its id in `server_connections_`, and that of a `connect`
which gives up after a handshake has failed. -/
def unpaired (s : BasicIO) : IOAct → Option ConnRef
  | .connect j a =>
    match s.threads[j]? with
    | some (.client x) => x.leftBy j a
    | _ => none
  | .put j =>
    match s.threads[j]? with
    | some (.server cid (.found c)) =>
      if (s.pools.server.conns c).reuseable = true ∧ s.serverConnections.lookup cid = none then none
      else some (.pooled .server c)
    | _ => none
  | _ => none

/-- The step keeps the calls even. -/
def Clean (s : BasicIO) (a : IOAct) : Prop := s.unpaired a = none

instance (s : BasicIO) : DecidablePred s.Clean := fun _ => inferInstanceAs (Decidable (_ = none))

/-- The entries of `server_connections_` for a connection. -/
def entriesOf (m : AList fun _ : Bytes => Nat) : ConnRef → Nat
  | .pooled .server c => m.entries.countP (·.2 = c)
  | _ => 0

/-- The calls of `start` less those of `stop`, the ones to come included. -/
def balance (s : BasicIO) (c : ConnRef) : Int :=
  s.calls.count (.start c s.taskId) - s.calls.count (.stop c s.taskId) -
    (s.threads.countP (·.owes c) + entriesOf s.serverConnections c)

end BasicIO

/-- A connection of the maps is started too often, and another one stopped too often. -/
def ConnRef.sign : ConnRef → Int
  | .pooled _ _ => 1
  | .dialed _ _ => -1

/-! ## A client -/

namespace TCPClient

/-- What `connected_` and `conn_` say before `connect` has returned. -/
structure Wf (x : TCPClient) : Prop where
  fresh : x.phase = .called ∨ x.phase = .waiting → x.connected = false
  dialing : ∀ rounds, x.phase = .dialing rounds → x.connected = true →
    ∃ j round, x.conn = some (.dialed j round)
  shaken : x.phase = .shaken → x.connected = true
  closed : x.closeAt ≠ .open_ → x.Returned ∧ x.connected = false

variable {x : TCPClient} {j : Nat} {d : Dialer} {n : NodePools} {w : Shared} {a : ConnectAct}
  {t : ConnectCall} {taskId : Bytes}

/-- After `connect` has returned, only `close` matters. -/
theorem wf_of_returned (h : x.Returned) (hclosed : x.closeAt ≠ .open_ → x.connected = false) :
    x.Wf := by
  rcases h with hphase | hphase
  · exact ⟨by simp [hphase], by simp [hphase], by simp [hphase], fun h => ⟨.inl hphase, hclosed h⟩⟩
  · exact ⟨by simp [hphase], by simp [hphase], by simp [hphase], fun h => ⟨.inr hphase, hclosed h⟩⟩

theorem owes_of_running (h : ¬ x.Returned) (c : ConnRef) : x.owes c = false := by
  unfold owes
  split
  · next ok hphase =>
    cases ok with
    | true => exact absurd (.inl hphase) h
    | false => exact absurd (.inr hphase) h
  · rfl

theorem owes_of_returned (h : x.Returned) (c : ConnRef) :
    x.owes c = (x.connected && x.conn = some c) := by
  unfold owes
  rcases h with h | h <;> simp [h]

/-- The books of a client after a step of `connect`: what it owes, it has started in this step, or
the step has left it behind. -/
structure Booked (x : TCPClient) (taskId : Bytes) (left : Option ConnRef) : Prop where
  wf : x.Wf
  calls : ∀ k ∈ x.started taskId, ∃ c, k = .start c taskId
  owes : ∀ c, (x.owes c).toNat =
    (x.started taskId).count (.start c taskId) + if left = some c then 1 else 0

/-- `connect` returns `true`. -/
theorem booked_of_true {c : Nat} (hx : x.phase = .returned true) (hconnected : x.connected = true)
    (hconn : x.conn = some (.pooled .client c)) (hclosed : x.closeAt = .open_) :
    x.Booked taskId none where
  wf := wf_of_returned (.inl hx) (absurd hclosed)
  calls := by simp [started, hx, hconn]
  owes := by
    intro c'
    rw [owes_of_returned (.inl hx)]
    by_cases hc : ConnRef.pooled .client c = c' <;> simp [started, hx, hconn, hconnected, hc]

/-- `connect` returns `false`. -/
theorem booked_of_false {left : Option ConnRef} (hx : x.phase = .returned false)
    (hclosed : x.closeAt = .open_) (hleft : left = if x.connected then x.conn else none) :
    x.Booked taskId left where
  wf := wf_of_returned (.inr hx) (absurd hclosed)
  calls := by simp [started, hx]
  owes := by
    intro c
    rw [owes_of_returned (.inr hx), hleft]
    by_cases hconnected : x.connected = true
    · by_cases hconn : x.conn = some c <;> simp [started, hx, hconnected, hconn]
    · simp [started, hx, hconnected]

/-- `connect` goes on. -/
theorem booked_of_running (hwf : x.Wf) (hx : ¬ x.Returned) : x.Booked taskId none where
  wf := hwf
  calls := by
    intro k hk
    unfold started at hk
    split at hk
    · next hphase _ => exact absurd (.inl hphase) hx
    · cases hk
  owes := by
    intro c
    have hnone : x.started taskId = [] := by
      unfold started
      split
      · next hphase _ => exact absurd (.inl hphase) hx
      · rfl
    simp [owes_of_running hx, hnone]

theorem not_returned_of_does (ha : a.isOwn = true)
    (h : ConnectCall.Does d ⟨n, w, x.phase, x.connected⟩ a t) : ¬ x.Returned := by
  rintro (hphase | hphase) <;> cases h <;> simp_all [ConnectAct.isOwn]

theorem after_conn_of_true {c : Nat} (hphase : t.phase = .returned true)
    (hc : t.pools.clients d.client = .connected c) :
    (x.after j d t a).conn = some (.pooled .client c) := by
  simp [after, connAfter, hphase, hc]

theorem after_conn_of_round {b : Attempt} {rounds : Nat} {r : DialRound}
    (hphase : x.phase = .dialing rounds) (hr : dialOnce d.isSslSocket d.timeout d.cid b = some r)
    (ht : t.phase ≠ .returned true) : (x.after j d t (.round b)).conn =
      if r.exit.setsConnected then some (.dialed j rounds) else x.conn := by
  simp [after, connAfter, ht, hphase, hr]

/-- A round that has not connected sets `connected_` when its handshake has failed. -/
theorem setsConnected_iff {e : DialExit} (h : e ≠ .connected) :
    e.setsConnected = true ↔ e = .noHandshake := by
  cases e <;> simp_all [DialExit.setsConnected]

/-- **What a step of `connect` does to the books.** -/
theorem booked_step (hx : x.Wf) (hd : x.dialer = some d) (ha : a.isOwn = true)
    (h : ConnectCall.Does d ⟨n, w, x.phase, x.connected⟩ a t) :
    (x.after j d t a).Booked taskId (x.leftBy j a) := by
  have hrunning := not_returned_of_does ha h
  have hopen : x.closeAt = .open_ := by
    by_contra hne
    exact hrunning (hx.closed hne).1
  cases h with
  | early hphase hearly =>
    refine booked_of_false rfl hopen ?_
    simp [leftBy, after, hx.fresh (.inl hphase)]
  | @enter n' hphase hearly hn =>
    cases hc : n'.clients d.client with
    | connected c =>
      exact booked_of_true rfl (by simp [after]; rfl) (after_conn_of_true rfl hc) hopen
    | idle | waiting | dialing | failed =>
      refine booked_of_running ?_ ?_
      · constructor <;> simp [after, ConnectPhase.entered, hopen]
      · simp [after, ConnectPhase.entered, Returned]
  | wake hphase hn =>
    cases NodePools.does_of_step hn with
    | @wake _ c hc =>
      refine booked_of_true (c := c) rfl rfl (after_conn_of_true rfl ?_) hopen
      simp [NodePools.reuse, NodePools.setClient]
  | @shake a rounds r hphase hr hexit =>
    have hleft : x.leftBy j (.round a) = none := by
      simp [leftBy, leftConnected, hd, hr, hexit, show x.phase = .dialing rounds from hphase]
    rw [hleft]
    refine booked_of_running ?_ (by simp [after, Returned])
    constructor <;> simp [after, hopen, hexit, DialExit.setsConnected]
  | @again a rounds r hphase hr hexit hlt =>
    have hphase' : x.phase = .dialing rounds := hphase
    have hleft : x.leftBy j (.round a) = none := by
      simp [leftBy, leftConnected, hd, hr, hlt, hphase']
    rw [hleft]
    refine booked_of_running ?_ (by simp [after, Returned])
    refine ⟨by simp [after], fun rounds' _ hconnected => ?_, by simp [after],
      by simp [after, hopen]⟩
    rw [after_conn_of_round hphase' hr (by simp)]
    split
    · exact ⟨j, rounds, rfl⟩
    · next hnot =>
      refine hx.dialing rounds hphase' ?_
      simpa [after, hnot] using hconnected
  | @giveUp a rounds r n' hphase hr hexit hlast hn =>
    have hphase' : x.phase = .dialing rounds := hphase
    refine booked_of_false rfl hopen ?_
    rw [after_conn_of_round hphase' hr (by simp)]
    by_cases hshake : r.exit = .noHandshake
    · simp [leftBy, leftConnected, hd, hr, hlast, hphase', hshake, after, DialExit.setsConnected]
    · have hsets : r.exit.setsConnected = false := by
        rw [Bool.eq_false_iff, ne_eq, setsConnected_iff hexit]
        exact hshake
      simp [leftBy, leftConnected, hd, hr, hexit, hlast, hphase', hshake, after, hsets]
  | @publish n' hphase hn =>
    cases NodePools.does_of_step hn with
    | publish hc =>
      refine booked_of_true (c := n.client.next) rfl (hx.shaken hphase)
        (after_conn_of_true rfl ?_) hopen
      simp [NodePools.setClient]
  | other => cases ha

/-- What `connect` leaves connected when it gives up is not in the map. -/
theorem Wf.sign_of_leftBy (hx : x.Wf) {c : ConnRef} (h : x.leftBy j a = some c) : c.sign = -1 := by
  unfold leftBy at h
  split at h
  · next b =>
    unfold leftConnected at h
    obtain ⟨d, -, h⟩ := Option.bind_eq_some_iff.mp h
    obtain ⟨r, -, h⟩ := Option.bind_eq_some_iff.mp h
    split at h
    · next rounds hphase =>
      split at h
      · cases h
      · split at h
        · obtain rfl := Option.some.inj h
          rfl
        · split at h
          · next hconnected =>
            obtain ⟨j', round, hconn⟩ := hx.dialing rounds hphase hconnected
            obtain rfl := Option.some.inj (hconn.symm.trans h)
            rfl
          · cases h
    · cases h
  · cases h

end TCPClient

def ConnThread.Wf : ConnThread → Prop
  | .client x => x.Wf
  | .server _ _ => True

namespace BasicIO

variable {s s' : BasicIO} {a : IOAct}

/-! ## The balance -/

/-- The balance after one thread has changed, with the calls `new`. -/
theorem balance_of {j : Nat} {t t' : ConnThread} {c : ConnRef} {k : Int} (new : List ConnCall)
    (hx : s.threads[j]? = some t) (htask : s'.taskId = s.taskId)
    (hthreads : s'.threads = s.threads.set j t') (hcalls : s'.calls = s.calls ++ new)
    (hk : (t.owes c).toNat + (new.count (.start c s.taskId) : Int) +
        entriesOf s.serverConnections c =
      (t'.owes c).toNat + new.count (.stop c s.taskId) + entriesOf s'.serverConnections c + k) :
    s'.balance c = s.balance c + k := by
  have hcount := countP_set_getElem? (p := fun t => t.owes c) hx t'
  simp only [balance, htask, hthreads, hcalls, List.count_append]
  omega

/-- A step that leaves the threads, the calls and the entries alone. -/
theorem balance_of_same (htask : s'.taskId = s.taskId) (hthreads : s'.threads = s.threads)
    (hcalls : s'.calls = s.calls) (hentries : s'.serverConnections = s.serverConnections)
    (c : ConnRef) : s'.balance c = s.balance c := by
  simp only [balance, htask, hthreads, hcalls, hentries]

theorem entriesOf_insert {m : AList fun _ : Bytes => Nat} {cid : Bytes} (h : m.lookup cid = none)
    (c : Nat) (c' : ConnRef) :
    entriesOf (m.insert cid c) c' = entriesOf m c' + if c' = .pooled .server c then 1 else 0 := by
  unfold entriesOf
  split
  · next c' =>
    rw [AList.entries_insert_of_notMem (AList.lookup_eq_none.mp h), List.countP_cons]
    simp [eq_comm]
  · next hne => 
    rw [if_neg]
    rintro rfl
    exact hne c rfl

theorem count_stops (m : AList fun _ : Bytes => Nat) (taskId : Bytes) (c : ConnRef) :
    (m.entries.map fun e => ConnCall.stop (.pooled .server e.2) taskId).count (.stop c taskId) =
      entriesOf m c := by
  rw [List.count_eq_countP, List.countP_map]
  unfold entriesOf
  split
  · refine List.countP_congr fun e _ => ?_
    simp
  · next hne =>
    rw [List.countP_eq_zero]
    rintro e - heq
    obtain ⟨rfl, -⟩ := ConnCall.stop.inj (eq_of_beq heq)
    exact hne e.2 rfl

/-- **What a step does to the balance.** -/
theorem balance_step (h : ∀ t ∈ s.threads, t.Wf) (hstep : s.step a = some s') (c : ConnRef) :
    s'.balance c = s.balance c + if s.unpaired a = some c then c.sign else 0 := by
  cases does_of_step hstep with
  | serverStart | close | notFound | other =>
    exact (balance_of_same rfl rfl rfl rfl c).trans (Int.add_zero _).symm
  | make kept hx => exact balance_of [] hx rfl rfl (List.append_nil _).symm rfl
  | @connect j x d a t hx hd hstage ha ht =>
    have hwf : x.Wf := h _ (List.mem_of_getElem? hx)
    have hbooked : (x.after j d t a).Booked s.taskId (x.leftBy j a) :=
      TCPClient.booked_step hwf hd ha ht
    have hrunning : x.owes c = false :=
      TCPClient.owes_of_running (TCPClient.not_returned_of_does ha ht) c
    have hstop : ((x.after j d t a).started s.taskId).count (.stop c s.taskId) = 0 := by
      rw [List.count_eq_zero]
      intro hmem
      obtain ⟨c', hc'⟩ := hbooked.calls _ hmem
      cases hc'
    have hleft : s.unpaired (.connect j a) = x.leftBy j a := by simp [unpaired, hx]
    refine balance_of _ hx rfl rfl rfl ?_
    rw [hstop, hleft]
    simp only [ConnThread.owes, hrunning, hbooked.owes c, setThread, Bool.toNat_false]
    by_cases hc : x.leftBy j a = some c
    · rw [if_pos hc, if_pos hc, hwf.sign_of_leftBy hc]
      omega
    · rw [if_neg hc, if_neg hc]
      omega
  | @found j c' cid hx =>
    refine balance_of [_] hx rfl rfl rfl ?_
    by_cases heq : c = .pooled .server c'
    · simp [unpaired, setThread, call, ConnThread.owes, heq]
    · simp [unpaired, setThread, call, ConnThread.owes, heq, Ne.symm heq]
  | @put j c' cid hx hstage hreuse =>
    refine balance_of [] hx rfl rfl (List.append_nil _).symm ?_
    cases hlookup : s.serverConnections.lookup cid with
    | none =>
      by_cases heq : c = .pooled .server c'
      · simp [unpaired, hx, hreuse, hlookup, ConnThread.owes, entriesOf_insert hlookup, heq]
        omega
      · simp [unpaired, hx, hreuse, hlookup, ConnThread.owes, entriesOf_insert hlookup, heq]
    | some c₀ =>
      by_cases heq : c = .pooled .server c'
      · simp [unpaired, hx, hreuse, hlookup, ConnThread.owes, heq, ConnRef.sign]
        omega
      · simp [unpaired, hx, hreuse, hlookup, ConnThread.owes, heq, Ne.symm heq]
  | @putBack j c' cid hx hstage hreuse =>
    refine balance_of [] hx rfl rfl (List.append_nil _).symm ?_
    by_cases heq : c = .pooled .server c'
    · simp [unpaired, hx, hreuse, setThread, ConnThread.owes, heq, ConnRef.sign]
      omega
    · simp [unpaired, hx, hreuse, setThread, ConnThread.owes, heq, Ne.symm heq]
  | @clientStop j x c' hx hreturned hstage hconnected hc =>
    have howes : ConnThread.owes c
        (.client { x with connected := false, closeAt := .stopping }) = false := by
      refine (TCPClient.owes_of_returned (x := { x with connected := false, closeAt := .stopping })
        hreturned c).trans ?_
      simp
    refine balance_of [_] hx rfl rfl rfl ?_
    rw [howes]
    simp only [ConnThread.owes, TCPClient.owes_of_returned hreturned, hconnected, hc]
    by_cases heq : c = c'
    · simp [unpaired, setThread, call, heq]
    · simp [unpaired, setThread, call, Ne.symm heq]
  | clientClosed hx => exact balance_of [] hx rfl rfl (List.append_nil _).symm rfl
  | clientLeave hx => exact balance_of [] hx rfl rfl (List.append_nil _).symm rfl
  | serverStop =>
    have hstop := count_stops s.serverConnections s.taskId c
    have hstart : (s.serverConnections.entries.map fun e =>
        ConnCall.stop (.pooled .server e.2) s.taskId).count (.start c s.taskId) = 0 := by
      simp [List.count_eq_zero]
    have hempty : entriesOf ∅ c = 0 := by
      unfold entriesOf
      split <;> rfl
    simp only [unpaired, balance, List.count_append, hstop, hstart, hempty]
    simp
    omega

/-! ## The invariant -/

structure Wf (s : BasicIO) : Prop where
  threads : ∀ t ∈ s.threads, t.Wf
  calls : ∀ k ∈ s.calls, ∃ c, k = .start c s.taskId ∨ k = .stop c s.taskId
  stopped : s.stage = .stopped → (∀ t ∈ s.threads, t.Closed) ∧ s.serverConnections = ∅

theorem wf_start (c : IOSetup) (n : NodePools) : (start c n).Wf where
  threads := by
    intro t ht
    simp only [start, List.mem_mapIdx] at ht
    obtain ⟨j, _, rfl⟩ := ht
    split
    · constructor <;> simp
    · trivial
  calls := by simp [start]
  stopped := by simp [start]

theorem balance_start (c : IOSetup) (n : NodePools) (r : ConnRef) : (start c n).balance r = 0 := by
  have hthreads : (start c n).threads.countP (·.owes r) = 0 := by
    rw [List.countP_eq_zero]
    intro t ht
    simp only [start, List.mem_mapIdx] at ht
    obtain ⟨j, _, rfl⟩ := ht
    split <;> simp [ConnThread.owes, TCPClient.owes]
  have hentries : entriesOf (start c n).serverConnections r = 0 := by
    unfold entriesOf
    split <;> rfl
  simp only [balance, hthreads, hentries]
  simp [start]

/-- A thread takes a step before the server has stopped. -/
theorem Wf.setThread (h : s.Wf) {j : Nat} {t : ConnThread} (new : List ConnCall) (ht : t.Wf)
    (hstage : s'.stage ≠ .stopped)
    (hnew : ∀ k ∈ new, ∃ c, k = .start c s.taskId ∨ k = .stop c s.taskId)
    (hthreads : s'.threads = s.threads.set j t) (htask : s'.taskId = s.taskId)
    (hcalls : s'.calls = s.calls ++ new) : s'.Wf where
  threads := by
    intro u hu
    rw [hthreads] at hu
    rcases List.mem_or_eq_of_mem_set hu with hu | rfl
    · exact h.threads u hu
    · exact ht
  calls := by
    intro k hk
    rw [hcalls] at hk
    rw [htask]
    exact (List.mem_append.mp hk).elim (h.calls k) (hnew k)
  stopped := fun hstopped => absurd hstopped hstage

theorem ne_stopped_of_closesIn {x : TCPClient} (h : s.stage = closesIn x) : s.stage ≠ .stopped := by
  rw [h]
  unfold closesIn
  split <;> simp

theorem wf_step (h : s.Wf) (hstep : s.step a = some s') : s'.Wf := by
  have hnone : ∀ k ∈ ([] : List ConnCall), ∃ c, k = .start c s.taskId ∨ k = .stop c s.taskId := by
    simp
  have hinit : s.stage = .init → s.stage ≠ .stopped := by
    intro hstage
    simp [hstage]
  cases does_of_step hstep with
  | serverStart =>
    refine ⟨h.threads, h.calls, fun hstopped => ?_⟩
    simp only at hstopped
    split at hstopped <;> cases hstopped
  | close => exact ⟨h.threads, h.calls, fun hstopped => by cases hstopped⟩
  | notFound | other => exact ⟨h.threads, h.calls, h.stopped⟩
  | @make j x kept hx hstage =>
    have hwf : x.Wf := h.threads _ (List.mem_of_getElem? hx)
    exact h.setThread [] (t := .client { x with kept := some kept })
      ⟨hwf.fresh, hwf.dialing, hwf.shaken, hwf.closed⟩ (hinit hstage) hnone rfl rfl
      (List.append_nil _).symm
  | @connect j x d a t hx hd hstage ha ht =>
    have hwf : x.Wf := h.threads _ (List.mem_of_getElem? hx)
    have hbooked : (x.after j d t a).Booked s.taskId (x.leftBy j a) :=
      TCPClient.booked_step hwf hd ha ht
    refine h.setThread _ (t := .client (x.after j d t a)) hbooked.wf (hinit hstage) ?_ rfl rfl rfl
    intro k hk
    obtain ⟨c, rfl⟩ := hbooked.calls k hk
    exact ⟨c, .inl rfl⟩
  | @found j c cid hx hstage =>
    exact h.setThread [_] (t := .server cid (.found c)) trivial (hinit hstage) (by simp) rfl rfl rfl
  | @put j c cid hx hstage =>
    exact h.setThread [] (t := .server cid .done) trivial (hinit hstage) hnone rfl rfl
      (List.append_nil _).symm
  | @putBack j c cid hx hstage =>
    exact h.setThread [] (t := .server cid .looking) trivial (hinit hstage) hnone rfl rfl
      (List.append_nil _).symm
  | @clientStop j x c hx hreturned hstage =>
    have hwf : TCPClient.Wf { x with connected := false, closeAt := .stopping } :=
      TCPClient.wf_of_returned hreturned fun _ => rfl
    exact h.setThread [_] (t := .client _) hwf (ne_stopped_of_closesIn hstage) (by simp) rfl rfl rfl
  | @clientClosed j x hx hreturned hstage hconnected =>
    have hwf : TCPClient.Wf { x with closeAt := .closed } :=
      TCPClient.wf_of_returned hreturned fun _ => hconnected
    exact h.setThread [] (t := .client _) hwf (ne_stopped_of_closesIn hstage) hnone rfl rfl
      (List.append_nil _).symm
  | @clientLeave j unrecv x n hx hstopping hstage =>
    have hold : x.Wf := h.threads _ (List.mem_of_getElem? hx)
    obtain ⟨hreturned, hconnected⟩ := hold.closed (by simp [hstopping])
    have hwf : TCPClient.Wf { x with closeAt := .closed } :=
      TCPClient.wf_of_returned hreturned fun _ => hconnected
    exact h.setThread [] (t := .client _) hwf (ne_stopped_of_closesIn hstage) hnone rfl rfl
      (List.append_nil _).symm
  | serverStop hclosed =>
    refine ⟨h.threads, ?_, fun _ => ⟨hclosed, rfl⟩⟩
    intro k hk
    rcases List.mem_append.mp hk with hk | hk
    · exact h.calls k hk
    · obtain ⟨e, -, rfl⟩ := List.mem_map.mp hk
      exact ⟨_, .inr rfl⟩

/-! ## The pairing -/

/-- No `stop` is called without a `start` before it that is still open. -/
def NoStray (s : BasicIO) : Prop := ∀ c task, Covered (.start c task) (.stop c task) s.calls

/-- Each connection is stopped as often as it is started. -/
def Even (s : BasicIO) : Prop :=
  ∀ c task, s.calls.count (.start c task) = s.calls.count (.stop c task)

/-- `TCPClient::close` has been called for each client that has something to close. -/
def ClosesCalled (s : BasicIO) : Prop :=
  ∀ x, ConnThread.client x ∈ s.threads → x.connected = false

/-- A task of another channel is neither started nor stopped. -/
theorem Wf.count_of_ne (h : s.Wf) {task : Bytes} (htask : task ≠ s.taskId) (c : ConnRef) :
    s.calls.count (.start c task) = 0 ∧ s.calls.count (.stop c task) = 0 := by
  constructor <;>
  · rw [List.count_eq_zero]
    intro hmem
    obtain ⟨c', heq | heq⟩ := h.calls _ hmem <;> cases heq
    exact htask rfl

/-- The step adds calls of one kind. -/
theorem calls_step (h : s.Wf) (hstep : s.step a = some s') : s'.taskId = s.taskId ∧
    ∃ new, s'.calls = s.calls ++ new ∧
      ((∀ k ∈ new, ∃ c, k = .start c s.taskId) ∨ ∀ k ∈ new, ∃ c, k = .stop c s.taskId) := by
  cases does_of_step hstep with
  | serverStart | close | notFound | other | make | put | putBack | clientClosed | clientLeave =>
    exact ⟨rfl, [], (List.append_nil _).symm, .inl (by simp)⟩
  | connect hx hd _ ha ht =>
    have hwf := h.threads _ (List.mem_of_getElem? hx)
    exact ⟨rfl, _, rfl, .inl (TCPClient.booked_step hwf hd ha ht).calls⟩
  | found => exact ⟨rfl, [_], rfl, .inl (by simp)⟩
  | clientStop => exact ⟨rfl, [_], rfl, .inr (by simp)⟩
  | serverStop =>
    refine ⟨rfl, _, rfl, .inr fun k hk => ?_⟩
    obtain ⟨e, -, rfl⟩ := List.mem_map.mp hk
    exact ⟨_, rfl⟩

/-- The books are even, so far. -/
structure Paired (s : BasicIO) : Prop where
  wf : s.Wf
  balance : ∀ c, s.balance c = 0
  noStray : s.NoStray

theorem paired_step (h : s.Paired) (hclean : s.Clean a) (hstep : s.step a = some s') :
    s'.Paired := by
  have hwf := wf_step h.wf hstep
  have hbalance : ∀ c, s'.balance c = 0 := by
    intro c
    have hnone : s.unpaired a = none := hclean
    rw [balance_step h.wf.threads hstep c, h.balance c, hnone]
    rfl
  refine ⟨hwf, hbalance, fun c task => ?_⟩
  obtain ⟨htask, new, hcalls, hnew⟩ := calls_step h.wf hstep
  have hle : s'.calls.count (.stop c task) ≤ s'.calls.count (.start c task) := by
    by_cases heq : task = s'.taskId
    · subst heq
      have := hbalance c
      unfold balance at this
      omega
    · obtain ⟨hstart, hstop⟩ := hwf.count_of_ne heq c
      omega
  rw [hcalls] at hle ⊢
  refine (h.noStray c task).append ?_ hle
  rcases hnew with hnew | hnew
  · refine .inr fun hmem => ?_
    obtain ⟨c', heq⟩ := hnew _ hmem
    cases heq
  · refine .inl fun hmem => ?_
    obtain ⟨c', heq⟩ := hnew _ hmem
    cases heq

/-- A channel whose server has stopped holds nothing. -/
theorem Wf.owes_stopped (h : s.Wf) (hstopped : s.stage = .stopped) (c : ConnRef) :
    s.threads.countP (·.owes c) = 0 ∧ entriesOf s.serverConnections c = 0 := by
  obtain ⟨hclosed, hempty⟩ := h.stopped hstopped
  constructor
  · rw [List.countP_eq_zero]
    intro t ht
    cases t with
    | client x =>
      have hx := hclosed _ ht
      have hwf : x.Wf := h.threads _ ht
      have hconnected := (hwf.closed (by simp [hx.2])).2
      simp [ConnThread.owes, TCPClient.owes_of_returned hx.1, hconnected]
    | server cid p =>
      obtain rfl : p = .done := hclosed _ ht
      simp [ConnThread.owes]
  · rw [hempty]
    unfold entriesOf
    split <;> rfl

/-- `balance`, with its sign: what is uneven is never made even again. -/
def uneven (s : BasicIO) (c : ConnRef) : Int := c.sign * s.balance c

theorem uneven_step (h : s.Wf) (hstep : s.step a = some s') (c : ConnRef) :
    s'.uneven c = s.uneven c + if s.unpaired a = some c then 1 else 0 := by
  have hsign : c.sign * c.sign = 1 := by cases c <;> rfl
  unfold uneven
  rw [balance_step h.threads hstep c, Int.mul_add]
  split
  · rw [hsign]
  · rw [Int.mul_zero]

theorem uneven_nonpos (h : s.ClosesCalled) (heven : s.Even) (c : ConnRef) : s.uneven c ≤ 0 := by
  have hcount := heven c s.taskId
  unfold uneven balance
  cases c with
  | pooled side c =>
    simp only [ConnRef.sign]
    omega
  | dialed j round =>
    have hthreads : s.threads.countP (·.owes (.dialed j round)) = 0 := by
      rw [List.countP_eq_zero]
      intro t ht
      cases t with
      | client x =>
        simp only [ConnThread.owes, TCPClient.owes, h x ht, Bool.false_and]
        split <;> simp
      | server cid p => cases p <;> simp [ConnThread.owes]
    simp only [ConnRef.sign, hthreads, entriesOf]
    omega

/-- **When `start` and `stop` are paired.** In a run of clean steps no `stop` is stray, and after
the destruction of the channel each connection is stopped as often as it was started. And where this
is so, when `close` has been called for all clients, all steps were clean. -/
theorem paired {c : IOSetup} {n : NodePools} {acts : List IOAct}
    (hrun : run step (start c n) acts = some s) :
    (AllSteps step Clean (start c n) acts → s.NoStray ∧ (s.stage = .stopped → s.Even)) ∧
      (s.ClosesCalled → s.Even → AllSteps step Clean (start c n) acts) := by
  constructor
  · intro hclean
    have hstart : (start c n).Paired :=
      ⟨wf_start c n, balance_start c n, fun _ _ => covered_nil _ _⟩
    have h : s.Paired := run_invariant_of (fun _ _ _ => paired_step) hstart hclean hrun
    refine ⟨h.noStray, fun hstopped r task => ?_⟩
    by_cases htask : task = s.taskId
    · subst htask
      obtain ⟨hthreads, hentries⟩ := h.wf.owes_stopped hstopped r
      have := h.balance r
      unfold balance at this
      omega
    · obtain ⟨hzero, hzero'⟩ := h.wf.count_of_ne htask r
      omega
  · intro hcalled heven
    refine allSteps_of_balance (J := Wf) (f := uneven) (fun _ _ _ => wf_step) ?_ ?_
      (wf_start c n) hrun fun r => ?_
    · intro s a t h hstep r
      rw [uneven_step h hstep r]
      split <;> omega
    · intro s a t h hstep hsame
      cases hleft : s.unpaired a with
      | none => exact hleft
      | some r =>
        have hr := hsame r
        rw [uneven_step h hstep r, if_pos hleft] at hr
        omega
    · have hzero : (start c n).uneven r = 0 := by
        rw [uneven, balance_start, Int.mul_zero]
      rw [hzero]
      exact uneven_nonpos hcalled heven r

/-- One peer is dialed, the other one dials. -/
theorem paired_small : ∃ c acts s, AllSteps step Clean (start c {}) acts ∧
    run step (start c {}) acts = some s ∧ s.stage = .stopped ∧ s.calls.length = 4 ∧ s.NoStray ∧
    s.Even := by
  let d : Dialer := ⟨0, true, [49], 80, [7], true, 1000, 2⟩
  let c : IOSetup := ⟨[65], [([1], d)], [[2]]⟩
  obtain ⟨acts, s, hclean, hrun, hstopped, hlen⟩ : ∃ acts s, AllSteps step Clean (start c {}) acts ∧
      run step (start c {}) acts = some s ∧ s.stage = .stopped ∧ s.calls.length = 4 :=
    ⟨[.serverStart true, .make 0, .connect 0 .enter,
      .connect 0 (.round { socketFd := 3, connects := [(.ok, 0)], cidRet := 9 }),
      .connect 0 .publish, .find 1, .other (.accept [2]), .find 1, .put 1, .close, .clientStop 0,
      .clientLeave 0 0, .serverStop 0], _, by decide, rfl, rfl, rfl⟩
  obtain ⟨hstray, heven⟩ := (paired hrun).1 hclean
  exact ⟨c, acts, s, hclean, hrun, hstopped, hlen, hstray, heven hstopped⟩

/-- An accepted connection is closed by the peer behind `find_connection`, and the next one is taken:
the first is started and never stopped. And a dial whose only handshake fails: its connection is
stopped and was never started. -/
theorem not_paired : (∃ (c : IOSetup) (acts : List IOAct) (s : BasicIO),
    run step (start c {}) acts = some s ∧ s.stage = .stopped ∧ ¬ s.Even) ∧
    ∃ (c : IOSetup) (acts : List IOAct) (s : BasicIO),
      run step (start c {}) acts = some s ∧ ¬ s.NoStray := by
  constructor
  · refine ⟨⟨[65], [], [[2]]⟩, [.serverStart true, .other (.accept [2]), .find 0,
      .other (.error .server 0), .put 0, .other (.accept [2]), .find 0, .put 0, .close,
      .serverStop 0], _, rfl, rfl, fun heven => ?_⟩
    exact absurd (heven (.pooled .server 0) [65]) (by decide)
  · let d : Dialer := ⟨0, true, [49], 80, [7], true, 1000, 1⟩
    refine ⟨⟨[65], [([1], d)], []⟩, [.serverStart true, .make 0, .connect 0 .enter,
      .connect 0 (.round { socketFd := 3, connects := [(.ok, 0)], cidRet := 9, handshakeRet := false }),
      .close, .clientStop 0], _, rfl, fun hstray => ?_⟩
    exact absurd (hstray (.dialed 0 0) [65]).count_le (by decide)

end BasicIO

end Rosetta

import Rosetta.Client.Dial

/-!
# What a failed `connect` leaves behind

`connect` counts its task and lists its address before it dials, and only the success of a dial
takes the address off the list again. A `connect` that gives up after its last round undoes
neither.

* `Dialer` — the client that calls `connect`
* `ConnectCall` — its call, among the steps of the other clients
* `Does` — what a step of the call is when it is possible
* `Shared`, `Shared.follow` — what the other clients alone have made of the state
-/

namespace Rosetta

open Lib

/-- The client that calls `connect`, and what it knows before it looks at the state. -/
structure Dialer where
  /-- its number among the clients -/
  client : Nat
  /-- what `init_ssl` returns -/
  initSsl : Bool
  /-- what `gethostip` returns -/
  ip : Bytes
  port : Nat
  cid : Bytes
  isSslSocket : Bool
  timeout : Int
  connRetries : Int

/-- `node_address`. -/
def Dialer.nodeAddress (d : Dialer) : Bytes :=
  d.ip ++ ([':'] ++ Nat.toDigits 10 d.port).map Char.toUInt8

/-- `connect` returns before it has looked at the state. -/
def Dialer.Early (d : Dialer) : Prop := d.initSsl = false ∨ d.ip = []

instance (d : Dialer) : Decidable d.Early :=
  inferInstanceAs (Decidable (d.initSsl = false ∨ d.ip = []))

/-- The static members that `connect` changes. -/
structure Shared where
  taskCount : Int
  toConnectSet : List Bytes

def NodePools.shared (n : NodePools) : Shared := ⟨n.client.taskCount, n.toConnectSet⟩

/-- Changes the members by what has changed between `x` and `y`. -/
def Shared.follow (w x y : Shared) : Shared where
  taskCount := w.taskCount + (y.taskCount - x.taskCount)
  toConnectSet := w.toConnectSet.filter (fun a => a ∉ x.toConnectSet ∨ a ∈ y.toConnectSet) ++
    y.toConnectSet.filter (· ∉ x.toConnectSet)

/-- Where the call of `connect` is. -/
inductive ConnectPhase where
  | called
  /-- in the wait for another dialer -/
  | waiting
  /-- in the dial loop, with the rounds made -/
  | dialing (rounds : Nat)
  /-- the handshake is made -/
  | shaken
  | returned (ok : Bool)
  deriving DecidableEq

structure ConnectCall where
  pools : NodePools
  /-- what the other clients alone have made of the state before the call -/
  others : Shared
  phase : ConnectPhase := .called
  connected : Bool := false

inductive ConnectAct where
  /-- up to the end of the critical section -/
  | enter
  | wake
  /-- a round of the dial loop -/
  | round (a : Attempt)
  /-- the critical section after the handshake -/
  | publish
  /-- a step of the epoll thread or of another client -/
  | other (a : PoolAct)

/-- The client whose `connect` or `close` it is. -/
def PoolAct.client : PoolAct → Option Nat
  | .connect k _ | .wake k | .publish k | .dialFail k | .clientClose k _ => some k
  | _ => none

/-- Where `connect` goes on after the critical section. -/
def ConnectPhase.entered : ClientState → ConnectPhase
  | .connected _ => .returned true
  | .waiting _ => .waiting
  | _ => .dialing 0

namespace ConnectCall

/-- A client that has not connected yet calls `connect`. -/
def start (n : NodePools) : ConnectCall := { pools := n, others := n.shared }

def step (d : Dialer) (s : ConnectCall) : ConnectAct → Option ConnectCall
  | .enter =>
    if s.phase ≠ .called then none
    else if d.Early then some { s with phase := .returned false }
    else
      (s.pools.step (.connect d.client d.nodeAddress)).map fun n =>
        let phase := ConnectPhase.entered (n.clients d.client)
        { s with pools := n, phase, connected := phase = .returned true }
  | .wake =>
    if s.phase ≠ .waiting then none
    else
      (s.pools.step (.wake d.client)).map fun n =>
        { s with pools := n, phase := .returned true, connected := true }
  | .round a =>
    match s.phase, dialOnce d.isSslSocket d.timeout d.cid a with
    | .dialing rounds, some r =>
      let connected := s.connected || r.exit.setsConnected
      if r.exit = .connected then some { s with phase := .shaken, connected }
      else if rounds + 1 < dialRounds d.connRetries then
        some { s with phase := .dialing (rounds + 1), connected }
      else
        (s.pools.step (.dialFail d.client)).map fun n =>
          { s with pools := n, phase := .returned false, connected }
    | _, _ => none
  | .publish =>
    if s.phase ≠ .shaken then none
    else
      (s.pools.step (.publish d.client)).map fun n =>
        { s with pools := n, phase := .returned true }
  | .other a =>
    if a.client = some d.client then none
    else
      (s.pools.step a).map fun n =>
        { s with pools := n, others := s.others.follow s.pools.shared n.shared }

/-- What a step is when it is possible. -/
inductive Does (d : Dialer) (s : ConnectCall) : ConnectAct → ConnectCall → Prop
  | early (hphase : s.phase = .called) (hearly : d.Early) :
    Does d s .enter { s with phase := .returned false }
  | enter {n : NodePools} (hphase : s.phase = .called) (hearly : ¬ d.Early)
    (hn : s.pools.step (.connect d.client d.nodeAddress) = some n) :
    Does d s .enter { s with
      pools := n
      phase := .entered (n.clients d.client)
      connected := ConnectPhase.entered (n.clients d.client) = .returned true }
  | wake {n : NodePools} (hphase : s.phase = .waiting)
    (hn : s.pools.step (.wake d.client) = some n) :
    Does d s .wake { s with pools := n, phase := .returned true, connected := true }
  | shake {a : Attempt} {rounds : Nat} {r : DialRound} (hphase : s.phase = .dialing rounds)
    (hr : dialOnce d.isSslSocket d.timeout d.cid a = some r) (hexit : r.exit = .connected) :
    Does d s (.round a)
      { s with phase := .shaken, connected := s.connected || r.exit.setsConnected }
  | again {a : Attempt} {rounds : Nat} {r : DialRound} (hphase : s.phase = .dialing rounds)
    (hr : dialOnce d.isSslSocket d.timeout d.cid a = some r) (hexit : r.exit ≠ .connected)
    (hlt : rounds + 1 < dialRounds d.connRetries) :
    Does d s (.round a)
      { s with phase := .dialing (rounds + 1), connected := s.connected || r.exit.setsConnected }
  | giveUp {a : Attempt} {rounds : Nat} {r : DialRound} {n : NodePools}
    (hphase : s.phase = .dialing rounds)
    (hr : dialOnce d.isSslSocket d.timeout d.cid a = some r) (hexit : r.exit ≠ .connected)
    (hlast : ¬ rounds + 1 < dialRounds d.connRetries)
    (hn : s.pools.step (.dialFail d.client) = some n) :
    Does d s (.round a) { s with
      pools := n, phase := .returned false, connected := s.connected || r.exit.setsConnected }
  | publish {n : NodePools} (hphase : s.phase = .shaken)
    (hn : s.pools.step (.publish d.client) = some n) :
    Does d s .publish { s with pools := n, phase := .returned true }
  | other {a : PoolAct} {n : NodePools} (hclient : a.client ≠ some d.client)
    (hn : s.pools.step a = some n) :
    Does d s (.other a)
      { s with pools := n, others := s.others.follow s.pools.shared n.shared }

theorem does_of_step {d : Dialer} {s s' : ConnectCall} {a : ConnectAct}
    (h : s.step d a = some s') : s.Does d a s' := by
  cases a with
  | enter =>
    simp only [step] at h
    split at h
    · cases h
    · next hphase =>
      split at h
      · next hearly =>
        cases h
        exact .early (not_not.mp hphase) hearly
      · next hearly =>
        obtain ⟨n, hn, rfl⟩ := Option.map_eq_some_iff.mp h
        exact .enter (not_not.mp hphase) hearly hn
  | wake =>
    simp only [step] at h
    split at h
    · cases h
    · next hphase =>
      obtain ⟨n, hn, rfl⟩ := Option.map_eq_some_iff.mp h
      exact .wake (not_not.mp hphase) hn
  | round a =>
    simp only [step] at h
    split at h
    · next rounds r hphase hr =>
      split at h
      · next hexit =>
        cases h
        exact .shake hphase hr hexit
      · next hexit =>
        split at h
        · next hlt =>
          cases h
          exact .again hphase hr hexit hlt
        · next hlast =>
          obtain ⟨n, hn, rfl⟩ := Option.map_eq_some_iff.mp h
          exact .giveUp hphase hr hexit hlast hn
    · cases h
  | publish =>
    simp only [step] at h
    split at h
    · cases h
    · next hphase =>
      obtain ⟨n, hn, rfl⟩ := Option.map_eq_some_iff.mp h
      exact .publish (not_not.mp hphase) hn
  | other a =>
    simp only [step] at h
    split at h
    · cases h
    · next hclient =>
      obtain ⟨n, hn, rfl⟩ := Option.map_eq_some_iff.mp h
      exact .other hclient hn

/-- The state is as it was before the call, up to the steps of the other clients. -/
structure Restored (s : ConnectCall) : Prop where
  taskCount : (s.pools.client.taskCount : Int) = s.others.taskCount
  toConnectSet : ∀ a, a ∈ s.pools.toConnectSet ↔ a ∈ s.others.toConnectSet
  connected : s.connected = false

/-! ## The counter -/

theorem taskCount_retire (p : Pool) (key : Bytes) : (p.retire key).taskCount = p.taskCount := by
  unfold Pool.retire
  split
  · rfl
  · rfl

theorem taskCount_waitOrDial (n : NodePools) (k : Nat) (address : Bytes) :
    (n.waitOrDial k address).client.taskCount = n.client.taskCount := by
  unfold NodePools.waitOrDial
  split
  · rfl
  · rfl

theorem taskCount_connect (n : NodePools) (k : Nat) (address : Bytes) :
    (n.connect k address).client.taskCount = n.client.taskCount + 1 := by
  unfold NodePools.connect NodePools.lookUp
  split
  · split
    · rfl
    · rw [taskCount_waitOrDial]
      exact taskCount_retire _ address
  · exact taskCount_waitOrDial _ k address

theorem follow_taskCount {s : ConnectCall} {x y : Shared} :
    (s.others.follow x y).taskCount = s.others.taskCount + (y.taskCount - x.taskCount) := rfl

/-- What the other clients do, they do to both. -/
theorem follow_toConnectSet {w x y : Shared} (h : ∀ a, a ∈ x.toConnectSet ↔ a ∈ w.toConnectSet)
    (a : Bytes) : a ∈ y.toConnectSet ↔ a ∈ (w.follow x y).toConnectSet := by
  by_cases hx : a ∈ x.toConnectSet
  · have hw := (h a).mp hx
    simp [Shared.follow, hx, hw]
  · have hw : a ∉ w.toConnectSet := fun hw => hx ((h a).mpr hw)
    simp [Shared.follow, hx, hw]

theorem Restored.follow {s : ConnectCall} (h : s.Restored) (n : NodePools) :
    Restored { s with pools := n, others := s.others.follow s.pools.shared n.shared } where
  taskCount := by
    have hcount := h.taskCount
    simp only [follow_taskCount, NodePools.shared]
    omega
  toConnectSet := fun a => follow_toConnectSet (x := s.pools.shared) (y := n.shared) h.toConnectSet a
  connected := h.connected

/-- What `connect` owes to the state, at each of its places. -/
inductive Books (d : Dialer) (s : ConnectCall) : Prop
  | called (hphase : s.phase = .called) (h : s.Restored)
  | early (hearly : d.Early) (hphase : s.phase = .returned false) (h : s.Restored)
  | counted (hearly : ¬ d.Early) (hphase : s.phase ≠ .called)
    (hcount : (s.pools.client.taskCount : Int) = s.others.taskCount + 1)

theorem books_start (d : Dialer) (n : NodePools) : Books d (start n) :=
  .called rfl ⟨rfl, fun _ => Iff.rfl, rfl⟩

/-- A step of the call, after the critical section, that leaves the counter alone. -/
theorem Books.goOn {d : Dialer} {s s' : ConnectCall} (h : Books d s) (hcalled : s.phase ≠ .called)
    (hreturned : s.phase ≠ .returned false) (hphase : s'.phase ≠ .called)
    (hcount : s'.pools.client.taskCount = s.pools.client.taskCount)
    (hothers : s'.others = s.others) : Books d s' := by
  cases h with
  | called h => exact absurd h hcalled
  | early _ h => exact absurd h hreturned
  | counted hearly _ h => exact .counted hearly hphase (by rw [hcount, hothers, h])

/-- **One step** of the call or of another client. -/
theorem books_step {d : Dialer} {s s' : ConnectCall} {a : ConnectAct} (h : Books d s)
    (hstep : s.step d a = some s') : Books d s' := by
  have hrestored : s.phase = .called → s.Restored := by
    intro hcalled
    cases h with
    | called _ h => exact h
    | early _ hreturned => simp [hcalled] at hreturned
    | counted _ hne => exact absurd hcalled hne
  cases does_of_step hstep with
  | early hphase hearly =>
    have hbefore := hrestored hphase
    exact .early hearly rfl ⟨hbefore.1, hbefore.2, hbefore.3⟩
  | enter hphase hearly hn =>
    refine .counted hearly ?_ ?_
    · simp only
      unfold ConnectPhase.entered
      split <;> simp
    · cases NodePools.does_of_step hn with
      | connect _ _ =>
        have hcount := (hrestored hphase).taskCount
        simp only [taskCount_connect]
        omega
  | wake hphase hn =>
    cases NodePools.does_of_step hn with
    | wake _ => exact h.goOn (by simp [hphase]) (by simp [hphase]) (by simp) rfl rfl
  | shake hphase | again hphase =>
    exact h.goOn (by simp [hphase]) (by simp [hphase]) (by simp) rfl rfl
  | giveUp hphase _ _ _ hn =>
    cases NodePools.does_of_step hn with
    | dialFail _ => exact h.goOn (by simp [hphase]) (by simp [hphase]) (by simp) rfl rfl
  | publish hphase hn =>
    cases NodePools.does_of_step hn with
    | publish _ => exact h.goOn (by simp [hphase]) (by simp [hphase]) (by simp) rfl rfl
  | @other a n _ _ =>
    cases h with
    | called hphase h => exact .called hphase (h.follow n)
    | early hearly hphase h => exact .early hearly hphase (h.follow n)
    | counted hearly hphase hcount =>
      refine .counted hearly hphase ?_
      simp only [follow_taskCount, NodePools.shared]
      omega

/-- **A `connect` that has returned `false` has left no trace exactly when it returned before the
critical section**, whatever the state was, and whatever the rounds and the other clients did. -/
theorem restored_iff {d : Dialer} {n : NodePools} {acts : List ConnectAct} {s : ConnectCall}
    (hrun : run (step d) (start n) acts = some s) (hfalse : s.phase = .returned false) :
    s.Restored ↔ d.Early := by
  have h : Books d s := run_invariant (fun _ _ _ => books_step) (books_start d n) hrun
  cases h with
  | called hphase => simp [hfalse] at hphase
  | early hearly _ h => exact iff_of_true h hearly
  | counted hearly _ hcount =>
    refine iff_of_false (fun h => ?_) hearly
    have hsame := h.taskCount
    omega

/-- The next client waits for the address. -/
theorem waits_of_listed {n : NodePools} {k : Nat} {address : Bytes} (hk : n.clients k = .idle)
    (hnone : n.client.connections.lookup address = none) (hmem : address ∈ n.toConnectSet) :
    ∃ n', n.step (.connect k address) = some n' ∧ n'.clients k = .waiting address := by
  refine ⟨n.connect k address, by simp only [NodePools.step, hk], ?_⟩
  have hwaits : n.connect k address = NodePools.setClient
      (n.setPool .client { n.client with taskCount := n.client.taskCount + 1 }) k
      (.waiting address) := by
    simp only [NodePools.connect, NodePools.lookUp, NodePools.setPool, NodePools.waitOrDial, hnone,
      hmem, if_true]
  rw [hwaits]
  simp [NodePools.setClient]

/-- The host has no address. Another client connects before and after. -/
theorem restored_iff_small : ∃ (d : Dialer) (s : ConnectCall), d.ip = [] ∧
    run (step d) (start {}) [.other (.connect 1 [9]), .enter, .other (.connect 2 [9])] = some s ∧
    s.phase = .returned false ∧ s.Restored := by
  let d : Dialer := ⟨0, true, [], 80, [7], false, 10, 3⟩
  obtain ⟨s, hrun, hfalse⟩ : ∃ s, run (step d) (start {})
      [.other (.connect 1 [9]), .enter, .other (.connect 2 [9])] = some s ∧
      s.phase = .returned false := ⟨_, rfl, rfl⟩
  exact ⟨d, s, rfl, hrun, hfalse, (restored_iff hrun hfalse).mpr (.inr rfl)⟩

/-- In two rounds, there is no socket at first, and then the handshake fails. The task stays counted
and the client connected, and the next one waits for it. -/
theorem not_restored : ∃ (d : Dialer) (acts : List ConnectAct) (s : ConnectCall),
    run (step d) (start {}) acts = some s ∧ s.phase = .returned false ∧ ¬ s.Restored ∧
    s.pools.client.taskCount = 1 ∧ s.others.taskCount = 0 ∧ s.connected = true ∧
    ∃ n, s.pools.step (.connect 1 d.nodeAddress) = some n ∧
      n.clients 1 = .waiting d.nodeAddress := by
  let d : Dialer := ⟨0, true, [49], 80, [7], true, 1000, 2⟩
  refine ⟨d, [.enter, .round { socketFd := -1, cidRet := 0 }, .round
    { socketFd := 3, connects := [(.ok, 0)], cidRet := 9, handshakeRet := false }], _, rfl, rfl,
    fun h => ?_, rfl, rfl, rfl, waits_of_listed rfl ?_ ?_⟩
  · exact absurd h.connected (by decide)
  · decide
  · decide

end ConnectCall

end Rosetta

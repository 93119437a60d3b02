import Rosetta.Lib.Assoc
import Rosetta.Pool.Basic

/-!
# What a step of the pools does

The parts of the epoll argument that are about the maps alone: no step opens a connection again
(`Ages`), and what a step makes known was known before it or is the connection that it makes
(`Effect`).
-/

namespace Rosetta

open Lib

theorem PoolConn.isClosed_close (x : PoolConn) : x.close.state.isClosed = true := by
  unfold close
  split
  · rfl
  · next h =>
    rw [not_not.mp h]
    rfl

theorem PoolConn.isClosed_closeBegin (x : PoolConn) : x.closeBegin.state.isClosed = true := by
  unfold closeBegin
  split
  · rfl
  · next h =>
    rw [not_not.mp h]
    rfl

namespace NodePools

variable {n n' : NodePools}

/-- No connection is opened again. -/
structure Ages (n n' : NodePools) : Prop where
  next_le : ∀ side, (n.pool side).next ≤ (n'.pool side).next
  closed : ∀ side c, c < (n.pool side).next → ((n.pool side).conns c).state.isClosed = true →
    ((n'.pool side).conns c).state.isClosed = true

theorem Ages.refl (n : NodePools) : n.Ages n := ⟨fun _ => Nat.le_refl _, fun _ _ _ h => h⟩

/-- One of the two pools changes. -/
theorem ages_of_pool (side : Side) {p : Pool} (hside : n'.pool side = p)
    (hother : ∀ side', side' ≠ side → n'.pool side' = n.pool side')
    (hnext : (n.pool side).next ≤ p.next)
    (hclosed : ∀ c, c < (n.pool side).next → ((n.pool side).conns c).state.isClosed = true →
      (p.conns c).state.isClosed = true) : n.Ages n' := by
  constructor
  · intro side'
    rcases eq_or_ne side' side with rfl | hne
    · rw [hside]
      exact hnext
    · rw [hother side' hne]
  · intro side' c hc h
    rcases eq_or_ne side' side with rfl | hne
    · rw [hside]
      exact hclosed c hc h
    · rw [hother side' hne]
      exact h

theorem pool_setPool (side : Side) (p : Pool) : (n.setPool side p).pool side = p := by
  cases side with
  | server => rfl
  | client => rfl

theorem pool_setPool_ne {side side' : Side} (h : side' ≠ side) (p : Pool) :
    (n.setPool side p).pool side' = n.pool side' := by
  cases side with
  | server =>
    cases side' with
    | server => exact absurd rfl h
    | client => rfl
  | client =>
    cases side' with
    | server => rfl
    | client => exact absurd rfl h

theorem ages_update {side : Side} {c : Nat} {f : PoolConn → PoolConn}
    (hf : ∀ x, x.state.isClosed = true → (f x).state.isClosed = true) :
    n.Ages (n.setPool side ((n.pool side).update c f)) := by
  refine ages_of_pool side (pool_setPool side _) (fun _ h => pool_setPool_ne h _) (Nat.le_refl _) ?_
  intro c' _ hclosed
  rcases eq_or_ne c' c with rfl | hne
  · simpa [Pool.update] using hf _ hclosed
  · simpa [Pool.update, hne] using hclosed

theorem Pool.conns_retire (p : Pool) (key : Bytes) :
    (p.retire key).conns = p.conns ∧ (p.retire key).next = p.next := by
  unfold Pool.retire
  split
  · exact ⟨rfl, rfl⟩
  · exact ⟨rfl, rfl⟩

theorem Pool.insertNew_closed (p : Pool) (key : Bytes) {c : Nat} (hc : c < p.next)
    (h : (p.conns c).state.isClosed = true) : ((p.insertNew key).conns c).state.isClosed = true := by
  have hne : c ≠ p.next := hc.ne
  simpa [Pool.insertNew, hne] using h

theorem lastTask_closed (p : Pool) (unrecv : Nat) {c : Nat}
    (h : (p.conns c).state.isClosed = true) :
    ((lastTask p unrecv).conns c).state.isClosed = true := by
  simp only [lastTask]
  split
  · simp only [Pool.closeAll]
    split
    · exact PoolConn.isClosed_close _
    · exact h
  · exact h

theorem lastTask_next (p : Pool) (unrecv : Nat) : (lastTask p unrecv).next = p.next := by
  simp only [lastTask]
  split
  · rfl
  · rfl

theorem lastTask_taskCount (p : Pool) (unrecv : Nat) :
    (lastTask p unrecv).taskCount = p.taskCount - 1 := by
  simp only [lastTask]
  split
  · rfl
  · rfl

/-- A map, a call of `put_connection` or a client has the connection. -/
def Known (n : NodePools) (side : Side) (c : Nat) : Prop :=
  (∃ key, (n.pool side).connections.lookup key = some c) ∨
  (side = .server ∧ ∃ k f, n.puts k = some f ∧ f.conn = c) ∨
  (side = .client ∧ ∃ k, n.clients k = .connected c)

end NodePools

/-- The side on which the action makes a connection. -/
def PoolAct.creates : PoolAct → Option Side
  | .accept _ => some .server
  | .publish _ => some .client
  | _ => none

/-- The action gives the connection to the client. -/
def PoolAct.Gives (n : NodePools) (k c : Nat) : PoolAct → Prop
  | .connect k' address => k' = k ∧ n.client.connections.lookup address = some c
  | .wake k' => k' = k ∧ n.wakesOn k = some c
  | .publish k' => k' = k ∧ c = n.client.next
  | _ => False

/-- The client is inside of `connect`, or connected. -/
def ClientState.busy : ClientState → Bool
  | .idle | .failed => false
  | _ => true

namespace NodePools

variable {n n' : NodePools}

structure Effect (n : NodePools) (a : PoolAct) (n' : NodePools) : Prop where
  ages : n.Ages n'
  creates : ∀ side, a.creates = some side → (n.pool side).next < (n'.pool side).next
  known : ∀ side c, n'.Known side c →
    n.Known side c ∨ (a.creates = some side ∧ c = (n.pool side).next)
  connected : ∀ k c, n'.clients k = .connected c → n.clients k = .connected c ∨ a.Gives n k c
  busy : ∀ k, (n'.clients k).busy = true →
    (n.clients k).busy = true ∨ ∃ address, a = .connect k address
  puts : ∀ k, n'.puts k ≠ none → n.puts k ≠ none ∨ ∃ nodeId, a = .find k nodeId

theorem known_of_gives {a : PoolAct} {k c : Nat} (h : a.Gives n k c) :
    n.Known .client c ∨ (a.creates = some .client ∧ c = n.client.next) := by
  cases a with
  | connect k' address => exact .inl (.inl ⟨address, h.2⟩)
  | wake k' =>
    obtain ⟨-, hwakes⟩ := h
    unfold wakesOn at hwakes
    split at hwakes
    · next address _ => exact .inl (.inl ⟨address, hwakes⟩)
    · cases hwakes
  | publish k' => exact .inr ⟨rfl, h.2⟩
  | _ => exact h.elim

/-- What has to be shown of a step, part by part. -/
theorem effect_of {a : PoolAct} (hages : n.Ages n')
    (hcreates : ∀ side, a.creates = some side → (n.pool side).next < (n'.pool side).next)
    (hlookup : ∀ side key c, (n'.pool side).connections.lookup key = some c →
      (∃ key', (n.pool side).connections.lookup key' = some c) ∨
        (a.creates = some side ∧ c = (n.pool side).next))
    (hputs : ∀ k f, n'.puts k = some f → n.puts k = some f ∨
      ∃ nodeId, a = .find k nodeId ∧ n.server.connections.lookup nodeId = some f.conn)
    (hclients : ∀ k c, n'.clients k = .connected c → n.clients k = .connected c ∨ a.Gives n k c)
    (hbusy : ∀ k, (n'.clients k).busy = true →
      (n.clients k).busy = true ∨ ∃ address, a = .connect k address) : n.Effect a n' := by
  refine ⟨hages, hcreates, ?_, hclients, hbusy, ?_⟩
  · rintro side c (⟨key, hkey⟩ | ⟨rfl, k, f, hk, rfl⟩ | ⟨rfl, k, hk⟩)
    · exact (hlookup side key c hkey).imp_left .inl
    -- what a call has in its hand came out of a map, or is new
    · rcases hputs k f hk with hk | ⟨nodeId, -, hlookup⟩
      · exact .inl (.inr (.inl ⟨rfl, k, f, hk, rfl⟩))
      · exact .inl (.inl ⟨nodeId, hlookup⟩)
    · rcases hclients k c hk with hk | hgives
      · exact .inl (.inr (.inr ⟨rfl, k, hk⟩))
      · exact known_of_gives hgives
  · intro k hk
    obtain ⟨f, hf⟩ := Option.ne_none_iff_exists'.mp hk
    rcases hputs k f hf with h | ⟨nodeId, rfl, -⟩
    · exact .inl (by simp [h])
    · exact .inr ⟨nodeId, rfl⟩

/-- A step that makes nothing and gives nothing. -/
theorem effect_of_less {a : PoolAct} (hages : n.Ages n') (hcreates : a.creates = none)
    (hlookup : ∀ side key c, (n'.pool side).connections.lookup key = some c →
      ∃ key', (n.pool side).connections.lookup key' = some c)
    (hputs : ∀ k f, n'.puts k = some f → n.puts k = some f)
    (hclients : ∀ k, (n'.clients k).busy = true → n'.clients k = n.clients k) :
    n.Effect a n' := by
  refine effect_of hages ?_ ?_ ?_ ?_ ?_
  · intro side h
    rw [hcreates] at h
    cases h
  · intro side key c h
    exact .inl (hlookup side key c h)
  · intro k f h
    exact .inl (hputs k f h)
  · intro k c h
    exact .inl ((hclients k (by rw [h]; rfl)).symm.trans h)
  · intro k h
    exact .inl (hclients k h ▸ h)

/-! ## The steps -/

theorem effect_update {a : PoolAct} (hcreates : a.creates = none) (side : Side) (c : Nat)
    {f : PoolConn → PoolConn}
    (hf : ∀ x, x.state.isClosed = true → (f x).state.isClosed = true) :
    n.Effect a (n.setPool side ((n.pool side).update c f)) := by
  refine effect_of_less (ages_update hf) hcreates ?_ ?_ ?_
  · intro side' key c' h
    refine ⟨key, ?_⟩
    rcases eq_or_ne side' side with rfl | hne
    · rwa [pool_setPool] at h
    · rwa [pool_setPool_ne hne] at h
  · cases side with
    | server => exact fun _ _ h => h
    | client => exact fun _ _ h => h
  · cases side with
    | server => exact fun _ _ => rfl
    | client => exact fun _ _ => rfl

theorem lastTask_lookup {p : Pool} {unrecv : Nat} {key : Bytes} {c : Nat}
    (h : (lastTask p unrecv).connections.lookup key = some c) :
    p.connections.lookup key = some c := by
  simp only [lastTask] at h
  split at h
  · simp [Pool.closeAll] at h
  · exact h

theorem lookup_insertNew {p : Pool} {key key' : Bytes} {c : Nat}
    (h : (p.insertNew key).connections.lookup key' = some c) :
    p.connections.lookup key' = some c ∨ c = p.next := by
  simp only [Pool.insertNew] at h
  split at h
  · exact .inl h
  · rcases lookup_insert_eq_some.mp h with ⟨-, h⟩ | ⟨-, h⟩
    · exact .inr h.symm
    · exact .inl h

theorem lookup_retire {p : Pool} {key key' : Bytes} {c : Nat}
    (h : (p.retire key).connections.lookup key' = some c) :
    key' ≠ key ∧ p.connections.lookup key' = some c := by
  unfold Pool.retire at h
  split at h
  · exact lookup_erase_eq_some.mp h
  · next hnone =>
    refine ⟨?_, h⟩
    rintro rfl
    rw [hnone] at h
    cases h

theorem effect_accept (cid : Bytes) : n.Effect (.accept cid)
    { n with server := (n.server.retire cid).insertNew cid } := by
  -- `retire` makes no connection, so the new one has the number that was next before
  obtain ⟨hconns, hnext⟩ := Pool.conns_retire n.server cid
  have hnew : ((n.server.retire cid).insertNew cid).next = n.server.next + 1 :=
    congrArg (· + 1) hnext
  refine effect_of (ages_of_pool .server rfl ?_ ?_ ?_) ?_ ?_ ?_ ?_ ?_
  · intro side' hne
    cases side' with
    | server => exact absurd rfl hne
    | client => rfl
  · exact hnew ▸ Nat.le_succ _
  · intro c hc hclosed
    exact Pool.insertNew_closed _ cid (hnext.symm ▸ hc) (hconns.symm ▸ hclosed)
  · intro side hside
    obtain rfl := Option.some.inj hside
    exact hnew ▸ Nat.lt_succ_self _
  · intro side key c h
    cases side with
    | server =>
      rcases lookup_insertNew h with h | h
      · exact .inl ⟨key, (lookup_retire h).2⟩
      · exact .inr ⟨rfl, h.trans hnext⟩
    | client => exact .inl ⟨key, h⟩
  · exact fun _ _ h => .inl h
  · exact fun _ _ h => .inl h
  · exact fun _ h => .inl h

theorem waitOrDial_spec (k : Nat) (address : Bytes) : ∃ st : ClientState,
    (∀ c, st ≠ .connected c) ∧
    (n.waitOrDial k address).clients = Function.update n.clients k st ∧
    (n.waitOrDial k address).client = n.client ∧
    (n.waitOrDial k address).server = n.server ∧ (n.waitOrDial k address).puts = n.puts := by
  unfold waitOrDial
  split
  · exact ⟨.waiting address, fun _ => ClientState.noConfusion, rfl, rfl, rfl, rfl⟩
  · exact ⟨.dialing address, fun _ => ClientState.noConfusion, rfl, rfl, rfl, rfl⟩

/-- What `connect` finds, and what it leaves. -/
theorem connect_spec (k : Nat) (address : Bytes) : ∃ st : ClientState,
    (∀ c, st = .connected c → n.client.connections.lookup address = some c) ∧
    (n.connect k address).clients = Function.update n.clients k st ∧
    (n.connect k address).client.conns = n.client.conns ∧
    (n.connect k address).client.next = n.client.next ∧
    (∀ key c, (n.connect k address).client.connections.lookup key = some c →
      n.client.connections.lookup key = some c) ∧
    (n.connect k address).server = n.server ∧ (n.connect k address).puts = n.puts := by
  unfold connect lookUp
  split
  · next c hc =>
    split
    · refine ⟨.connected c, ?_, rfl, rfl, rfl, fun _ _ h => h, rfl, rfl⟩
      rintro c' heq
      obtain rfl := ClientState.connected.inj heq
      exact hc
    · -- the connection is no longer taken, so the entry goes
      set m := (n.setPool .client { n.client with
        taskCount := n.client.taskCount + 1 }) with hm
      obtain ⟨st, hst, hclients, hclient, hserver, hputs⟩ :=
        (m.setPool .client (m.client.retire address)).waitOrDial_spec k address
      obtain ⟨hconns, hnext⟩ := Pool.conns_retire m.client address
      refine ⟨st, fun c h => absurd h (hst c), hclients, ?_, ?_, ?_, hserver, hputs⟩
      · rw [hclient]
        exact hconns
      · rw [hclient]
        exact hnext
      · intro key c h
        rw [hclient] at h
        exact (lookup_retire h).2
  · next hnone =>
    set m := (n.setPool .client { n.client with taskCount := n.client.taskCount + 1 }) with hm
    obtain ⟨st, hst, hclients, hclient, hserver, hputs⟩ := m.waitOrDial_spec k address
    refine ⟨st, fun c h => absurd h (hst c), hclients, ?_, ?_, ?_, hserver, hputs⟩
    · rw [hclient]
      rfl
    · rw [hclient]
      rfl
    · intro key c h
      rwa [hclient] at h

theorem effect_connect (k : Nat) (address : Bytes) :
    n.Effect (.connect k address) (n.connect k address) := by
  obtain ⟨st, hst, hclients, hconns, hnext, hlookup, hserver, hputs⟩ := n.connect_spec k address
  have hpool : ∀ side', side' ≠ .client → (n.connect k address).pool side' = n.pool side' := by
    intro side' hne
    cases side' with
    | server => exact hserver
    | client => exact absurd rfl hne
  refine effect_of (ages_of_pool .client rfl hpool ?_ ?_) ?_ ?_ ?_ ?_ ?_
  · exact hnext ▸ Nat.le_refl _
  · intro c _ h
    exact (congrArg (fun conns => (conns c).state.isClosed) hconns).trans h
  · intro side h
    cases h
  · intro side key c h
    cases side with
    | server => exact .inl ⟨key, hpool .server Side.noConfusion ▸ h⟩
    | client => exact .inl ⟨key, hlookup key c h⟩
  · intro k' f h
    exact .inl (hputs ▸ h)
  · intro k' c h
    rw [hclients] at h
    rcases eq_or_ne k' k with rfl | hne
    · rw [Function.update_self] at h
      exact .inr ⟨rfl, hst c h⟩
    · exact .inl (by simpa [hne] using h)
  · intro k' h
    rw [hclients] at h
    rcases eq_or_ne k' k with rfl | hne
    · exact .inr ⟨address, rfl⟩
    · exact .inl (by simpa [hne] using h)

theorem effect_publish {k : Nat} {address : Bytes} (hk : n.clients k = .dialing address) :
    n.Effect (.publish k) { n.setClient k (.connected n.client.next) with
      client := n.client.insertNew address
      toConnectSet := n.toConnectSet.filter (· ≠ address) } := by
  refine effect_of (ages_of_pool .client rfl ?_ ?_ ?_) ?_ ?_ ?_ ?_ ?_
  · intro side' hne
    cases side' with
    | server => rfl
    | client => exact absurd rfl hne
  · exact Nat.le_succ _
  · intro c hc hclosed
    exact Pool.insertNew_closed _ address hc hclosed
  · intro side hside
    obtain rfl := Option.some.inj hside
    exact Nat.lt_succ_self _
  · intro side key c h
    cases side with
    | server => exact .inl ⟨key, h⟩
    | client =>
      rcases lookup_insertNew h with h | h
      · exact .inl ⟨key, h⟩
      · exact .inr ⟨rfl, h⟩
  · exact fun _ _ h => .inl h
  · intro k' c h
    rcases eq_or_ne k' k with rfl | hne
    · have hc : n.client.next = c := by simpa [setClient] using h
      exact .inr ⟨rfl, hc.symm⟩
    · exact .inl (by simpa [setClient, hne] using h)
  · intro k' h
    rcases eq_or_ne k' k with rfl | hne
    · exact .inl (by rw [hk]; rfl)
    · exact .inl (by simpa [setClient, hne] using h)

theorem effect_wake {k c : Nat} (hc : n.wakesOn k = some c) : n.Effect (.wake k) (n.reuse k c) := by
  have hages : n.Ages (n.reuse k c) := ⟨fun _ => Nat.le_refl _, fun _ _ _ h => h⟩
  refine effect_of hages ?_ ?_ ?_ ?_ ?_
  · intro side h
    cases h
  · exact fun _ key _ h => .inl ⟨key, h⟩
  · exact fun _ _ h => .inl h
  · intro k' c' h
    rcases eq_or_ne k' k with rfl | hne
    · have heq : c = c' := by simpa [reuse, setClient] using h
      exact .inr ⟨rfl, heq ▸ hc⟩
    · exact .inl (by simpa [reuse, setClient, hne] using h)
  · intro k' h
    rcases eq_or_ne k' k with rfl | hne
    · -- a client that wakes was waiting
      refine .inl ?_
      unfold wakesOn at hc
      split at hc
      · next hk =>
        rw [hk]
        rfl
      · cases hc
    · exact .inl (by simpa [reuse, setClient, hne] using h)

theorem effect_clientClose {k : Nat} (unrecv : Nat) (l : List Bytes) :
    n.Effect (.clientClose k unrecv)
      { n.setClient k .idle with client := lastTask n.client unrecv, toConnectSet := l } := by
  refine effect_of_less (ages_of_pool .client rfl ?_ ?_ ?_) rfl ?_ ?_ ?_
  · intro side' hne
    cases side' with
    | server => rfl
    | client => exact absurd rfl hne
  · exact (lastTask_next n.client unrecv).ge
  · exact fun c _ h => lastTask_closed n.client unrecv h
  · intro side key c h
    cases side with
    | server => exact ⟨key, h⟩
    | client => exact ⟨key, lastTask_lookup h⟩
  · exact fun _ _ h => h
  · intro k' h
    rcases eq_or_ne k' k with rfl | hne
    · simp [setClient, ClientState.busy] at h
    · simp [setClient, hne]

theorem effect_serverStop (unrecv : Nat) :
    n.Effect (.serverStop unrecv) { n with server := lastTask n.server unrecv } := by
  refine effect_of_less (ages_of_pool .server rfl ?_ ?_ ?_) rfl ?_ ?_ ?_
  · intro side' hne
    cases side' with
    | server => exact absurd rfl hne
    | client => rfl
  · exact (lastTask_next n.server unrecv).ge
  · exact fun c _ h => lastTask_closed n.server unrecv h
  · intro side key c h
    cases side with
    | server => exact ⟨key, lastTask_lookup h⟩
    | client => exact ⟨key, h⟩
  · exact fun _ _ h => h
  · exact fun _ _ => rfl

theorem effect_find {k : Nat} {nodeId : Bytes} {c : Nat}
    (hc : n.server.connections.lookup nodeId = some c) (st : ConnState) :
    n.Effect (.find k nodeId) { n with puts := Function.update n.puts k (some ⟨c, st⟩) } := by
  refine effect_of ⟨fun _ => Nat.le_refl _, fun _ _ _ h => h⟩ ?_ ?_ ?_ ?_ ?_
  · intro side h
    cases h
  · exact fun _ key _ h => .inl ⟨key, h⟩
  · intro k' f h
    rcases eq_or_ne k' k with rfl | hne
    · obtain rfl : Found.mk c st = f := by simpa using h
      exact .inr ⟨nodeId, rfl, hc⟩
    · exact .inl (by simpa [hne] using h)
  · exact fun _ _ h => .inl h
  · exact fun _ h => .inl h

/-- A step that leaves the maps and the clients alone, and the calls of `put_connection` or one
less. -/
theorem effect_of_same {a : PoolAct} (hcreates : a.creates = none)
    (hserver : n'.server.conns = n.server.conns ∧ n'.server.next = n.server.next ∧
      n'.server.connections = n.server.connections)
    (hclient : n'.client = n.client) (hclients : n'.clients = n.clients)
    (hputs : ∀ k f, n'.puts k = some f → n.puts k = some f) : n.Effect a n' := by
  obtain ⟨hconns, hnext, hconnections⟩ := hserver
  refine effect_of_less (ages_of_pool .server rfl ?_ ?_ ?_) hcreates ?_ hputs ?_
  · intro side' hne
    cases side' with
    | server => exact absurd rfl hne
    | client => exact hclient
  · exact hnext.ge
  · intro c _ h
    exact (congrArg (fun conns => (conns c).state.isClosed) hconns).trans h
  · intro side key c h
    cases side with
    | server =>
      have h : n'.server.connections.lookup key = some c := h
      rw [hconnections] at h
      exact ⟨key, h⟩
    | client =>
      have h : n'.client.connections.lookup key = some c := h
      rw [hclient] at h
      exact ⟨key, h⟩
  · exact fun k _ => congrFun hclients k

theorem effect_put {a : PoolAct} (ha : a.creates = none) (k : Nat) (handed : List Found) :
    n.Effect a { n with puts := Function.update n.puts k none, handed } := by
  refine effect_of_same ha ⟨rfl, rfl, rfl⟩ rfl rfl fun k' f h => ?_
  rcases eq_or_ne k' k with rfl | hne
  · simp at h
  · simpa [hne] using h

theorem effect_dialFail (k : Nat) : n.Effect (.dialFail k) (n.setClient k .failed) := by
  refine effect_of_less ⟨fun _ => Nat.le_refl _, fun _ _ _ h => h⟩ rfl (fun _ key _ h => ⟨key, h⟩)
    (fun _ _ h => h) ?_
  intro k' h
  rcases eq_or_ne k' k with rfl | hne
  · simp [setClient, ClientState.busy] at h
  · simp [setClient, hne]

/-- **What a step does.** -/
theorem effect_step {a : PoolAct} (hstep : n.step a = some n') : n.Effect a n' := by
  cases does_of_step hstep with
  | accept cid => exact effect_accept cid
  | eof | errorClose => exact effect_update rfl _ _ fun x _ => x.isClosed_closeBegin
  | error => exact effect_update rfl _ _ fun _ h => h
  | closeEnd => exact effect_update rfl _ _ fun _ _ => rfl
  | found hc => exact effect_find hc _
  | put | putNone => exact effect_put rfl _ _
  | connect address => exact effect_connect _ address
  | wake hc => exact effect_wake hc
  | publish hk => exact effect_publish hk
  | dialFail => exact effect_dialFail _
  | clientClose unrecv => exact effect_clientClose unrecv _
  | notFound | serverStart => exact effect_of_same rfl ⟨rfl, rfl, rfl⟩ rfl rfl fun _ _ h => h
  | serverStop unrecv => exact effect_serverStop unrecv

/-- What the action does to `task_count_` of the server. -/
theorem taskCount_step {a : PoolAct} (hstart : a ≠ .serverStart)
    (hstop : ∀ unrecv, a ≠ .serverStop unrecv) (hstep : n.step a = some n') :
    n'.server.taskCount = n.server.taskCount := by
  have hupdate : ∀ side c f, (n.setPool side ((n.pool side).update c f)).server.taskCount =
      n.server.taskCount := by
    intro side c f
    cases side with
    | server => rfl
    | client => rfl
  cases does_of_step hstep with
  | accept cid =>
    unfold Pool.retire
    split
    · rfl
    · rfl
  | eof | error | errorClose | closeEnd => exact hupdate _ _ _
  | connect address =>
    obtain ⟨_, _, _, _, _, _, hserver, _⟩ := n.connect_spec _ address
    rw [hserver]
  | found | notFound | put | putNone | wake | publish | dialFail | clientClose => rfl
  | serverStart => exact absurd rfl hstart
  | serverStop unrecv => exact absurd rfl (hstop unrecv)

end NodePools

end Rosetta

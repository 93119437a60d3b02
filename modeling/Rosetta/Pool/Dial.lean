import Mathlib.Data.Set.Card
import Rosetta.Pool.Effect

/-!
# One dial for an address

A task that finds no connection in `connections_` puts the address into `to_connect_set_` and dials.
The others wait for it. `Dialing` says how the set, the map and the dialing tasks fit together, and
that `task_count_` counts the tasks that dial or wait as well, so that the last task that closes
finds none of them.

`one_dial` is what follows for one address.
-/

namespace Rosetta

open Lib

namespace NodePools

variable {n n' : NodePools}

/-- `entering` is 1 inside of `connect`, when `task_count_` has been raised and the client is still
idle. -/
structure Dialing (n : NodePools) (entering : Nat) : Prop where
  listed : ∀ k address, n.clients k = .dialing address → address ∈ n.toConnectSet
  alone : ∀ k k' address, n.clients k = .dialing address → n.clients k' = .dialing address → k = k'
  apart : ∀ address ∈ n.toConnectSet, n.client.connections.lookup address = none
  count : ∃ s : Finset Nat, (∀ k, k ∈ s ↔ n.clients k ≠ .idle) ∧
    s.card + entering = n.client.taskCount

theorem dialing_start : Dialing {} 0 := by
  refine ⟨?_, ?_, ?_, ∅, ?_, rfl⟩
  · intro k address h
    cases h
  · intro k k' address h
    cases h
  · intro address h
    cases h
  · intro k
    simp

/-! ## The tasks that are counted -/

/-- A client that is not counted yet. -/
theorem count_enter {clients : Nat → ClientState} {s : Finset Nat}
    (hs : ∀ k, k ∈ s ↔ clients k ≠ .idle) {k : Nat} (hk : clients k = .idle) {c : ClientState}
    (hc : c ≠ .idle) :
    (∀ k', k' ∈ insert k s ↔ Function.update clients k c k' ≠ .idle) ∧
      (insert k s).card = s.card + 1 := by
  refine ⟨fun k' => ?_, Finset.card_insert_of_notMem fun hmem => (hs k).mp hmem hk⟩
  rcases eq_or_ne k' k with rfl | hne
  · simp [hc]
  · simp [hne, hs]

/-- One that goes on. -/
theorem count_stay {clients : Nat → ClientState} {s : Finset Nat}
    (hs : ∀ k, k ∈ s ↔ clients k ≠ .idle) {k : Nat} (hk : clients k ≠ .idle) {c : ClientState}
    (hc : c ≠ .idle) (k' : Nat) : k' ∈ s ↔ Function.update clients k c k' ≠ .idle := by
  rcases eq_or_ne k' k with rfl | hne
  · simp [hc, hs, hk]
  · simp [hne, hs]

/-- One that leaves. -/
theorem count_leave {clients : Nat → ClientState} {s : Finset Nat}
    (hs : ∀ k, k ∈ s ↔ clients k ≠ .idle) {k : Nat} (hk : clients k ≠ .idle) :
    (∀ k', k' ∈ s.erase k ↔ Function.update clients k .idle k' ≠ .idle) ∧
      (s.erase k).card = s.card - 1 := by
  refine ⟨fun k' => ?_, Finset.card_erase_of_mem ((hs k).mpr hk)⟩
  rcases eq_or_ne k' k with rfl | hne
  · simp
  · simp [hne, hs]

/-! ## The steps -/

theorem clients_setClient {k k' : Nat} {c c' : ClientState} :
    (n.setClient k c).clients k' = c' ↔ (k' = k ∧ c = c') ∨ (k' ≠ k ∧ n.clients k' = c') := by
  rcases eq_or_ne k' k with rfl | hk
  · simp [setClient]
  · simp [setClient, hk]

/-- The dialing clients stay the same, or one of them stops. -/
theorem Dialing.of_clients {e e' : Nat} (h : n.Dialing e)
    (hclients : ∀ k address, n'.clients k = .dialing address → n.clients k = .dialing address)
    (hset : n'.toConnectSet = n.toConnectSet)
    (hlookup : ∀ address c, n'.client.connections.lookup address = some c →
      n.client.connections.lookup address = some c)
    (hcount : ∃ s : Finset Nat, (∀ k, k ∈ s ↔ n'.clients k ≠ .idle) ∧
      s.card + e' = n'.client.taskCount) : n'.Dialing e' := by
  refine ⟨?_, ?_, ?_, hcount⟩
  · intro k address hk
    rw [hset]
    exact h.listed k address (hclients k address hk)
  · intro k k' address hk hk'
    exact h.alone k k' address (hclients k address hk) (hclients k' address hk')
  · intro address hmem
    rw [hset] at hmem
    refine Option.eq_none_iff_forall_ne_some.mpr fun c hc => ?_
    have hnone := h.apart address hmem
    rw [hlookup address c hc] at hnone
    cases hnone

theorem dialing_of_setClient {k k' : Nat} {c : ClientState} {address : Bytes}
    (hc : ∀ address, c ≠ .dialing address)
    (h : (n.setClient k c).clients k' = .dialing address) : n.clients k' = .dialing address := by
  rcases clients_setClient.mp h with ⟨-, h⟩ | ⟨-, h⟩
  · exact absurd h (hc address)
  · exact h

/-- A client that is counted goes on, and does not dial any more. -/
theorem Dialing.goOn {e : Nat} (h : n.Dialing e) {k : Nat} (hk : n.clients k ≠ .idle)
    {c : ClientState} (hidle : c ≠ .idle) (hc : ∀ address, c ≠ .dialing address) :
    (n.setClient k c).Dialing e := by
  obtain ⟨s, hs, hcard⟩ := h.count
  exact h.of_clients (fun _ _ => dialing_of_setClient hc) rfl (fun _ _ hc => hc)
    ⟨s, count_stay hs hk hidle, hcard⟩

/-- A client comes in and does not dial. -/
theorem Dialing.enter (h : n.Dialing 1) {k : Nat} (hk : n.clients k = .idle) {c : ClientState}
    (hidle : c ≠ .idle) (hc : ∀ address, c ≠ .dialing address) : (n.setClient k c).Dialing 0 := by
  obtain ⟨s, hs, hcard⟩ := h.count
  obtain ⟨hs', hcard'⟩ := count_enter hs hk hidle
  exact h.of_clients (fun _ _ => dialing_of_setClient hc) rfl (fun _ _ hc => hc)
    ⟨insert k s, hs', hcard'.trans hcard⟩

/-- The map loses an entry, or nothing. -/
theorem Dialing.setPool {e : Nat} (h : n.Dialing e) {p : Pool}
    (hcount : p.taskCount = n.client.taskCount)
    (hlookup : ∀ address c, p.connections.lookup address = some c →
      n.client.connections.lookup address = some c) : (n.setPool .client p).Dialing e := by
  obtain ⟨s, hs, hcard⟩ := h.count
  exact h.of_clients (fun _ _ hk => hk) rfl hlookup ⟨s, hs, hcard.trans hcount.symm⟩

theorem Dialing.waitOrDial (h : n.Dialing 1) {k : Nat} {address : Bytes} (hk : n.clients k = .idle)
    (hnone : n.client.connections.lookup address = none) : (n.waitOrDial k address).Dialing 0 := by
  unfold NodePools.waitOrDial
  split
  · exact h.enter hk ClientState.noConfusion fun _ => ClientState.noConfusion
  · next hmem =>
    obtain ⟨s, hs, hcard⟩ := h.count
    obtain ⟨hs', hcard'⟩ := count_enter (c := .dialing address) hs hk ClientState.noConfusion
    refine ⟨?_, ?_, ?_, insert k s, hs', hcard'.trans hcard⟩
    · intro k' address' hd
      rcases clients_setClient.mp hd with ⟨-, hd⟩ | ⟨-, hd⟩
      · obtain rfl := ClientState.dialing.inj hd
        exact List.mem_cons_self
      · exact List.mem_cons_of_mem _ (h.listed k' address' hd)
    · -- the address was not in the set, so nobody was dialing it
      intro k₁ k₂ address' h₁ h₂
      rcases clients_setClient.mp h₁ with ⟨rfl, new₁⟩ | ⟨-, old₁⟩
      · rcases clients_setClient.mp h₂ with ⟨rfl, -⟩ | ⟨-, old₂⟩
        · rfl
        · obtain rfl := ClientState.dialing.inj new₁
          exact absurd (h.listed k₂ address old₂) hmem
      · rcases clients_setClient.mp h₂ with ⟨rfl, new₂⟩ | ⟨-, old₂⟩
        · obtain rfl := ClientState.dialing.inj new₂
          exact absurd (h.listed k₁ address old₁) hmem
        · exact h.alone k₁ k₂ address' old₁ old₂
    · intro address' hmem'
      rcases List.mem_cons.mp hmem' with rfl | hmem'
      · exact hnone
      · exact h.apart address' hmem'

theorem Dialing.connect (h : n.Dialing 0) {k : Nat} (hk : n.clients k = .idle) (address : Bytes) :
    (n.connect k address).Dialing 0 := by
  obtain ⟨s, hs, hcard⟩ := h.count
  have hone : (n.setPool .client { n.client with
      taskCount := n.client.taskCount + 1 }).Dialing 1 :=
    h.of_clients (fun _ _ hk => hk) rfl (fun _ _ hc => hc) ⟨s, hs, congrArg (· + 1) hcard⟩
  unfold NodePools.connect NodePools.lookUp
  split
  · next c hc =>
    split
    · have hin := hone.enter (c := .connected c) hk ClientState.noConfusion
        fun _ => ClientState.noConfusion
      exact ⟨hin.1, hin.2, hin.3, hin.4⟩
    · refine (hone.setPool ?_ fun _ _ hl => (lookup_retire hl).2).waitOrDial hk ?_
      · unfold Pool.retire
        split
        · rfl
        · rfl
      · refine Option.eq_none_iff_forall_ne_some.mpr fun c' hc' => ?_
        exact (lookup_retire hc').1 rfl
  · next hnone => exact hone.waitOrDial hk hnone

theorem Dialing.publish (h : n.Dialing 0) {k : Nat} {address : Bytes}
    (hk : n.clients k = .dialing address) :
    Dialing { n.setClient k (.connected n.client.next) with
      client := n.client.insertNew address
      toConnectSet := n.toConnectSet.filter (· ≠ address) } 0 := by
  have hbusy : n.clients k ≠ .idle := by simp [hk]
  have hold : ∀ {k' : Nat} {address' : Bytes},
      (n.setClient k (.connected n.client.next)).clients k' = .dialing address' →
        n.clients k' = .dialing address' :=
    dialing_of_setClient fun _ => ClientState.noConfusion
  obtain ⟨s, hs, hcard⟩ := h.count
  refine ⟨?_, ?_, ?_, s, count_stay hs hbusy ClientState.noConfusion, hcard⟩
  · intro k' address' hd
    rcases clients_setClient.mp hd with ⟨-, hnew⟩ | ⟨hne, hd'⟩
    · cases hnew
    · refine List.mem_filter.mpr ⟨h.listed k' address' hd', decide_eq_true ?_⟩
      intro heq
      rw [heq] at hd'
      exact hne (h.alone k' k address hd' hk)
  · intro k₁ k₂ address' h₁ h₂
    exact h.alone k₁ k₂ address' (hold h₁) (hold h₂)
  · intro address' hmem
    obtain ⟨hmem, hne⟩ := List.mem_filter.mp hmem
    have hne' : address' ≠ address := of_decide_eq_true hne
    simp only [Pool.insertNew]
    split
    · exact h.apart address' hmem
    · rw [AList.lookup_insert_ne hne']
      exact h.apart address' hmem

/-- When the counter is down to zero, no client dials. -/
theorem Dialing.clientClose (h : n.Dialing 0) {k c unrecv : Nat} (hk : n.clients k = .connected c) :
    Dialing { n.setClient k .idle with
      client := lastTask n.client unrecv
      toConnectSet :=
        if (lastTask n.client unrecv).taskCount = 0 ∧ unrecv = 0 then [] else n.toConnectSet } 0 := by
  have hbusy : n.clients k ≠ .idle := by simp [hk]
  have hold : ∀ {k' : Nat} {address : Bytes},
      (n.setClient k .idle).clients k' = .dialing address → n.clients k' = .dialing address :=
    dialing_of_setClient fun _ => ClientState.noConfusion
  obtain ⟨s, hs, hcard⟩ := h.count
  obtain ⟨hs', hcard'⟩ := count_leave hs hbusy
  have hcount := lastTask_taskCount n.client unrecv
  have hnew : (s.erase k).card + 0 = (lastTask n.client unrecv).taskCount := by
    simp [hcount, hcard', ← hcard]
  by_cases hlast : (lastTask n.client unrecv).taskCount = 0 ∧ unrecv = 0
  · -- nobody is left
    have hempty : s.erase k = ∅ := Finset.card_eq_zero.mp (hnew.trans hlast.1)
    have hidle : ∀ k', (n.setClient k .idle).clients k' = .idle := by
      intro k'
      by_contra hne
      have hmem := (hs' k').mpr hne
      simp [hempty] at hmem
    refine ⟨?_, ?_, ?_, s.erase k, hs', hnew⟩
    · intro k' address hd
      have hidle' := (hidle k').symm.trans hd
      cases hidle'
    · intro k₁ k₂ address h₁ h₂
      exact h.alone k₁ k₂ address (hold h₁) (hold h₂)
    · intro address hmem
      rw [if_pos hlast] at hmem
      cases hmem
  · refine ⟨?_, ?_, ?_, s.erase k, hs', hnew⟩
    · intro k' address hd
      simpa [hlast] using h.listed k' address (hold hd)
    · intro k₁ k₂ address h₁ h₂
      exact h.alone k₁ k₂ address (hold h₁) (hold h₂)
    · intro address hmem
      rw [hcount] at hlast
      simp only [lastTask, hlast, if_false]
      exact h.apart address (by simpa [hcount, hlast] using hmem)

/-- A step that touches nothing but the connections of the client side. -/
theorem Dialing.setConns {e : Nat} (h : n.Dialing e) (side : Side) (c : Nat)
    (f : PoolConn → PoolConn) : (n.setPool side ((n.pool side).update c f)).Dialing e := by
  cases side with
  | server => exact ⟨h.1, h.2, h.3, h.4⟩
  | client => exact h.setPool rfl fun _ _ hc => hc

/-- **One step** leaves the set, the map and the dialing tasks in agreement. -/
theorem dialing_step {a : PoolAct} (h : n.Dialing 0) (hstep : n.step a = some n') :
    n'.Dialing 0 := by
  cases does_of_step hstep with
  | eof | error | errorClose | closeEnd => exact h.setConns _ _ _
  | accept | found | notFound | put | putNone | serverStart | serverStop =>
    exact ⟨h.1, h.2, h.3, h.4⟩
  | connect address hk => exact h.connect hk address
  | @wake k c hc =>
    have hbusy : n.clients k ≠ .idle := by
      intro hk
      simp [wakesOn, hk] at hc
    have hon := h.goOn hbusy (c := .connected c) ClientState.noConfusion
      fun _ => ClientState.noConfusion
    exact ⟨hon.1, hon.2, hon.3, hon.4⟩
  | publish hk => exact h.publish hk
  | dialFail hk =>
    exact h.goOn (by simp [hk]) ClientState.noConfusion fun _ => ClientState.noConfusion
  | clientClose _ hk => exact h.clientClose hk

/-! ## One address -/

/-- What the README promises of an address, and what it takes. -/
structure OneDial (n : NodePools) (address : Bytes) : Prop where
  /-- the clients that dial and the entries of the map are one at most -/
  atMostOne : {k | n.clients k = .dialing address}.encard +
    (n.client.connections.keys.count address : ℕ∞) ≤ 1
  /-- the connection that a dialer puts into the map is there afterwards -/
  published : ∀ k n', n.clients k = .dialing address → n.step (.publish k) = some n' →
    ∃ c, n'.clients k = .connected c ∧ n'.client.connections.lookup address = some c
  /-- the wait is over: the client holds the connection of the map -/
  waited : ∀ k n', n.clients k = .waiting address → n.step (.wake k) = some n' →
    ∃ c, n'.clients k = .connected c ∧ n'.client.connections.lookup address = some c
  /-- a client that reuses a connection holds the one of the map -/
  reused : ∀ k n' c, n.step (.connect k address) = some n' → n'.clients k = .connected c →
    n'.client.connections.lookup address = some c

theorem Dialing.atMostOne (h : n.Dialing 0) (address : Bytes) :
    {k | n.clients k = .dialing address}.encard +
      (n.client.connections.keys.count address : ℕ∞) ≤ 1 := by
  have hkeys : n.client.connections.keys.count address ≤ 1 :=
    List.nodup_iff_count_le_one.mp n.client.connections.keys_nodup address
  rcases Set.eq_empty_or_nonempty {k | n.clients k = .dialing address} with hnone | ⟨k, hk⟩
  · rw [hnone, Set.encard_empty, zero_add]
    exact_mod_cast hkeys
  · -- somebody dials, so the map has no entry
    have hcount : n.client.connections.keys.count address = 0 := by
      refine List.count_eq_zero.mpr fun hmem => ?_
      exact AList.lookup_eq_none.mp (h.apart address (h.listed k address hk)) hmem
    rw [hcount, Nat.cast_zero, add_zero, Set.encard_le_one_iff]
    intro k₁ k₂ h₁ h₂
    exact h.alone k₁ k₂ address h₁ h₂

theorem Dialing.published (h : n.Dialing 0) {k : Nat} {address : Bytes}
    (hk : n.clients k = .dialing address) (hstep : n.step (.publish k) = some n') :
    ∃ c, n'.clients k = .connected c ∧ n'.client.connections.lookup address = some c := by
  have hnone := h.apart address (h.listed k address hk)
  simp only [step, hk, Option.some.injEq] at hstep
  subst hstep
  refine ⟨n.client.next, clients_setClient.mpr (.inl ⟨rfl, rfl⟩), ?_⟩
  simp [Pool.insertNew, hnone]

theorem waitOrDial_ne_connected {k c : Nat} {address : Bytes} :
    (n.waitOrDial k address).clients k ≠ .connected c := by
  unfold waitOrDial
  split
  · simp [setClient]
  · simp [setClient]

theorem reused_of_lookUp {k c : Nat} {address : Bytes}
    (h : (n.lookUp k address).clients k = .connected c) :
    (n.lookUp k address).client.connections.lookup address = some c := by
  unfold lookUp at h ⊢
  split at h
  · next c' hc' =>
    split at h
    · next hreuse =>
      have heq : c' = c := by simpa [reuse, setClient] using h
      simpa [hreuse, reuse, setClient, ← heq] using hc'
    · exact absurd h waitOrDial_ne_connected
  · exact absurd h waitOrDial_ne_connected

/-- **One dial for an address.** In every state that the calls of `connect` and `close` can reach,
at most one client dials an address or one connection is kept for it, and nobody who is told `true`
holds another connection than the one that is kept. -/
theorem one_dial {acts : List PoolAct} (hrun : run step {} acts = some n) (address : Bytes) :
    n.OneDial address := by
  have h : n.Dialing 0 := run_invariant (fun _ _ _ => dialing_step) dialing_start hrun
  refine ⟨h.atMostOne address, ?_, ?_, ?_⟩
  · intro k n' hk hstep
    exact h.published hk hstep
  · intro k n' hk hstep
    simp only [step, wakesOn, hk] at hstep
    split at hstep
    · next c hc =>
      cases hstep
      exact ⟨c, clients_setClient.mpr (.inl ⟨rfl, rfl⟩), hc⟩
    · cases hstep
  · intro k n' c hstep hk
    simp only [step] at hstep
    split at hstep
    · cases hstep
      exact reused_of_lookUp hk
    · cases hstep

/-- Two tasks want the address: one dials, the other one waits and takes what the first one has put
into the map. -/
theorem one_dial_small : ∃ acts n, run step {} acts = some n ∧
    n.client.connections.lookup [1] = some 0 ∧ n.OneDial [1] := by
  obtain ⟨acts, hview⟩ : ∃ acts : List PoolAct, (run step {} acts).map
      (fun n => n.client.connections.lookup [1]) = some (some 0) :=
    ⟨[.connect 0 [1], .connect 1 [1], .publish 0, .wake 1], by decide⟩
  obtain ⟨n, hrun, hn⟩ := Option.map_eq_some_iff.mp hview
  exact ⟨acts, n, hrun, hn, one_dial hrun [1]⟩

end NodePools

end Rosetta

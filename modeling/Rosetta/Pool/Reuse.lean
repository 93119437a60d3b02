import Rosetta.Pool.Basic

/-!
# Which connections a task is given

A connection that a pool keeps with `reuseable_` set is handed to the next task. `handle_error`
resets the flag before it closes; the last task closes under the lock and empties the map;
`handle_read` closes at an EOF and does neither. And `connect` does not look at the flag when it has
waited for another dialer.

`handed_not_closed` says that these two places are all that goes wrong.
-/

namespace Rosetta

open Lib

/-! ## One pool -/

namespace Pool

variable {p : Pool}

/-- What the pool would hand out is not closed. -/
def Sound (p : Pool) : Prop :=
  ∀ key c, p.connections.lookup key = some c → (p.conns c).reuseable = true →
    (p.conns c).state.isClosed = false

theorem kept_of_lookup {key : Bytes} {c : Nat} (h : p.connections.lookup key = some c) :
    p.Kept c := ⟨⟨key, c⟩, AList.mem_lookup_iff.mp h, rfl⟩

theorem sound_empty : Sound {} := by
  intro key c hkey
  rw [AList.lookup_empty] at hkey
  cases hkey

theorem Sound.update (h : p.Sound) {c : Nat} {f : PoolConn → PoolConn}
    (hf : p.Kept c → (f (p.conns c)).reuseable = true → (f (p.conns c)).state.isClosed = false) :
    (p.update c f).Sound := by
  intro key c' hkey hreuse
  by_cases hc : c' = c
  · subst hc
    simp only [Pool.update, Function.update_self] at hreuse ⊢
    exact hf (kept_of_lookup hkey) hreuse
  · simp only [Pool.update, Function.update_of_ne hc] at hreuse ⊢
    exact h key c' hkey hreuse

theorem Sound.retire (h : p.Sound) (key : Bytes) : (p.retire key).Sound := by
  unfold Pool.retire
  split
  · intro key' c' hkey hreuse
    by_cases hk : key' = key
    · rw [hk] at hkey
      simp only [AList.lookup_erase] at hkey
      cases hkey
    · exact h key' c' (by simpa only [AList.lookup_erase_ne hk] using hkey) hreuse
  · exact h

/-- A new object is not closed, and an entry that stays is not touched. -/
theorem Sound.insertNew (h : p.Sound) (key : Bytes) : (p.insertNew key).Sound := by
  intro key' c' hkey hreuse
  by_cases hc : c' = p.next
  · subst hc
    simp only [Pool.insertNew, Function.update_self]
    rfl
  · have hold : p.connections.lookup key' = some c' := by
      simp only [Pool.insertNew] at hkey
      split at hkey
      · exact hkey
      · by_cases hk : key' = key
        · rw [hk, AList.lookup_insert] at hkey
          exact absurd (Option.some.inj hkey).symm hc
        · rwa [AList.lookup_insert_ne hk] at hkey
    simp only [Pool.insertNew, Function.update_of_ne hc] at hreuse ⊢
    exact h key' c' hold hreuse

theorem sound_closeAll (p : Pool) : p.closeAll.Sound := by
  intro key c hkey
  simp only [Pool.closeAll, AList.lookup_empty] at hkey
  cases hkey

theorem Sound.lastTask (h : p.Sound) (unrecv : Nat) : (NodePools.lastTask p unrecv).Sound := by
  simp only [NodePools.lastTask]
  split
  · exact sound_closeAll _
  · exact h

end Pool

/-! ## The node -/

namespace NodePools

variable {n n' : NodePools}

/--
The two places are avoided: no EOF on a connection that a map keeps with `reuseable_` set, and a
connection found after the wait for another dialer is still reuseable.
-/
def Careful (n : NodePools) : PoolAct → Prop
  | .eof side c => ¬ ((n.pool side).Kept c ∧ ((n.pool side).conns c).reuseable = true)
  | .wake k => ∀ c ∈ n.wakesOn k, (n.client.conns c).reuseable = true
  | _ => True

instance (n : NodePools) : DecidablePred n.Careful
  | .eof _ _ => inferInstanceAs (Decidable (¬ _))
  | .wake k => inferInstanceAs (Decidable (∀ c ∈ n.wakesOn k, (n.client.conns c).reuseable = true))
  | .accept _ | .error _ _ | .errorClose _ _ | .closeEnd _ _ | .find _ _ | .put _ | .connect _ _
  | .publish _ | .dialFail _ | .clientClose _ _ | .serverStart | .serverStop _ => isTrue trivial

structure Sound (n : NodePools) : Prop where
  server : n.server.Sound
  client : n.client.Sound
  puts : ∀ k f, n.puts k = some f → f.state.isClosed = false
  handed : ∀ f ∈ n.handed, f.state.isClosed = false

theorem Sound.pools (h : n.Sound) : ∀ side, (n.pool side).Sound
  | .server => h.server
  | .client => h.client

theorem sound_start : Sound {} := by
  refine ⟨Pool.sound_empty, Pool.sound_empty, ?_, ?_⟩
  · intro k f hf
    cases hf
  · intro f hf
    cases hf

/-- A step that changes one pool only. -/
theorem Sound.setPool (h : n.Sound) {p : Pool} (hp : p.Sound) : ∀ {side : Side},
    (n.setPool side p).Sound
  | .server => ⟨hp, h.client, h.puts, h.handed⟩
  | .client => ⟨h.server, hp, h.puts, h.handed⟩

theorem Sound.setClient (h : n.Sound) (k : Nat) (c : ClientState) : (n.setClient k c).Sound :=
  ⟨h.server, h.client, h.puts, h.handed⟩

theorem lookup_of_wakesOn {k c : Nat} (h : n.wakesOn k = some c) :
    ∃ address, n.client.connections.lookup address = some c := by
  unfold wakesOn at h
  split at h
  · next address _ => exact ⟨address, h⟩
  · cases h

theorem mem_handed {f : Found} (h : n.Sound) {g : Found} (hg : g.state.isClosed = false)
    (hf : f ∈ n.handed ++ [g]) : f.state.isClosed = false := by
  rcases List.mem_append.mp hf with hf | hf
  · exact h.handed f hf
  · rw [List.mem_singleton.mp hf]
    exact hg

theorem Sound.reuse (h : n.Sound) {k c : Nat} {address : Bytes}
    (hc : n.client.connections.lookup address = some c)
    (hreuse : (n.client.conns c).reuseable = true) : (n.reuse k c).Sound :=
  ⟨h.server, h.client, h.puts, fun _ hf => mem_handed h (h.client address c hc hreuse) hf⟩

theorem Sound.waitOrDial (h : n.Sound) (k : Nat) (address : Bytes) :
    (n.waitOrDial k address).Sound := by
  unfold NodePools.waitOrDial
  split
  · exact h.setClient k _
  · exact ⟨h.server, h.client, h.puts, h.handed⟩

theorem Sound.lookUp (h : n.Sound) (k : Nat) (address : Bytes) : (n.lookUp k address).Sound := by
  unfold NodePools.lookUp
  split
  · next c hc =>
    split
    · next hreuse => exact h.reuse hc hreuse
    · have hr : (n.setPool .client (n.client.retire address)).Sound :=
        h.setPool (h.client.retire address)
      exact hr.waitOrDial k address
  · exact h.waitOrDial k address

theorem Sound.connect (h : n.Sound) (k : Nat) (address : Bytes) : (n.connect k address).Sound := by
  have hn : (n.setPool .client { n.client with taskCount := n.client.taskCount + 1 }).Sound :=
    ⟨h.server, h.client, h.puts, h.handed⟩
  exact hn.lookUp k address

theorem reuseable_closeBegin (x : PoolConn) : x.closeBegin.reuseable = x.reuseable := by
  unfold PoolConn.closeBegin
  split
  · rfl
  · rfl

theorem Sound.found (h : n.Sound) {k c : Nat} {nodeId : Bytes}
    (hc : n.server.connections.lookup nodeId = some c)
    (hreuse : (n.server.conns c).reuseable = true) :
    Sound { n with puts := Function.update n.puts k (some ⟨c, (n.server.conns c).state⟩) } := by
  refine ⟨h.server, h.client, ?_, h.handed⟩
  intro k' f hf
  rcases eq_or_ne k' k with rfl | hne
  · simp only [Function.update_self] at hf
    obtain rfl := Option.some.inj hf
    exact h.server nodeId c hc hreuse
  · simp only [Function.update_of_ne hne] at hf
    exact h.puts k' f hf

theorem Sound.putDone (h : n.Sound) (k : Nat) :
    Sound { n with puts := Function.update n.puts k none } := by
  refine ⟨h.server, h.client, ?_, h.handed⟩
  intro k' f hf
  rcases eq_or_ne k' k with rfl | hne
  · simp at hf
  · simp only [Function.update_of_ne hne] at hf
    exact h.puts k' f hf

theorem sound_step (n : NodePools) (a : PoolAct) (n' : NodePools) (h : n.Sound)
    (hcare : n.Careful a) (hs : n.step a = some n') : n'.Sound := by
  cases does_of_step hs with
  | accept cid => exact ⟨(h.server.retire cid).insertNew cid, h.client, h.puts, h.handed⟩
  | eof _ _ =>
    refine h.setPool ((h.pools _).update fun hkept hreuse => ?_)
    rw [reuseable_closeBegin] at hreuse
    exact absurd ⟨hkept, hreuse⟩ hcare
  | error _ => exact h.setPool ((h.pools _).update fun _ => Bool.noConfusion)
  | errorClose _ hflag =>
    refine h.setPool ((h.pools _).update fun _ hreuse => ?_)
    rw [reuseable_closeBegin, hflag] at hreuse
    cases hreuse
  | closeEnd hclosing =>
    refine h.setPool ((h.pools _).update ?_)
    -- the connection was closing before, so the map does not keep it as reuseable
    rintro ⟨⟨key, _⟩, he, rfl⟩ hreuse
    have hsound := h.pools _ key _ (AList.mem_lookup_iff.mpr he) hreuse
    rw [hclosing] at hsound
    cases hsound
  | found hc hreuse => exact h.found hc hreuse
  | notFound => exact h
  | @put k f hf =>
    have hdone := h.putDone k
    exact ⟨hdone.server, hdone.client, hdone.puts, fun g hg => mem_handed h (h.puts k f hf) hg⟩
  | putNone _ => exact h.putDone _
  | connect address _ => exact h.connect _ address
  | wake hc =>
    obtain ⟨address, hkey⟩ := lookup_of_wakesOn hc
    exact h.reuse hkey (hcare _ hc)
  | publish _ => exact ⟨h.server, h.client.insertNew _, h.puts, h.handed⟩
  | dialFail _ => exact h.setClient _ .failed
  | clientClose unrecv _ => exact ⟨h.server, h.client.lastTask unrecv, h.puts, h.handed⟩
  | serverStart => exact ⟨h.server, h.client, h.puts, h.handed⟩
  | serverStop unrecv _ => exact ⟨h.server.lastTask unrecv, h.client, h.puts, h.handed⟩

/--
**No closed connection is given to a task**, in a run that avoids the two places: each connection
handed out was open when it was looked up, and what a map keeps as reuseable is open.
-/
theorem handed_not_closed {acts : List PoolAct} (hacts : AllSteps step Careful {} acts)
    (hrun : run step {} acts = some n) :
    (∀ f ∈ n.handed, f.state.isClosed = false) ∧
      ∀ side key c, (n.pool side).connections.lookup key = some c →
        ((n.pool side).conns c).reuseable = true → ((n.pool side).conns c).state.isClosed = false := by
  have h : n.Sound := run_invariant_of sound_step sound_start hacts hrun
  exact ⟨h.handed, h.pools⟩

/-- An error and a new accept at the server; a dial, a second task that waits for it, and a third
one that finds the connection in the map. -/
theorem handed_not_closed_small : ∃ acts n, AllSteps step Careful {} acts ∧
    run step {} acts = some n ∧
    n.handed = [⟨0, .invalid⟩, ⟨1, .invalid⟩, ⟨0, .invalid⟩, ⟨0, .invalid⟩] ∧
    ∀ f ∈ n.handed, f.state.isClosed = false := by
  obtain ⟨acts, hacts, hview⟩ : ∃ acts : List PoolAct, AllSteps step Careful {} acts ∧
      (run step {} acts).map (fun n => n.handed)
        = some [⟨0, .invalid⟩, ⟨1, .invalid⟩, ⟨0, .invalid⟩, ⟨0, .invalid⟩] :=
    ⟨[.serverStart, .accept [99], .find 0 [99], .put 0, .error .server 0, .errorClose .server 0,
      .find 1 [99], .closeEnd .server 0, .accept [99], .find 1 [99], .put 1,
      .connect 0 [49], .connect 1 [49], .publish 0, .wake 1, .connect 2 [49], .clientClose 0 0,
      .clientClose 1 0, .clientClose 2 0, .serverStop 0], by decide, by decide⟩
  obtain ⟨n, hrun, hn⟩ := Option.map_eq_some_iff.mp hview
  exact ⟨acts, n, hacts, hrun, hn, (handed_not_closed hacts hrun).1⟩

/-- The peer closes an accepted connection, and the next task is given it. -/
theorem not_handed_open : ∃ acts n, run step {} acts = some n ∧
    n.handed = [⟨0, .closed⟩] ∧ (n.server.conns 0).reuseable = true ∧
      n.server.connections.lookup [99] = some 0 := by
  obtain ⟨acts, hview⟩ : ∃ acts : List PoolAct, (run step {} acts).map
      (fun n => (n.handed, (n.server.conns 0).reuseable, n.server.connections.lookup [99]))
        = some ([⟨0, .closed⟩], true, some 0) :=
    ⟨[.serverStart, .accept [99], .eof .server 0, .closeEnd .server 0, .find 0 [99], .put 0],
      by decide⟩
  obtain ⟨n, hrun, hn⟩ := Option.map_eq_some_iff.mp hview
  obtain ⟨hhanded, hn⟩ := Prod.mk.inj hn
  obtain ⟨hreuse, hkey⟩ := Prod.mk.inj hn
  exact ⟨acts, n, hrun, hhanded, hreuse, hkey⟩

end NodePools

end Rosetta

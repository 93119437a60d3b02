import Rosetta.Channel.Lifetime

/-!
# What a caller can rely on

* `creating_iff` — `g_creating_task` lists the calls in progress and nothing else, as long as no
  call fails
* `owned_iff` — a handle that was returned and not destroyed is a live channel, as long as nobody
  destroys a handle that was returned to somebody else as well
-/

namespace Rosetta

open Lib

namespace Channels

variable {n n' : Channels}

/-! ## The tasks that are being created -/

/-- `g_creating_task` holds exactly the tasks of the calls between their check and their return. -/
def Tracks (n : Channels) : Prop :=
  ∀ task, task ∈ n.creatingTask ↔ ∃ k, (n.creates k).inProgress = some task

/-- A call waits only for another call that is in progress. -/
def GoesOn (n : Channels) : Prop :=
  ∀ k task, n.creates k = .waiting task → (∀ k', (n.creates k').inProgress ≠ some task) →
    ∃ n', n.exec (.check k) = .ok n'

theorem Tracks.goesOn (h : n.Tracks) : n.GoesOn := by
  intro k task hk hnone
  have hfree : task ∉ n.creatingTask := by
    intro hmem
    obtain ⟨k', hk'⟩ := (h task).mp hmem
    exact hnone k' hk'
  simp only [exec, hk, if_neg hfree]
  split
  · exact ⟨_, rfl⟩
  · exact ⟨_, rfl⟩

theorem tracks_start : Tracks {} := by
  intro task
  simp

/-- What a call in progress changes, when it was not in progress before or is not any more. -/
theorem Tracks.setCall (h : n.Tracks) {k : Nat} {c : CreateCall}
    (hc : c.inProgress = (n.creates k).inProgress) (task : Bytes) :
    task ∈ n.creatingTask ↔ ∃ k', ((n.setCall k c).creates k').inProgress = some task := by
  rw [h task]
  refine exists_congr fun k' => ?_
  rw [inProgress_setCall, hc]
  rcases eq_or_ne k' k with rfl | hk
  · simp
  · simp [hk]

theorem Tracks.check (h : n.Tracks) {k : Nat} {task : Bytes} (hk : n.creates k = .waiting task) :
    Tracks { n.setCall k (.creating task) with creatingTask := insert task n.creatingTask } := by
  intro task'
  have hnone : (n.creates k).inProgress = none := by
    rw [hk]
    rfl
  rw [Finset.mem_insert, h task']
  constructor
  · rintro (rfl | ⟨k', hk'⟩)
    · exact ⟨k, inProgress_setCall.mpr (Or.inl ⟨rfl, rfl⟩)⟩
    · refine ⟨k', inProgress_setCall.mpr (Or.inr ⟨?_, hk'⟩)⟩
      rintro rfl
      rw [hnone] at hk'
      cases hk'
  · rintro ⟨k', hk'⟩
    rcases inProgress_setCall.mp hk' with ⟨-, hk'⟩ | ⟨-, hk'⟩
    · exact Or.inl (Option.some.inj hk').symm
    · exact Or.inr ⟨k', hk'⟩

theorem Tracks.publish (h : n.Tracks) (hn : n.Coherent) {k : Nat} {task : Bytes}
    (hk : (n.creates k).inProgress = some task) (m : AList fun _ : Nat => Bytes) (ch : Nat) :
    Tracks { (n.setCall k .idle).hand ch with
      channel2task := m
      creatingTask := n.creatingTask.erase task } := by
  intro task'
  rw [Finset.mem_erase, h task']
  constructor
  · rintro ⟨hne, k', hk'⟩
    refine ⟨k', inProgress_setCall.mpr (Or.inr ⟨?_, hk'⟩)⟩
    rintro rfl
    rw [hk] at hk'
    exact hne (Option.some.inj hk').symm
  · rintro ⟨k', hk'⟩
    rcases inProgress_setCall.mp hk' with ⟨-, hidle⟩ | ⟨hne, hold⟩
    · cases hidle
    · refine ⟨?_, k', hold⟩
      rintro rfl
      exact hne (hn.alone k' k _ hold hk)

theorem tracks_step (n : Channels) (a : ChannelAct) (n' : Channels) (h : n.Coherent ∧ n.Tracks)
    (ha : ∀ k, a ≠ .initFail k) (hs : n.step a = some n') : n'.Coherent ∧ n'.Tracks := by
  refine ⟨coherent_step n a n' h.1 hs, ?_⟩
  obtain ⟨hn, ht⟩ := h
  have hs : n.exec a = .ok n' := Exec.toOption_eq_some.mp hs
  cases a with
  | create k task =>
    obtain ⟨hk, rfl⟩ := create_ok hs
    exact ht.setCall (by rw [hk]; rfl)
  | check k =>
    obtain ⟨task, hk, hfree, ⟨ch, hch, rfl⟩ | ⟨hnone, rfl⟩⟩ := check_ok hs
    · exact ht.setCall (c := .idle) (by rw [hk]; rfl)
    · exact ht.check hk
  | initOk k ch =>
    obtain ⟨task, hk, -, rfl⟩ := initOk_ok hs
    exact ht.setCall (by rw [hk]; rfl)
  | initFail k => exact absurd rfl (ha k)
  | publish k =>
    obtain ⟨task, ch, hk, rfl⟩ := publish_ok hs
    exact ht.publish hn (inProgress_of_ready hk) _ ch
  | destroy ch =>
    obtain ⟨task, hch, rfl⟩ := destroy_ok hs
    exact ht
  | deleted ch =>
    obtain ⟨task, hch, rfl⟩ := deleted_ok hs
    exact ht

/-- The task is in `g_creating_task`, and no call is in progress that would take it out. -/
def Abandoned (n : Channels) (task : Bytes) : Prop :=
  task ∈ n.creatingTask ∧ ∀ k, (n.creates k).inProgress ≠ some task

theorem Abandoned.not_tracks {task : Bytes} (h : n.Abandoned task) : ¬ n.Tracks := by
  intro ht
  obtain ⟨k, hk⟩ := (ht task).mp h.1
  exact h.2 k hk

theorem Abandoned.setCall {task : Bytes} (h : n.Abandoned task) (k : Nat) {c : CreateCall}
    (hc : c.inProgress ≠ some task) : (n.setCall k c).Abandoned task := by
  refine ⟨h.1, fun k' hk' => ?_⟩
  rcases inProgress_setCall.mp hk' with ⟨-, hk'⟩ | ⟨-, hk'⟩
  · exact hc hk'
  · exact h.2 k' hk'

/-- **A task that was abandoned stays so**: every call for it waits for ever. -/
theorem abandoned_step (task : Bytes) (n : Channels) (a : ChannelAct) (n' : Channels)
    (h : n.Abandoned task) (hs : n.step a = some n') : n'.Abandoned task := by
  have hs : n.exec a = .ok n' := Exec.toOption_eq_some.mp hs
  cases a with
  | create k task' =>
    obtain ⟨-, rfl⟩ := create_ok hs
    exact h.setCall k (by simp [CreateCall.inProgress])
  | check k =>
    obtain ⟨task', -, hfree, ⟨ch, -, rfl⟩ | ⟨-, rfl⟩⟩ := check_ok hs
    · exact h.setCall k (c := .idle) (by simp)
    · have hne : task' ≠ task := by
        rintro rfl
        exact hfree h.1
      obtain ⟨-, hnone⟩ := h.setCall k (c := .creating task') fun he => hne (Option.some.inj he)
      exact ⟨Finset.mem_insert_of_mem h.1, hnone⟩
  | initOk k ch =>
    obtain ⟨task', hk, -, rfl⟩ := initOk_ok hs
    refine h.setCall k (c := .ready task' ch) fun he => h.2 k ?_
    rw [hk]
    exact he
  | initFail k =>
    obtain ⟨-, rfl⟩ := initFail_ok hs
    exact h.setCall k (by simp [CreateCall.inProgress])
  | publish k =>
    obtain ⟨task', ch, hk, rfl⟩ := publish_ok hs
    have hne : task ≠ task' := by
      rintro rfl
      exact h.2 k (inProgress_of_ready hk)
    obtain ⟨-, hnone⟩ := h.setCall k (c := .idle) (by simp)
    exact ⟨Finset.mem_erase.mpr ⟨hne, h.1⟩, hnone⟩
  | destroy ch =>
    obtain ⟨task', -, rfl⟩ := destroy_ok hs
    exact h
  | deleted ch =>
    obtain ⟨task', -, rfl⟩ := deleted_ok hs
    exact h

theorem abandoned_of_fail (hn : n.Coherent) {k : Nat} {task : Bytes}
    (hk : n.creates k = .creating task) : (n.setCall k .idle).Abandoned task := by
  have hprog : (n.creates k).inProgress = some task := by
    rw [hk]
    rfl
  refine ⟨hn.listed k task hprog, fun k' hk' => ?_⟩
  rcases inProgress_setCall.mp hk' with ⟨-, hk'⟩ | ⟨hne, hk'⟩
  · cases hk'
  · exact hne (hn.alone k' k task hk' hprog)

/--
**A creation that fails leaves its task behind**: `g_creating_task` lists the calls in progress, and
no call waits for anything else, exactly in the runs in which no `init` has failed.
-/
theorem creating_iff {acts : List ChannelAct} (hrun : run step {} acts = some n) :
    (n.Tracks ∧ n.GoesOn) ↔ ∀ k, .initFail k ∉ acts := by
  constructor
  · rintro ⟨ht, -⟩ k hmem
    obtain ⟨pre, post, rfl⟩ := List.append_of_mem hmem
    obtain ⟨m, hpre, hrest⟩ := run_append_eq_some.mp hrun
    obtain ⟨m', hfail, hpost⟩ := run_cons_eq_some.mp hrest
    obtain ⟨⟨task, hk⟩, rfl⟩ := initFail_ok (Exec.toOption_eq_some.mp hfail)
    have hm := abandoned_of_fail (run_invariant coherent_step coherent_start hpre) hk
    exact (run_invariant (abandoned_step task) hm hpost).not_tracks ht
  · intro hacts
    have hnot : ∀ a ∈ acts, ∀ k, a ≠ ChannelAct.initFail k := by
      rintro a ha k rfl
      exact hacts k ha
    have hall : AllSteps step (fun _ a => ∀ k, a ≠ .initFail k) {} acts := allSteps_of_forall hnot _
    obtain ⟨-, ht⟩ := run_invariant_of tracks_step ⟨coherent_start, tracks_start⟩ hall hrun
    exact ⟨ht, ht.goesOn⟩

/-- Two calls for one task, the second waiting for the first, and both served. -/
theorem creating_iff_small : ∃ acts n, (∀ k, .initFail k ∉ acts) ∧ run step {} acts = some n ∧
    n.creatingTask = ∅ ∧ n.outstanding 8 = 2 ∧ n.Tracks ∧ n.GoesOn := by
  obtain ⟨acts, hacts, hview⟩ : ∃ acts : List ChannelAct, (∀ k, .initFail k ∉ acts) ∧
      (run step {} acts).map (fun n => (n.creatingTask, n.outstanding 8)) = some (∅, 2) :=
    ⟨[.create 0 [116], .check 0, .create 1 [116], .initOk 0 8, .publish 0, .check 1],
      by simp, by decide⟩
  obtain ⟨n, hrun, hn⟩ := Option.map_eq_some_iff.mp hview
  obtain ⟨hcreating, hhandles⟩ := Prod.mk.inj hn
  exact ⟨acts, n, hacts, hrun, hcreating, hhandles, (creating_iff hrun).mpr hacts⟩

/-- The first call fails while the second one waits: nobody is creating the channel any more, and
the second call waits for it. -/
theorem not_creating : ∃ acts n, run step {} acts = some n ∧ n.creates 1 = .waiting [116] ∧
    [116] ∈ n.creatingTask ∧ (∀ k, (n.creates k).inProgress ≠ some [116]) ∧
    n.exec (.check 1) = .error .blocked := by
  obtain ⟨m, hpre, hm⟩ : ∃ m, run step {} [.create 0 [116], .check 0, .create 1 [116]] = some m ∧
      m.creates 0 = .creating [116] ∧ m.creates 1 = .waiting [116] ∧
        (m.setCall 0 .idle).exec (.check 1) = .error .blocked :=
    ⟨_, rfl, rfl, rfl, rfl⟩
  obtain ⟨hcreating, hwaiting, hblocked⟩ := hm
  have hfail : m.step (.initFail 0) = some (m.setCall 0 .idle) := by
    simp only [step, exec, hcreating]
    rfl
  obtain ⟨hmem, hnone⟩ := abandoned_of_fail (run_invariant coherent_step coherent_start hpre)
    hcreating
  refine ⟨[.create 0 [116], .check 0, .create 1 [116], .initFail 0], m.setCall 0 .idle, ?_,
    hwaiting, hmem, hnone, hblocked⟩
  exact run_append_eq_some.mpr ⟨m, hpre, run_cons_eq_some.mpr ⟨_, hfail, rfl⟩⟩

/-! ## The handles -/

/-- In `g_channel2task`, not being deleted, and not yet freed. -/
def Live (n : Channels) (ch : Nat) : Prop :=
  (n.channel2task.lookup ch).isSome = true ∧ n.deleting.lookup ch = none ∧ ch ∈ n.allocated

/-- A handle that has been returned and not destroyed is a live channel, and destroying it finds
it. -/
def Owned (n : Channels) : Prop :=
  ∀ ch, 0 < n.outstanding ch → n.Live ch ∧ ∃ n', n.exec (.destroy ch) = .ok n'

/-- A handle is destroyed at most as often as it was returned. -/
def Balanced (n : Channels) : ChannelAct → Prop
  | .destroy ch => 0 < n.outstanding ch
  | _ => True

/-- A handle is destroyed when nobody else has it. -/
def Sole (n : Channels) : ChannelAct → Prop
  | .destroy ch => n.outstanding ch = 1
  | _ => True

instance (n : Channels) : DecidablePred n.Balanced
  | .destroy ch => inferInstanceAs (Decidable (0 < n.outstanding ch))
  | .create _ _ | .check _ | .initOk _ _ | .initFail _ | .publish _ | .deleted _ => isTrue trivial

instance (n : Channels) : DecidablePred n.Sole
  | .destroy ch => inferInstanceAs (Decidable (n.outstanding ch = 1))
  | .create _ _ | .check _ | .initOk _ _ | .initFail _ | .publish _ | .deleted _ => isTrue trivial

theorem owned_iff_pooled (h : n.Coherent) :
    n.Owned ↔ ∀ ch, 0 < n.outstanding ch → ∃ task, n.channel2task.lookup ch = some task := by
  constructor
  · intro ho ch hch
    exact Option.isSome_iff_exists.mp (ho ch hch).1.1
  · intro hp ch hch
    obtain ⟨task, htask⟩ := hp ch hch
    obtain ⟨halloc, hdying⟩ := h.pooled ch task htask
    refine ⟨⟨by rw [htask]; rfl, hdying, halloc⟩, ?_⟩
    simp only [exec, htask]
    exact ⟨_, rfl⟩

theorem owned_start : Owned {} := by
  intro ch hch
  cases hch

theorem owned_step (n : Channels) (a : ChannelAct) (n' : Channels) (h : n.Coherent)
    (hb : n.Balanced a) (ho : n.Owned) (hs : n.step a = some n') : n'.Owned ↔ n.Sole a := by
  rw [owned_iff_pooled (coherent_step n a n' h hs)]
  rw [owned_iff_pooled h] at ho
  have hs : n.exec a = .ok n' := Exec.toOption_eq_some.mp hs
  cases a with
  | create k task =>
    obtain ⟨-, rfl⟩ := create_ok hs
    exact iff_of_true ho trivial
  | check k =>
    obtain ⟨task, -, -, ⟨ch, hch, rfl⟩ | ⟨-, rfl⟩⟩ := check_ok hs
    · refine iff_of_true (fun ch' hpos => ?_) trivial
      rcases eq_or_ne ch' ch with rfl | hne
      · exact ⟨task, channelOf_eq_some hch⟩
      · simp only [hand, Function.update_of_ne hne] at hpos
        exact ho ch' hpos
    · exact iff_of_true ho trivial
  | initOk k ch =>
    obtain ⟨task, -, -, rfl⟩ := initOk_ok hs
    exact iff_of_true ho trivial
  | initFail k =>
    obtain ⟨-, rfl⟩ := initFail_ok hs
    exact iff_of_true ho trivial
  | publish k =>
    obtain ⟨task, ch, hk, rfl⟩ := publish_ok hs
    rw [(h.made k task ch hk).2.1]
    refine iff_of_true (fun ch' hpos => ?_) trivial
    rcases eq_or_ne ch' ch with rfl | hne
    · exact ⟨task, lookup_insert_eq_some.mpr (Or.inl ⟨rfl, rfl⟩)⟩
    · simp only [hand, Function.update_of_ne hne] at hpos
      obtain ⟨task', htask'⟩ := ho ch' hpos
      exact ⟨task', lookup_insert_eq_some.mpr (Or.inr ⟨hne, htask'⟩)⟩
  | destroy ch =>
    obtain ⟨task, hch, rfl⟩ := destroy_ok hs
    have hpos : 0 < n.outstanding ch := hb
    constructor
    · -- a handle that is left over is not in the map any more
      intro hp
      by_contra hsole
      have hsole : n.outstanding ch ≠ 1 := hsole
      obtain ⟨task', htask'⟩ := hp ch (by simp only [Function.update_self]; omega)
      exact (lookup_erase_eq_some.mp htask').1 rfl
    · intro hsole ch' hpos'
      have hsole : n.outstanding ch = 1 := hsole
      rcases eq_or_ne ch' ch with rfl | hne
      · simp only [Function.update_self] at hpos'
        omega
      · simp only [Function.update_of_ne hne] at hpos'
        obtain ⟨task', htask'⟩ := ho ch' hpos'
        exact ⟨task', lookup_erase_eq_some.mpr ⟨hne, htask'⟩⟩
  | deleted ch =>
    obtain ⟨task, -, rfl⟩ := deleted_ok hs
    exact iff_of_true ho trivial

/--
**Handles that are not shared are safe**: in a run in which no handle is destroyed more often than it
was returned, every handle that is left is a live channel, in every state, exactly when each handle
was destroyed while nobody else had it.
-/
theorem owned_iff {acts : List ChannelAct} (hbalanced : AllSteps step Balanced {} acts)
    (hrun : run step {} acts = some n) :
    (∀ pre post m, acts = pre ++ post → run step {} pre = some m → m.Owned) ↔
      AllSteps step Sole {} acts :=
  (allSteps_iff_states coherent_step owned_step coherent_start owned_start hbalanced hrun).symm

/-- Two tasks, one of them destroyed and created again. -/
theorem owned_iff_small : ∃ acts n, AllSteps step Balanced {} acts ∧ AllSteps step Sole {} acts ∧
    run step {} acts = some n ∧ n.outstanding 8 = 1 ∧ n.outstanding 9 = 1 ∧
    ∀ pre post m, acts = pre ++ post → run step {} pre = some m → m.Owned := by
  obtain ⟨acts, hbalanced, hsole, hview⟩ : ∃ acts : List ChannelAct,
      AllSteps step Balanced {} acts ∧ AllSteps step Sole {} acts ∧
        (run step {} acts).map (fun n => (n.outstanding 8, n.outstanding 9)) = some (1, 1) :=
    ⟨[.create 0 [116], .create 1 [117], .check 0, .check 1, .initOk 1 9, .initOk 0 8, .publish 0,
      .publish 1, .destroy 8, .deleted 8, .create 0 [116], .check 0, .initOk 0 8, .publish 0],
      by decide, by decide, by decide⟩
  obtain ⟨n, hrun, hn⟩ := Option.map_eq_some_iff.mp hview
  obtain ⟨h8, h9⟩ := Prod.mk.inj hn
  exact ⟨acts, n, hbalanced, hsole, hrun, h8, h9, (owned_iff hbalanced hrun).mpr hsole⟩

/-- Two calls return the same handle. When it has been destroyed once, the other owner has a handle
that is not in the map, and destroying it reads behind the map. -/
theorem not_owned : ∃ acts n, AllSteps step Balanced {} acts ∧ run step {} acts = some n ∧
    n.outstanding 8 = 1 ∧ ¬ n.Live 8 ∧ n.exec (.destroy 8) = .error .outOfBounds := by
  obtain ⟨acts, hbalanced, hview⟩ : ∃ acts : List ChannelAct,
      AllSteps step Balanced {} acts ∧ (run step {} acts).map
        (fun n => (n.outstanding 8, n.channel2task.lookup 8)) = some (1, none) :=
    ⟨[.create 0 [116], .check 0, .initOk 0 8, .publish 0, .create 1 [116], .check 1, .destroy 8],
      by decide, by decide⟩
  obtain ⟨n, hrun, hn⟩ := Option.map_eq_some_iff.mp hview
  obtain ⟨hone, hnone⟩ := Prod.mk.inj hn
  refine ⟨acts, n, hbalanced, hrun, hone, fun hlive => ?_, ?_⟩
  · rw [Live, hnone] at hlive
    cases hlive.1
  · simp only [exec, hnone]

end Channels

end Rosetta

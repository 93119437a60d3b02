import Mathlib.Data.Set.Subsingleton
import Rosetta.Channel.Create
import Rosetta.Lib.Assoc

/-!
# One channel for a task

`Coherent` is what holds of the two globals and the channel objects in every state. With it,
`one_live_iff` says when a task has at most one channel: as long as no call makes one while the last
one is still being deleted.
-/

namespace Rosetta

open Lib

namespace Channels

variable {n n' : Channels}

/-! ## What a step does -/

theorem create_ok {k : Nat} {task : Bytes} (h : n.exec (.create k task) = .ok n') :
    n.creates k = .idle ∧ n' = n.setCall k (.waiting task) := by
  simp only [exec] at h
  split at h
  · next hk => exact ⟨hk, (Except.ok.inj h).symm⟩
  · cases h

theorem check_ok {k : Nat} (h : n.exec (.check k) = .ok n') :
    ∃ task, n.creates k = .waiting task ∧ task ∉ n.creatingTask ∧
      ((∃ ch, n.channelOf task = some ch ∧ n' = (n.setCall k .idle).hand ch) ∨
        (n.channelOf task = none ∧ n' = { n.setCall k (.creating task) with
          creatingTask := insert task n.creatingTask })) := by
  simp only [exec] at h
  split at h
  · next task hk =>
    split at h
    · cases h
    · next hfree =>
      refine ⟨task, hk, hfree, ?_⟩
      split at h
      · next ch hch => exact Or.inl ⟨ch, hch, (Except.ok.inj h).symm⟩
      · next hnone => exact Or.inr ⟨hnone, (Except.ok.inj h).symm⟩
  · cases h

theorem initOk_ok {k ch : Nat} (h : n.exec (.initOk k ch) = .ok n') :
    ∃ task, n.creates k = .creating task ∧ ch ∉ n.allocated ∧
      n' = { n.setCall k (.ready task ch) with allocated := insert ch n.allocated } := by
  simp only [exec] at h
  split at h
  · next task hk =>
    split at h
    · cases h
    · next hfresh => exact ⟨task, hk, hfresh, (Except.ok.inj h).symm⟩
  · cases h

theorem initFail_ok {k : Nat} (h : n.exec (.initFail k) = .ok n') :
    (∃ task, n.creates k = .creating task) ∧ n' = n.setCall k .idle := by
  simp only [exec] at h
  split at h
  · next task hk => exact ⟨⟨task, hk⟩, (Except.ok.inj h).symm⟩
  · cases h

theorem publish_ok {k : Nat} (h : n.exec (.publish k) = .ok n') :
    ∃ task ch, n.creates k = .ready task ch ∧ n' = { (n.setCall k .idle).hand ch with
      channel2task :=
        if (n.channel2task.lookup ch).isSome then n.channel2task
        else n.channel2task.insert ch task
      creatingTask := n.creatingTask.erase task } := by
  simp only [exec] at h
  split at h
  · next task ch hk => exact ⟨task, ch, hk, (Except.ok.inj h).symm⟩
  · cases h

theorem destroy_ok {ch : Nat} (h : n.exec (.destroy ch) = .ok n') :
    ∃ task, n.channel2task.lookup ch = some task ∧ n' = { n with
      channel2task := n.channel2task.erase ch
      deleting := n.deleting.insert ch task
      outstanding := Function.update n.outstanding ch (n.outstanding ch - 1) } := by
  simp only [exec] at h
  split at h
  · next task hk => exact ⟨task, hk, (Except.ok.inj h).symm⟩
  · cases h

theorem deleted_ok {ch : Nat} (h : n.exec (.deleted ch) = .ok n') :
    ∃ task, n.deleting.lookup ch = some task ∧ n' = { n with
      deleting := n.deleting.erase ch
      allocated := n.allocated.erase ch } := by
  simp only [exec] at h
  split at h
  · next task hk => exact ⟨task, hk, (Except.ok.inj h).symm⟩
  · cases h

theorem channelOf_eq_some {task : Bytes} {ch : Nat} (h : n.channelOf task = some ch) :
    n.channel2task.lookup ch = some task := by
  have hmem := List.min?_mem h
  obtain ⟨⟨ch', task'⟩, he, rfl⟩ := List.mem_map.mp hmem
  obtain ⟨hentry, htask⟩ := List.mem_filter.mp he
  rw [← of_decide_eq_true htask]
  exact AList.mem_lookup_iff.mpr hentry

theorem lookup_ne_of_channelOf {task : Bytes} (h : n.channelOf task = none) (ch : Nat) :
    n.channel2task.lookup ch ≠ some task := by
  intro hch
  rw [channelOf, List.min?_eq_none_iff, List.map_eq_nil_iff, List.filter_eq_nil_iff] at h
  exact h ⟨ch, task⟩ (AList.mem_lookup_iff.mp hch) (decide_eq_true rfl)

/-! ## The pool -/

/-- What holds in every state. -/
structure Coherent (n : Channels) : Prop where
  pooled : ∀ ch task, n.channel2task.lookup ch = some task →
    ch ∈ n.allocated ∧ n.deleting.lookup ch = none
  dying : ∀ ch task, n.deleting.lookup ch = some task → ch ∈ n.allocated
  made : ∀ k task ch, n.creates k = .ready task ch →
    ch ∈ n.allocated ∧ n.channel2task.lookup ch = none ∧ n.deleting.lookup ch = none
  listed : ∀ k task, (n.creates k).inProgress = some task → task ∈ n.creatingTask
  alone : ∀ k k' task, (n.creates k).inProgress = some task →
    (n.creates k').inProgress = some task → k = k'
  distinct : ∀ k k' task task' ch, n.creates k = .ready task ch → n.creates k' = .ready task' ch →
    k = k'
  free : ∀ k ch task, (n.creates k).inProgress = some task → n.channel2task.lookup ch ≠ some task
  unique : ∀ ch ch' task, n.channel2task.lookup ch = some task →
    n.channel2task.lookup ch' = some task → ch = ch'

theorem coherent_start : Coherent {} := by
  constructor <;> simp [CreateCall.inProgress]

theorem inProgress_setCall {k k' : Nat} {c : CreateCall} {task : Bytes} :
    ((n.setCall k c).creates k').inProgress = some task ↔
      (k' = k ∧ c.inProgress = some task) ∨ (k' ≠ k ∧ (n.creates k').inProgress = some task) := by
  rcases eq_or_ne k' k with rfl | hk
  · simp [setCall]
  · simp [setCall, hk]

theorem ready_setCall {k k' : Nat} {c : CreateCall} {task : Bytes} {ch : Nat} :
    (n.setCall k c).creates k' = .ready task ch ↔
      (k' = k ∧ c = .ready task ch) ∨ (k' ≠ k ∧ n.creates k' = .ready task ch) := by
  rcases eq_or_ne k' k with rfl | hk
  · simp [setCall]
  · simp [setCall, hk]

theorem inProgress_of_ready {k : Nat} {task : Bytes} {ch : Nat} (h : n.creates k = .ready task ch) :
    (n.creates k).inProgress = some task := by
  rw [h]
  rfl

/-- A call that is not in progress any more, or not yet. -/
theorem Coherent.setCall (h : n.Coherent) (k : Nat) {c : CreateCall} (hc : c.inProgress = none) :
    (n.setCall k c).Coherent := by
  have hready : ∀ task ch, c ≠ .ready task ch := by
    rintro task ch rfl
    cases hc
  obtain ⟨h1, h2, h3, h4, h5, h6, h7, h8⟩ := h
  refine ⟨h1, h2, ?_, ?_, ?_, ?_, ?_, h8⟩
  all_goals
    simp only [inProgress_setCall, ready_setCall, hc, hready]
    grind

theorem Coherent.check (h : n.Coherent) {k : Nat} {task : Bytes} (hfree : task ∉ n.creatingTask)
    (hnone : n.channelOf task = none) :
    Coherent { n.setCall k (.creating task) with creatingTask := insert task n.creatingTask } := by
  have hpool := lookup_ne_of_channelOf hnone
  obtain ⟨h1, h2, h3, h4, h5, h6, h7, h8⟩ := h
  refine ⟨h1, h2, ?_, ?_, ?_, ?_, ?_, h8⟩
  all_goals
    simp only [inProgress_setCall, ready_setCall, CreateCall.inProgress_creating]
    grind

theorem Coherent.lookup_fresh (h : n.Coherent) {ch : Nat} (hfresh : ch ∉ n.allocated) :
    n.channel2task.lookup ch = none ∧ n.deleting.lookup ch = none := by
  constructor
  · exact Option.eq_none_iff_forall_ne_some.mpr fun t ht => hfresh (h.pooled ch t ht).1
  · exact Option.eq_none_iff_forall_ne_some.mpr fun t ht => hfresh (h.dying ch t ht)

theorem Coherent.initOk (h : n.Coherent) {k ch : Nat} {task : Bytes}
    (hk : n.creates k = .creating task) (hfresh : ch ∉ n.allocated) :
    Coherent { n.setCall k (.ready task ch) with allocated := insert ch n.allocated } := by
  have hprog : (n.creates k).inProgress = some task := by
    rw [hk]
    rfl
  obtain ⟨hpool, hdying⟩ := h.lookup_fresh hfresh
  obtain ⟨h1, h2, h3, h4, h5, h6, h7, h8⟩ := h
  refine ⟨?_, ?_, ?_, ?_, ?_, ?_, ?_, h8⟩
  all_goals
    simp only [inProgress_setCall, ready_setCall, CreateCall.inProgress_ready]
    grind

theorem Coherent.publish (h : n.Coherent) {k ch : Nat} {task : Bytes}
    (hk : n.creates k = .ready task ch) :
    Coherent { (n.setCall k .idle).hand ch with
      channel2task := n.channel2task.insert ch task
      creatingTask := n.creatingTask.erase task } := by
  have hprog := inProgress_of_ready hk
  obtain ⟨h1, h2, h3, h4, h5, h6, h7, h8⟩ := h
  refine ⟨?_, h2, ?_, ?_, ?_, ?_, ?_, ?_⟩
  all_goals
    simp only [creates_hand, inProgress_setCall, ready_setCall, CreateCall.inProgress_idle,
      lookup_insert_eq_some, lookup_insert_eq_none, Finset.mem_erase, ne_eq]
    grind

theorem Coherent.destroy (h : n.Coherent) {ch : Nat} {task : Bytes}
    (hch : n.channel2task.lookup ch = some task) (f : Nat → Nat) :
    Coherent { n with
      channel2task := n.channel2task.erase ch
      deleting := n.deleting.insert ch task
      outstanding := f } := by
  obtain ⟨h1, h2, h3, h4, h5, h6, h7, h8⟩ := h
  refine ⟨?_, ?_, ?_, h4, h5, h6, ?_, ?_⟩
  all_goals
    simp only [lookup_insert_eq_some, lookup_insert_eq_none, lookup_erase_eq_some,
      lookup_erase_eq_none, ne_eq]
    grind

theorem Coherent.deleted (h : n.Coherent) {ch : Nat} {task : Bytes}
    (hch : n.deleting.lookup ch = some task) :
    Coherent { n with
      deleting := n.deleting.erase ch
      allocated := n.allocated.erase ch } := by
  obtain ⟨h1, h2, h3, h4, h5, h6, h7, h8⟩ := h
  refine ⟨?_, ?_, ?_, h4, h5, h6, h7, h8⟩
  all_goals
    simp only [lookup_erase_eq_some, lookup_erase_eq_none, Finset.mem_erase]
    grind

theorem coherent_step (n : Channels) (a : ChannelAct) (n' : Channels) (h : n.Coherent)
    (hs : n.step a = some n') : n'.Coherent := by
  have hs : n.exec a = .ok n' := Exec.toOption_eq_some.mp hs
  cases a with
  | create k task =>
    obtain ⟨-, rfl⟩ := create_ok hs
    exact h.setCall k rfl
  | check k =>
    obtain ⟨task, -, hfree, ⟨ch, -, rfl⟩ | ⟨hnone, rfl⟩⟩ := check_ok hs
    · have hidle := h.setCall k CreateCall.inProgress_idle
      exact ⟨hidle.1, hidle.2, hidle.3, hidle.4, hidle.5, hidle.6, hidle.7, hidle.8⟩
    · exact h.check hfree hnone
  | initOk k ch =>
    obtain ⟨task, hk, hfresh, rfl⟩ := initOk_ok hs
    exact h.initOk hk hfresh
  | initFail k =>
    obtain ⟨-, rfl⟩ := initFail_ok hs
    exact h.setCall k rfl
  | publish k =>
    obtain ⟨task, ch, hk, rfl⟩ := publish_ok hs
    rw [(h.made k task ch hk).2.1]
    exact h.publish hk
  | destroy ch =>
    obtain ⟨task, hch, rfl⟩ := destroy_ok hs
    exact h.destroy hch _
  | deleted ch =>
    obtain ⟨task, hch, rfl⟩ := deleted_ok hs
    exact h.deleted hch

/-! ## One channel for a task -/

/-- What is on the way to be a channel of a task, is one, or is still being deleted. -/
inductive Holder where
  | call (k : Nat)
  | channel (ch : Nat)

def Holds (n : Channels) (task : Bytes) : Holder → Prop
  | .call k => (n.creates k).inProgress = some task
  | .channel ch => n.channel2task.lookup ch = some task ∨ n.deleting.lookup ch = some task

/-- At most one channel of each task is being made, exists, or is being deleted. -/
def OneLive (n : Channels) : Prop := ∀ task, {h | n.Holds task h}.Subsingleton

/-- What calls `Connection::start` or `stop` for the task: `init`, and the deletion. -/
def Works (n : Channels) (task : Bytes) : Holder → Prop
  | .call k => n.creates k = .creating task
  | .channel ch => n.deleting.lookup ch = some task

theorem OneLive.works (h : n.OneLive) (task : Bytes) : {x | n.Works task x}.Subsingleton := by
  refine (h task).anti ?_
  rintro (k | ch) hx
  · show (n.creates k).inProgress = some task
    rw [show n.creates k = .creating task from hx]
    rfl
  · exact Or.inr hx

/-- A call that goes on to make a channel does not do so while one of its task is being deleted. -/
def Clear (n : Channels) : ChannelAct → Prop
  | .check k =>
    match n.creates k with
    | .waiting task => n.channelOf task = none → ∀ e ∈ n.deleting.entries, e.2 ≠ task
    | _ => True
  | _ => True

instance (n : Channels) : DecidablePred n.Clear
  | .check k =>
    match h : n.creates k with
    | .waiting task => decidable_of_iff
        (n.channelOf task = none → ∀ e ∈ n.deleting.entries, e.2 ≠ task) (by rw [Clear, h])
    | .idle => isTrue (by rw [Clear, h]; trivial)
    | .creating _ => isTrue (by rw [Clear, h]; trivial)
    | .ready _ _ => isTrue (by rw [Clear, h]; trivial)
  | .create _ _ | .initOk _ _ | .initFail _ | .publish _ | .destroy _ | .deleted _ => isTrue trivial

theorem OneLive.anti (h : n.OneLive) (hsub : ∀ task x, n'.Holds task x → n.Holds task x) :
    n'.OneLive := fun task => (h task).anti (hsub task)

theorem oneLive_start : OneLive {} := by
  intro task x hx
  cases x with
  | call k => cases hx
  | channel ch =>
    rcases hx with hx | hx
    · cases hx
    · cases hx

theorem OneLive.setCall (h : n.OneLive) (k : Nat) {c : CreateCall} (hc : c.inProgress = none) :
    (n.setCall k c).OneLive := by
  refine h.anti ?_
  rintro task (k' | ch) hx
  · rcases inProgress_setCall.mp hx with ⟨-, hx⟩ | ⟨-, hx⟩
    · rw [hc] at hx
      cases hx
    · exact hx
  · exact hx

/-- Making a channel adds the call, and nothing else, to what the task has. -/
theorem oneLive_check_iff (hn : n.Coherent) (h : n.OneLive) {k : Nat} {task : Bytes}
    (hfree : task ∉ n.creatingTask) (hnone : n.channelOf task = none) :
    OneLive { n.setCall k (.creating task) with creatingTask := insert task n.creatingTask } ↔
      ∀ e ∈ n.deleting.entries, e.2 ≠ task := by
  have hcall : ∀ k', (n.creates k').inProgress ≠ some task :=
    fun k' hk' => hfree (hn.listed k' task hk')
  have hself : Holds { n.setCall k (.creating task) with
      creatingTask := insert task n.creatingTask } task (.call k) :=
    inProgress_setCall.mpr (Or.inl ⟨rfl, rfl⟩)
  constructor
  · rintro hlive ⟨ch, task'⟩ he htask
    obtain rfl : task' = task := htask
    have hch : Holds { n.setCall k (.creating task') with
        creatingTask := insert task' n.creatingTask } task' (.channel ch) :=
      Or.inr (AList.mem_lookup_iff.mpr he)
    have heq : Holder.call k = .channel ch := hlive task' hself hch
    cases heq
  · intro hclear task'
    rcases eq_or_ne task' task with rfl | htask
    · have honly : ∀ x, Holds { n.setCall k (.creating task') with
          creatingTask := insert task' n.creatingTask } task' x → x = .call k := by
        rintro (k' | ch) hx
        · rcases inProgress_setCall.mp hx with ⟨rfl, -⟩ | ⟨-, hx⟩
          · rfl
          · exact absurd hx (hcall k')
        · rcases hx with hx | hx
          · exact absurd hx (lookup_ne_of_channelOf hnone ch)
          · exact absurd rfl (hclear ⟨ch, task'⟩ (AList.mem_lookup_iff.mp hx))
      intro x hx y hy
      rw [honly x hx, honly y hy]
    · refine (h task').anti ?_
      rintro (k' | ch) hx
      · rcases inProgress_setCall.mp hx with ⟨-, hx⟩ | ⟨-, hx⟩
        · exact absurd (Option.some.inj hx).symm htask
        · exact hx
      · exact hx

theorem OneLive.initOk (h : n.OneLive) {k : Nat} {task : Bytes} (ch : Nat)
    (hk : n.creates k = .creating task) :
    OneLive { n.setCall k (.ready task ch) with allocated := insert ch n.allocated } := by
  refine h.anti ?_
  rintro task' (k' | ch') hx
  · rcases inProgress_setCall.mp hx with ⟨rfl, htask⟩ | ⟨-, hold⟩
    · rw [Holds, hk]
      exact htask
    · exact hold
  · exact hx

/-- The channel takes the place of the call. -/
theorem OneLive.publish (h : n.OneLive) {k ch : Nat} {task : Bytes}
    (hk : n.creates k = .ready task ch) :
    OneLive { (n.setCall k .idle).hand ch with
      channel2task := n.channel2task.insert ch task
      creatingTask := n.creatingTask.erase task } := by
  intro task'
  have hold : ∀ x, Holds { (n.setCall k .idle).hand ch with
      channel2task := n.channel2task.insert ch task
      creatingTask := n.creatingTask.erase task } task' x →
      (x = .channel ch ∧ n.Holds task' (.call k)) ∨ (x ≠ .call k ∧ n.Holds task' x) := by
    rintro (k' | ch') hx
    · rcases inProgress_setCall.mp hx with ⟨-, hx⟩ | ⟨hne, hx⟩
      · cases hx
      · exact Or.inr ⟨fun he => hne (Holder.call.inj he), hx⟩
    · rcases hx with hx | hx
      · rcases lookup_insert_eq_some.mp hx with ⟨rfl, rfl⟩ | ⟨-, hx⟩
        · exact Or.inl ⟨rfl, inProgress_of_ready hk⟩
        · exact Or.inr ⟨Holder.noConfusion, Or.inl hx⟩
      · exact Or.inr ⟨Holder.noConfusion, Or.inr hx⟩
  intro x hx y hy
  rcases hold x hx with ⟨rfl, hxk⟩ | ⟨hxk, hx⟩
  · rcases hold y hy with ⟨rfl, -⟩ | ⟨hyk, hy⟩
    · rfl
    · exact absurd (h task' hy hxk) hyk
  · rcases hold y hy with ⟨rfl, hyk⟩ | ⟨-, hy⟩
    · exact absurd (h task' hx hyk) hxk
    · exact h task' hx hy

theorem OneLive.destroy (h : n.OneLive) {ch : Nat} {task : Bytes}
    (hch : n.channel2task.lookup ch = some task) (f : Nat → Nat) :
    OneLive { n with
      channel2task := n.channel2task.erase ch
      deleting := n.deleting.insert ch task
      outstanding := f } := by
  refine h.anti ?_
  rintro task' (k | ch') hx
  · exact hx
  · rcases hx with hx | hx
    · exact Or.inl (lookup_erase_eq_some.mp hx).2
    · rcases lookup_insert_eq_some.mp hx with ⟨rfl, rfl⟩ | ⟨-, hx⟩
      · exact Or.inl hch
      · exact Or.inr hx

theorem OneLive.deleted (h : n.OneLive) (ch : Nat) :
    OneLive { n with
      deleting := n.deleting.erase ch
      allocated := n.allocated.erase ch } := by
  refine h.anti ?_
  rintro task' (k | ch') hx
  · exact hx
  · exact hx.imp id fun hx => (lookup_erase_eq_some.mp hx).2

theorem oneLive_step (n : Channels) (a : ChannelAct) (n' : Channels) (hn : n.Coherent) (_ : True)
    (h : n.OneLive) (hs : n.step a = some n') : n'.OneLive ↔ n.Clear a := by
  have hs : n.exec a = .ok n' := Exec.toOption_eq_some.mp hs
  cases a with
  | create k task =>
    obtain ⟨-, rfl⟩ := create_ok hs
    exact iff_of_true (h.setCall k rfl) trivial
  | check k =>
    obtain ⟨task, hk, hfree, ⟨ch, hch, rfl⟩ | ⟨hnone, rfl⟩⟩ := check_ok hs
    · refine iff_of_true (h.setCall k CreateCall.inProgress_idle) ?_
      rw [Clear, hk]
      intro hnone
      rw [hch] at hnone
      cases hnone
    · rw [oneLive_check_iff hn h hfree hnone, Clear, hk]
      exact ⟨fun he _ => he, fun he => he hnone⟩
  | initOk k ch =>
    obtain ⟨task, hk, -, rfl⟩ := initOk_ok hs
    exact iff_of_true (h.initOk ch hk) trivial
  | initFail k =>
    obtain ⟨-, rfl⟩ := initFail_ok hs
    exact iff_of_true (h.setCall k rfl) trivial
  | publish k =>
    obtain ⟨task, ch, hk, rfl⟩ := publish_ok hs
    rw [(hn.made k task ch hk).2.1]
    exact iff_of_true (h.publish hk) trivial
  | destroy ch =>
    obtain ⟨task, hch, rfl⟩ := destroy_ok hs
    exact iff_of_true (h.destroy hch _) trivial
  | deleted ch =>
    obtain ⟨-, -, rfl⟩ := deleted_ok hs
    exact iff_of_true (h.deleted ch) trivial

/--
**One live channel for each task**: a run stays in states with at most one channel of each task
exactly when no call goes on to make one while the last one is still being deleted.
-/
theorem one_live_iff {acts : List ChannelAct} (hrun : run step {} acts = some n) :
    (∀ pre post m, acts = pre ++ post → run step {} pre = some m → m.OneLive) ↔
      AllSteps step Clear {} acts :=
  (allSteps_iff_states (B := fun _ _ => True) coherent_step oneLive_step coherent_start
    oneLive_start (allSteps_of_forall (Q := fun _ => True) (fun _ _ => trivial) _) hrun).symm

/-- Two tasks; the second call for one of them waits, and then finds the channel. When it has been
deleted, its address is used again. -/
theorem one_live_iff_small : ∃ acts n, AllSteps step Clear {} acts ∧ run step {} acts = some n ∧
    n.channelOf [116] = some 8 ∧
    ∀ pre post m, acts = pre ++ post → run step {} pre = some m → m.OneLive := by
  obtain ⟨acts, hclear, hview⟩ : ∃ acts : List ChannelAct, AllSteps step Clear {} acts ∧
      (run step {} acts).map (fun n => n.channelOf [116]) = some (some 8) :=
    ⟨[.create 0 [116], .create 1 [116], .create 2 [117], .check 0, .check 2, .initOk 0 8,
      .initOk 2 9, .publish 0, .check 1, .publish 2, .destroy 8, .deleted 8, .create 0 [116],
      .check 0, .initOk 0 8, .publish 0], by decide, by decide⟩
  obtain ⟨n, hrun, hn⟩ := Option.map_eq_some_iff.mp hview
  exact ⟨acts, n, hclear, hrun, hn, (one_live_iff hrun).mpr hclear⟩

/-- `DestroyInternalChannel` has taken the channel out of the map, and while it deletes it another
thread creates a channel of the task. -/
theorem not_one_live : ∃ acts n, run step {} acts = some n ∧ n.Holds [116] (.call 1) ∧
    n.Holds [116] (.channel 8) ∧ ¬ n.OneLive := by
  obtain ⟨acts, hview⟩ : ∃ acts : List ChannelAct, (run step {} acts).map
      (fun n => (n.creates 1, n.deleting.lookup 8)) = some (.creating [116], some [116]) :=
    ⟨[.create 0 [116], .check 0, .initOk 0 8, .publish 0, .destroy 8, .create 1 [116], .check 1],
      by decide⟩
  obtain ⟨n, hrun, hn⟩ := Option.map_eq_some_iff.mp hview
  obtain ⟨hcreating, hdeleting⟩ := Prod.mk.inj hn
  have hcall : n.Holds [116] (.call 1) := by
    rw [Holds, hcreating]
    rfl
  have hch : n.Holds [116] (.channel 8) := Or.inr hdeleting
  refine ⟨acts, n, hrun, hcall, hch, fun hlive => ?_⟩
  have heq : Holder.call 1 = .channel 8 := hlive [116] hcall hch
  cases heq

end Channels

end Rosetta

import Mathlib.Data.List.Basic

/-!
# Runs of a step function

A system is a step function that says, for a state and an action, what the next state is, or
`none` when the action is not enabled. A run executes a list of actions.

* `run` — the state a list of actions leads to
* `AllSteps` — every step of the run meets a condition
* `run_invariant`, `run_invariant_of` — what each step preserves holds in every state reached
* `allSteps_iff_states` — what each step decides, a condition on all steps decides
* `run_simulation_of` — a system whose steps are matched by another one, run by run
* `run_simulation_list` — the same, when a step is matched by any number of steps
* `run_length_le` — a run is not longer than what its steps use up
-/

namespace Rosetta.Lib

variable {σ α : Type*} {step : σ → α → Option σ}

/-- The state reached from `s` by a list of actions. -/
def run (step : σ → α → Option σ) (s : σ) (acts : List α) : Option σ := acts.foldlM step s

theorem run_cons (s : σ) (a : α) (acts : List α) :
    run step s (a :: acts) = (step s a).bind fun t => run step t acts := rfl

theorem run_cons_eq_some {s u : σ} {a : α} {acts : List α} :
    run step s (a :: acts) = some u ↔ ∃ t, step s a = some t ∧ run step t acts = some u := by
  rw [run_cons, Option.bind_eq_some_iff]

theorem run_append (s : σ) (acts acts' : List α) :
    run step s (acts ++ acts') = (run step s acts).bind fun t => run step t acts' := by
  rw [run, List.foldlM_append]
  rfl

theorem run_append_eq_some {s u : σ} {acts acts' : List α} :
    run step s (acts ++ acts') = some u ↔
      ∃ t, run step s acts = some t ∧ run step t acts' = some u := by
  rw [run_append, Option.bind_eq_some_iff]

/-- Every step of the run from `s` meets `P`, which sees the state before the step. -/
def AllSteps (step : σ → α → Option σ) (P : σ → α → Prop) : σ → List α → Prop
  | _, [] => True
  | s, a :: acts =>
    P s a ∧ match step s a with
      | some t => AllSteps step P t acts
      | none => True

instance AllSteps.decidable {P : σ → α → Prop} [∀ s a, Decidable (P s a)] :
    ∀ s acts, Decidable (AllSteps step P s acts)
  | _, [] => isTrue trivial
  | s, a :: acts =>
    have : Decidable (match step s a with
        | some t => AllSteps step P t acts
        | none => True) :=
      match step s a with
      | some t => AllSteps.decidable t acts
      | none => isTrue trivial
    inferInstanceAs (Decidable (P s a ∧ _))

theorem AllSteps.cons {P : σ → α → Prop} {s t : σ} {a : α} {acts : List α}
    (h : AllSteps step P s (a :: acts)) (ht : step s a = some t) :
    P s a ∧ AllSteps step P t acts := by
  simpa only [AllSteps, ht] using h

/-- A condition on the actions alone holds at every step of the run. -/
theorem allSteps_of_forall {Q : α → Prop} {acts : List α} (h : ∀ a ∈ acts, Q a) (s : σ) :
    AllSteps step (fun _ a => Q a) s acts := by
  induction acts generalizing s with
  | nil => trivial
  | cons a rest ih =>
    refine ⟨h a List.mem_cons_self, ?_⟩
    split
    · next t _ => exact ih (fun b hb => h b (List.mem_cons_of_mem _ hb)) t
    · trivial

/-- **The invariant rule for runs with a condition on the steps.** -/
theorem run_invariant_of {P : σ → α → Prop} {I : σ → Prop}
    (hstep : ∀ s a t, I s → P s a → step s a = some t → I t) :
    ∀ {acts : List α} {s u : σ}, I s → AllSteps step P s acts → run step s acts = some u → I u := by
  intro acts
  induction acts with
  | nil =>
    intro s u hs _ hu
    cases hu
    exact hs
  | cons a rest ih =>
    intro s u hs hP hu
    obtain ⟨t, ht, hu⟩ := run_cons_eq_some.mp hu
    obtain ⟨hPa, hPt⟩ := hP.cons ht
    exact ih (hstep s a t hs hPa ht) hPt hu

/-- **The invariant rule.** What holds at first and is kept by each step holds after a run. -/
theorem run_invariant {I : σ → Prop} (hstep : ∀ s a t, I s → step s a = some t → I t)
    {acts : List α} {s u : σ} (hs : I s) (hu : run step s acts = some u) : I u :=
  run_invariant_of (P := fun _ _ => True) (fun s a t hs _ ht => hstep s a t hs ht) hs
    (allSteps_of_forall (Q := fun _ => True) (fun _ _ => trivial) s) hu

/-- **The simulation rule.** If every step is matched by a step of a second system for the same
action, so is every run. -/
theorem run_simulation_of {τ : Type*} {step' : τ → α → Option τ} {P : σ → α → Prop}
    {R : σ → τ → Prop}
    (hsim : ∀ s t a s', R s t → P s a → step s a = some s' →
      ∃ t', step' t a = some t' ∧ R s' t') :
    ∀ {acts : List α} {s u : σ} {t : τ}, R s t → AllSteps step P s acts →
      run step s acts = some u → ∃ v, run step' t acts = some v ∧ R u v := by
  intro acts
  induction acts with
  | nil =>
    intro s u t hR _ hu
    cases hu
    exact ⟨t, rfl, hR⟩
  | cons a rest ih =>
    intro s u t hR hP hu
    obtain ⟨s', hs', hu⟩ := run_cons_eq_some.mp hu
    obtain ⟨hPa, hPt⟩ := hP.cons hs'
    obtain ⟨t', ht', hR'⟩ := hsim s t a s' hR hPa hs'
    obtain ⟨v, hv, hRv⟩ := ih hR' hPt hu
    exact ⟨v, run_cons_eq_some.mpr ⟨t', ht', hv⟩, hRv⟩

/-- **The simulation rule for steps of different sizes.** A step is matched by the actions that `f`
lists for it, perhaps by none. -/
theorem run_simulation_list {τ β : Type*} {step' : τ → β → Option τ} {P : σ → α → Prop}
    {R : σ → τ → Prop} (f : α → List β)
    (hsim : ∀ s t a s', R s t → P s a → step s a = some s' →
      ∃ t', run step' t (f a) = some t' ∧ R s' t') :
    ∀ {acts : List α} {s u : σ} {t : τ}, R s t → AllSteps step P s acts →
      run step s acts = some u → ∃ v, run step' t (acts.flatMap f) = some v ∧ R u v := by
  intro acts
  induction acts with
  | nil =>
    intro s u t hR _ hu
    cases hu
    exact ⟨t, rfl, hR⟩
  | cons a rest ih =>
    intro s u t hR hP hu
    obtain ⟨s', hs', hu⟩ := run_cons_eq_some.mp hu
    obtain ⟨hPa, hPt⟩ := hP.cons hs'
    obtain ⟨t', ht', hR'⟩ := hsim s t a s' hR hPa hs'
    obtain ⟨v, hv, hRv⟩ := ih hR' hPt hu
    exact ⟨v, run_append_eq_some.mpr ⟨t', ht', hv⟩, hRv⟩

/-- **The measure rule.** If every step uses up some of `m`, no run is longer than `m` at first. -/
theorem run_length_le {P : σ → α → Prop} {I : σ → Prop} (m : σ → Nat)
    (hstep : ∀ s a t, I s → P s a → step s a = some t → I t ∧ m t < m s) :
    ∀ {acts : List α} {s u : σ}, I s → AllSteps step P s acts → run step s acts = some u →
      acts.length + m u ≤ m s := by
  intro acts
  induction acts with
  | nil =>
    intro s u _ _ hu
    cases hu
    simp
  | cons a rest ih =>
    intro s u hs hP hu
    obtain ⟨t, ht, hu⟩ := run_cons_eq_some.mp hu
    obtain ⟨hPa, hPt⟩ := hP.cons ht
    obtain ⟨hI, hlt⟩ := hstep s a t hs hPa ht
    have hrest := ih hI hPt hu
    rw [List.length_cons]
    omega

/-- **What a condition on the steps decides.** If a step from a good state leads to a good state
exactly when it meets `P`, a run stays in good states exactly when all its steps meet `P`. -/
theorem allSteps_iff_states {B P : σ → α → Prop} {J G : σ → Prop}
    (hJ : ∀ s a t, J s → step s a = some t → J t)
    (hG : ∀ s a t, J s → B s a → G s → step s a = some t → (G t ↔ P s a)) :
    ∀ {acts : List α} {s u : σ}, J s → G s → AllSteps step B s acts → run step s acts = some u →
      (AllSteps step P s acts ↔
        ∀ pre post t, acts = pre ++ post → run step s pre = some t → G t) := by
  intro acts
  induction acts with
  | nil =>
    intro s u _ hs _ _
    refine iff_of_true trivial ?_
    intro pre post t hacts hrun
    obtain ⟨rfl, -⟩ := List.append_eq_nil_iff.mp hacts.symm
    obtain rfl := Option.some.inj hrun
    exact hs
  | cons a rest ih =>
    intro s u hJs hs hB hu
    obtain ⟨v, hv, hu⟩ := run_cons_eq_some.mp hu
    obtain ⟨hBa, hBv⟩ := hB.cons hv
    have hstep := hG s a v hJs hBa hs hv
    constructor
    · intro h pre post t hacts hrun
      obtain ⟨hPa, hPv⟩ := h.cons hv
      cases pre with
      | nil =>
        obtain rfl := Option.some.inj hrun
        exact hs
      | cons b pre =>
        obtain ⟨rfl, rfl⟩ := List.cons.inj hacts
        obtain ⟨w, hw, hrun⟩ := run_cons_eq_some.mp hrun
        obtain rfl := Option.some.inj (hv.symm.trans hw)
        exact (ih (hJ s a v hJs hv) (hstep.mpr hPa) hBv hu).mp hPv pre post t rfl hrun
    · intro h
      have hv' : G v := h [a] rest v rfl (run_cons_eq_some.mpr ⟨v, hv, rfl⟩)
      refine ⟨hstep.mp hv', ?_⟩
      rw [hv]
      refine (ih (hJ s a v hJs hv) hv' hBv hu).mpr fun pre post t hacts hrun => ?_
      exact h (a :: pre) post t (congrArg _ hacts) (run_cons_eq_some.mpr ⟨v, hv, hrun⟩)

end Rosetta.Lib

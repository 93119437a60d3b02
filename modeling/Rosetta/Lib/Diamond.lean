import Rosetta.Lib.Run

/-!
# Steps that commute

If two different actions that are enabled in a state can be taken in either order with one result,
all schedules of a system come to the same end.

* `Diamond` — the condition, in the states that meet an invariant
* `run_extends` — when some run from a state has come to an end, every other run can be continued to
  the same end, by the same actions
-/

namespace Rosetta.Lib

variable {σ α : Type*} {step : σ → α → Option σ} {I : σ → Prop}

/-- Different actions do not disable each other, and their order does not matter. -/
def Diamond (step : σ → α → Option σ) (I : σ → Prop) : Prop :=
  ∀ s a b s₁ s₂, I s → a ≠ b → step s a = some s₁ → step s b = some s₂ →
    ∃ t, step s₁ b = some t ∧ step s₂ a = some t

/-- No action is enabled. -/
def Stuck (step : σ → α → Option σ) (s : σ) : Prop := ∀ a, step s a = none

/-- An action that is enabled is one of those that lead to the end, and can be taken first. -/
theorem run_step_extends (hI : ∀ s a t, I s → step s a = some t → I t) (hd : Diamond step I) :
    ∀ {acts : List α} {s s₁ u : σ} {a : α}, I s → run step s acts = some u → Stuck step u →
      step s a = some s₁ → ∃ rest, run step s₁ rest = some u ∧ (a :: rest).Perm acts := by
  intro acts
  induction acts with
  | nil =>
    intro s s₁ u a _ hu hstuck ha
    cases hu
    rw [hstuck a] at ha
    cases ha
  | cons b rest ih =>
    intro s s₁ u a hs hu hstuck ha
    obtain ⟨s₂, hb, hu⟩ := run_cons_eq_some.mp hu
    by_cases hab : a = b
    · subst hab
      obtain rfl := Option.some.inj (ha.symm.trans hb)
      exact ⟨rest, hu, List.Perm.refl _⟩
    · obtain ⟨t, h₁, h₂⟩ := hd s a b s₁ s₂ hs hab ha hb
      obtain ⟨rest', hrun, hperm⟩ := ih (hI s b s₂ hs hb) hu hstuck h₂
      refine ⟨b :: rest', run_cons_eq_some.mpr ⟨t, h₁, hrun⟩, ?_⟩
      exact (List.Perm.swap b a rest').trans (hperm.cons b)

/-- **Every run can be continued to the end that some run has come to.** -/
theorem run_extends (hI : ∀ s a t, I s → step s a = some t → I t) (hd : Diamond step I)
    {acts acts' : List α} {s s' u : σ} (hs : I s) (hu : run step s acts = some u)
    (hstuck : Stuck step u) (hs' : run step s acts' = some s') :
    ∃ rest, run step s' rest = some u ∧ (acts' ++ rest).Perm acts := by
  induction acts' generalizing s acts with
  | nil =>
    obtain rfl := Option.some.inj hs'
    exact ⟨acts, hu, List.Perm.refl _⟩
  | cons a acts' ih =>
    obtain ⟨s₁, ha, hs'⟩ := run_cons_eq_some.mp hs'
    obtain ⟨rest₁, hrun₁, hperm₁⟩ := run_step_extends hI hd hs hu hstuck ha
    obtain ⟨rest, hrun, hperm⟩ := ih (hI s a s₁ hs ha) hrun₁ hs'
    exact ⟨rest, hrun, (hperm.cons a).trans hperm₁⟩

/-- **Two runs that have come to an end have come to the same one.** -/
theorem run_end_unique (hI : ∀ s a t, I s → step s a = some t → I t) (hd : Diamond step I)
    {acts acts' : List α} {s u u' : σ} (hs : I s) (hu : run step s acts = some u)
    (hstuck : Stuck step u) (hu' : run step s acts' = some u') (hstuck' : Stuck step u') :
    u' = u := by
  obtain ⟨rest, hrun, -⟩ := run_extends hI hd hs hu hstuck hu'
  cases rest with
  | nil => exact Option.some.inj hrun
  | cons a rest =>
    obtain ⟨t, ht, -⟩ := run_cons_eq_some.mp hrun
    rw [hstuck' a] at ht
    cases ht

end Rosetta.Lib

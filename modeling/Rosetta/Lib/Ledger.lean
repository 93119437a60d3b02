import Mathlib.Data.List.Count
import Rosetta.Lib.Run

/-!
# Ledgers

A system that takes something and has to give it back keeps a list of what it has done, and owes
what it still holds. Whether everything is given back is decided by counts.

* `Covered` — in a list of entries, each of one kind has one of another kind before it
* `countP_set_getElem?` — the count of a list after one of its elements has changed
* `allSteps_of_balance` — a balance that only grows, and does not change over a run, has not changed
  in any step
-/

namespace Rosetta.Lib

variable {ε : Type*} [DecidableEq ε]

/-- Each `b` in the list comes after an `a` that no `b` before it has taken. -/
def Covered (a b : ε) (l : List ε) : Prop := ∀ pre, pre <+: l → pre.count b ≤ pre.count a

theorem covered_nil (a b : ε) : Covered a b [] := by
  intro pre hpre
  simp [List.prefix_nil.mp hpre]

theorem Covered.count_le {a b : ε} {l : List ε} (h : Covered a b l) : l.count b ≤ l.count a :=
  h l List.prefix_rfl

/-- Entries of at most one of the two kinds are added, and the counts still fit. -/
theorem Covered.append {a b : ε} {l new : List ε} (h : Covered a b l) (hnew : a ∉ new ∨ b ∉ new)
    (hcount : (l ++ new).count b ≤ (l ++ new).count a) : Covered a b (l ++ new) := by
  intro pre hpre
  rcases List.prefix_or_prefix_of_prefix hpre (List.prefix_append l new) with hpre | ⟨t, rfl⟩
  · exact h pre hpre
  · have ht : t <+: new := (List.prefix_append_right_inj l).mp hpre
    have hle := h.count_le
    have hsub : t.count b ≤ new.count b := ht.sublist.count_le b
    simp only [List.count_append] at hcount ⊢
    rcases hnew with ha | hb
    · have hzero : new.count a = 0 := List.count_eq_zero.mpr ha
      omega
    · have hzero : t.count b = 0 := List.count_eq_zero.mpr fun hmem => hb (ht.subset hmem)
      omega

/-- The element at `i` changes from `x` to `y`. -/
theorem countP_set_getElem? {α : Type*} {p : α → Bool} {l : List α} {i : Nat} {x : α}
    (hx : l[i]? = some x) (y : α) :
    (l.set i y).countP p + (p x).toNat = l.countP p + (p y).toNat := by
  obtain ⟨hlt, hget⟩ := List.getElem?_eq_some_iff.mp hx
  have hset := List.countP_set (p := p) (a := y) hlt
  rw [hget] at hset
  have hpos : p x = true → 0 < l.countP p := fun hp =>
    List.countP_pos_iff.mpr ⟨x, List.mem_of_getElem? hx, hp⟩
  cases hpx : p x with
  | false => cases hpy : p y <;> simp_all
  | true =>
    have := hpos hpx
    cases hpy : p y <;> simp_all

/-- **What a balance tells of a run.** No step lowers it, and a step that leaves it alone meets `P`.
If it is at the end no higher than at first, all steps meet `P`. -/
theorem allSteps_of_balance {σ α ι : Type*} {step : σ → α → Option σ} {P : σ → α → Prop}
    {J : σ → Prop} {f : σ → ι → Int} (hJ : ∀ s a t, J s → step s a = some t → J t)
    (hmono : ∀ s a t, J s → step s a = some t → ∀ i, f s i ≤ f t i)
    (hP : ∀ s a t, J s → step s a = some t → (∀ i, f t i = f s i) → P s a) :
    ∀ {acts : List α} {s u : σ}, J s → run step s acts = some u → (∀ i, f u i ≤ f s i) →
      AllSteps step P s acts := by
  have hrun : ∀ {acts : List α} {s u : σ}, J s → run step s acts = some u → ∀ i, f s i ≤ f u i := by
    intro acts s u hs hu i
    have h : J u ∧ f s i ≤ f u i := by
      refine run_invariant (I := fun t => J t ∧ f s i ≤ f t i) ?_ ⟨hs, Int.le_refl _⟩ hu
      rintro t a t' ⟨ht, hle⟩ hstep
      exact ⟨hJ t a t' ht hstep, Int.le_trans hle (hmono t a t' ht hstep i)⟩
    exact h.2
  intro acts
  induction acts with
  | nil => exact fun _ _ _ => trivial
  | cons a rest ih =>
    intro s u hs hu hle
    obtain ⟨t, ht, hu⟩ := run_cons_eq_some.mp hu
    have htJ : J t := hJ s a t hs ht
    have hst := hmono s a t hs ht
    have htu := hrun htJ hu
    refine ⟨hP s a t hs ht fun i => Int.le_antisymm (Int.le_trans (htu i) (hle i)) (hst i), ?_⟩
    rw [ht]
    exact ih htJ hu fun i => Int.le_trans (hle i) (hst i)

end Rosetta.Lib

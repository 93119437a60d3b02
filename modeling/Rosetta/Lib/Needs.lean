import Mathlib.Data.List.Basic

/-!
# What a computation needs

A computation that may fail has a weakest precondition. When it can fail in several ways, this
precondition has a part for each of them: the condition under which this error does not occur.
`Needs` collects the parts, and its rules follow the program: `bind` is a conjunction, and a loop
asks for the condition of every round.
-/

namespace Rosetta.Lib

universe u

variable {ε α β : Type u} {need need' : ε → Prop}

/-- `x` has a result when all of the conditions hold, and an error only if its own one does not. -/
def Needs (x : Except ε α) (need : ε → Prop) : Prop :=
  match x with
  | .ok _ => ∀ e, need e
  | .error e => ¬ need e

theorem Needs.ok_iff {x : Except ε α} (h : Needs x need) : (∃ a, x = .ok a) ↔ ∀ e, need e := by
  cases x with
  | ok a => exact iff_of_true ⟨a, rfl⟩ h
  | error e => exact iff_of_false (by simp) fun hall => h (hall e)

theorem Needs.ne_error {x : Except ε α} {e : ε} (h : Needs x need) (he : need e) :
    x ≠ .error e := by
  rintro rfl
  exact h he

theorem Needs.iff {x : Except ε α} (h : Needs x need) (hiff : ∀ e, need e ↔ need' e) :
    Needs x need' := by
  cases x with
  | ok a => exact fun e => (hiff e).mp (h e)
  | error e => exact fun he => h ((hiff e).mpr he)

theorem Needs.bind {x : Except ε α} {f : α → Except ε β} (hx : Needs x need)
    (hf : ∀ a, x = .ok a → Needs (f a) need') : Needs (x >>= f) fun e => need e ∧ need' e := by
  cases x with
  | ok a => exact (hf a rfl).iff fun e => ⟨fun he => ⟨hx e, he⟩, And.right⟩
  | error e => exact fun he => hx he.1

/-- **The rule for loops.** `I i y` holds of the value before round `i`. -/
theorem Needs.foldlM {f : β → α → Except ε β} {I : Nat → β → Prop} {R : Nat → α → ε → Prop}
    (hround : ∀ i y x, I i y → Needs (f y x) (R i x))
    (hkeep : ∀ i y x y', I i y → f y x = .ok y' → I (i + 1) y') (xs : List α) {i : Nat} {y : β}
    (hy : I i y) : Needs (xs.foldlM f y) fun e => ∀ k x, xs[k]? = some x → R (i + k) x e := by
  induction xs generalizing i y with
  | nil =>
    intro e k x hk
    cases hk
  | cons x xs ih =>
    rw [List.foldlM_cons]
    refine ((hround i y x hy).bind fun z hz => ih (hkeep i y x z hy hz)).iff fun e => ?_
    constructor
    · rintro ⟨hx, hxs⟩ (_ | k) x' hk
      · obtain rfl := Option.some.inj hk
        exact hx
      · have hk' := hxs k x' hk
        rwa [Nat.add_assoc, Nat.add_comm 1 k] at hk'
    · intro hall
      refine ⟨hall 0 x rfl, fun k x' hk => ?_⟩
      rw [Nat.add_assoc, Nat.add_comm 1 k]
      exact hall (k + 1) x' hk

/-! ## Loops that count -/

/-- A counter stays below `n` in all rounds when the list is that short. -/
theorem forall_count_iff {n : Nat} (hn : 0 < n) (xs : List α) :
    (∀ (k : Nat) (x : α), xs[k]? = some x → k + 1 < n) ↔ xs.length < n := by
  constructor
  · intro hall
    rcases xs.eq_nil_or_concat with rfl | ⟨ys, y, rfl⟩
    · exact hn
    · have hlast := hall ys.length y (by simp)
      simpa using hlast
  · intro hlen k x hk
    have hlt := (List.getElem?_eq_some_iff.mp hk).1
    omega

end Rosetta.Lib

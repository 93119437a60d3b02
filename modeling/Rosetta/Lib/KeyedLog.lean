import Mathlib.Data.List.Basic

/-!
# Logs of keyed messages

A log lists messages, each a key with a piece of data. `dataWhere p` joins the pieces whose keys
meet `p`, in their order; `dataFor k` does it for one key.
-/

namespace Rosetta.Lib

variable {κ ι α : Type*}

section Where

variable (p : κ → Prop) [DecidablePred p]

def dataWhere (log : List (κ × List α)) : List α :=
  (log.filter fun m => p m.1).flatMap Prod.snd

@[simp] theorem dataWhere_append (log log' : List (κ × List α)) :
    dataWhere p (log ++ log') = dataWhere p log ++ dataWhere p log' := by
  rw [dataWhere, List.filter_append, List.flatMap_append]
  rfl

variable {p}

theorem dataWhere_single {k : κ} (h : p k) (x : List α) : dataWhere p [(k, x)] = x := by
  simp [dataWhere, h]

theorem dataWhere_single_not {k : κ} (h : ¬ p k) (x : List α) : dataWhere p [(k, x)] = [] := by
  simp [dataWhere, h]

/-- A message under another key adds nothing. -/
theorem dataWhere_concat_not {k : κ} (h : ¬ p k) (log : List (κ × List α)) (x : List α) :
    dataWhere p (log ++ [(k, x)]) = dataWhere p log := by
  rw [dataWhere_append, dataWhere_single_not h, List.append_nil]

/-- An earlier state of a log has an initial piece of the data. -/
theorem dataWhere_prefix {log log' : List (κ × List α)} (h : log <+: log') :
    dataWhere p log <+: dataWhere p log' := by
  obtain ⟨rest, rfl⟩ := h
  rw [dataWhere_append]
  exact List.prefix_append _ _

theorem dataWhere_congr {q : κ → Prop} [DecidablePred q] {log : List (κ × List α)}
    (h : ∀ m ∈ log, (p m.1 ↔ q m.1)) : dataWhere p log = dataWhere q log := by
  have hfilter : log.filter (fun m => p m.1) = log.filter (fun m => q m.1) :=
    List.filter_congr fun m hm => decide_eq_decide.mpr (h m hm)
  rw [dataWhere, hfilter]
  rfl

theorem dataWhere_eq_nil {log : List (κ × List α)} (h : ∀ m ∈ log, ¬ p m.1) :
    dataWhere p log = [] := by
  rw [dataWhere, List.filter_eq_nil_iff.mpr (fun m hm => by simpa using h m hm)]
  rfl

end Where

section For

variable [DecidableEq κ]

/-- Everything logged under `k`. -/
def dataFor (k : κ) (log : List (κ × List α)) : List α := dataWhere (fun k' => k' = k) log

@[simp] theorem dataFor_append (k : κ) (log log' : List (κ × List α)) :
    dataFor k (log ++ log') = dataFor k log ++ dataFor k log' := dataWhere_append _ log log'

@[simp] theorem dataFor_single_self (k : κ) (x : List α) : dataFor k [(k, x)] = x :=
  dataWhere_single (p := fun k' => k' = k) rfl x

theorem dataFor_single_ne {k k' : κ} (h : k' ≠ k) (x : List α) : dataFor k [(k', x)] = [] :=
  dataWhere_single_not (p := fun k₁ => k₁ = k) h x

theorem dataFor_concat_self (k : κ) (log : List (κ × List α)) (x : List α) :
    dataFor k (log ++ [(k, x)]) = dataFor k log ++ x := by
  rw [dataFor_append, dataFor_single_self]

theorem dataFor_concat_ne {k k' : κ} (h : k' ≠ k) (log : List (κ × List α)) (x : List α) :
    dataFor k (log ++ [(k', x)]) = dataFor k log :=
  dataWhere_concat_not (p := fun k₁ => k₁ = k) h log x

theorem dataFor_prefix {log log' : List (κ × List α)} (h : log <+: log') (k : κ) :
    dataFor k log <+: dataFor k log' := dataWhere_prefix h

end For

/-- A log with new names for its keys. -/
theorem dataFor_map [DecidableEq ι] (f : κ → ι) (i : ι) (log : List (κ × List α)) :
    dataFor i (log.map fun m => (f m.1, m.2)) = dataWhere (fun k => f k = i) log := by
  unfold dataFor dataWhere
  rw [List.filter_map, List.flatMap_map]
  rfl

end Rosetta.Lib

import Mathlib.Data.List.AList

/-!
# Association lists after an update

What `lookup` finds after `insert` and `erase`, as one equivalence each, and what holds of all
entries.
-/

namespace Rosetta.Lib

variable {κ ν : Type*} [DecidableEq κ] {m : AList fun _ : κ => ν} {k k' : κ} {v v' : ν}

theorem lookup_insert_eq_some :
    (m.insert k v).lookup k' = some v' ↔
      (k' = k ∧ v = v') ∨ (k' ≠ k ∧ m.lookup k' = some v') := by
  rcases eq_or_ne k' k with rfl | hk
  · simp
  · simp [AList.lookup_insert_ne hk, hk]

theorem lookup_insert_eq_none :
    (m.insert k v).lookup k' = none ↔ k' ≠ k ∧ m.lookup k' = none := by
  rcases eq_or_ne k' k with rfl | hk
  · simp
  · simp [AList.lookup_insert_ne hk, hk]

theorem lookup_erase_eq_some :
    (m.erase k).lookup k' = some v ↔ k' ≠ k ∧ m.lookup k' = some v := by
  rcases eq_or_ne k' k with rfl | hk
  · simp
  · simp [AList.lookup_erase_ne hk, hk]

theorem lookup_erase_eq_none :
    (m.erase k).lookup k' = none ↔ k' = k ∨ m.lookup k' = none := by
  rcases eq_or_ne k' k with rfl | hk
  · simp
  · simp [AList.lookup_erase_ne hk, hk]

theorem forall_entry_iff {p : κ → ν → Prop} :
    (∀ e ∈ m.entries, p e.1 e.2) ↔ ∀ k v, m.lookup k = some v → p k v := by
  constructor
  · intro h k v hk
    exact h ⟨k, v⟩ (AList.mem_lookup_iff.mp hk)
  · rintro h ⟨k, v⟩ he
    exact h k v (AList.mem_lookup_iff.mpr he)

end Rosetta.Lib

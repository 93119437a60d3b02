import Mathlib.Data.List.Nodup
import Mathlib.Logic.Function.Basic
import Mathlib.Order.Nat

/-!
# Memory that is allocated and freed

A heap holds blocks. A block is named by the number of its allocation, and no number is used twice:
who keeps a number after the block is freed has the name of nothing. To free a block that is not
there fails, and so does to change it.

* `Heap` — the blocks that there are, and the record of those that were freed
* `Grows`, `Shrinks` — several blocks that are new, or that are freed
* `Owned` — every block has an owner, and no more than one
-/

namespace Rosetta.Lib

structure Heap (β : Type*) where
  get : Nat → Option β
  /-- the name of the next block -/
  next : Nat
  /-- the blocks that were freed, the last one first -/
  freed : List Nat
  fresh : ∀ a, next ≤ a → get a = none
  freed_lt : ∀ a ∈ freed, a < next
  freed_gone : ∀ a ∈ freed, get a = none
  freed_nodup : freed.Nodup

namespace Heap

variable {β κ : Type*} {h h' h'' : Heap β} {fp fp' : List Nat} {a a' : Nat} {b b' : β}

def empty : Heap β where
  get _ := none
  next := 0
  freed := []
  fresh _ _ := rfl
  freed_lt _ ha := absurd ha List.not_mem_nil
  freed_gone _ ha := absurd ha List.not_mem_nil
  freed_nodup := List.nodup_nil

theorem lt_next (ha : h.get a = some b) : a < h.next := by
  by_contra hle
  rw [h.fresh a (by omega)] at ha
  cases ha

/-- A new block, with the name `h.next`. -/
def alloc (h : Heap β) (b : β) : Heap β where
  get := Function.update h.get h.next (some b)
  next := h.next + 1
  freed := h.freed
  fresh a ha := by
    rw [Function.update_of_ne (by omega)]
    exact h.fresh a (by omega)
  freed_lt a ha := Nat.lt_succ_of_lt (h.freed_lt a ha)
  freed_gone a ha := by
    rw [Function.update_of_ne (h.freed_lt a ha).ne]
    exact h.freed_gone a ha
  freed_nodup := h.freed_nodup

/-- Another content for a block. -/
def set (h : Heap β) (a : Nat) (b : β) : Heap β where
  get := Function.update h.get a ((h.get a).map fun _ => b)
  next := h.next
  freed := h.freed
  fresh a' ha' := by
    have hold := h.fresh a' ha'
    rcases eq_or_ne a' a with rfl | hne
    · rw [Function.update_self, hold]
      rfl
    · rwa [Function.update_of_ne hne]
  freed_lt := h.freed_lt
  freed_gone a' ha' := by
    have hold := h.freed_gone a' ha'
    rcases eq_or_ne a' a with rfl | hne
    · rw [Function.update_self, hold]
      rfl
    · rwa [Function.update_of_ne hne]
  freed_nodup := h.freed_nodup

/-- The heap without a block that is there. -/
def erase (h : Heap β) (a : Nat) (ha : (h.get a).isSome = true) : Heap β where
  get := Function.update h.get a none
  next := h.next
  freed := a :: h.freed
  fresh a' ha' := by
    rcases eq_or_ne a' a with rfl | hne
    · exact Function.update_self ..
    · rw [Function.update_of_ne hne]
      exact h.fresh a' ha'
  freed_lt a' ha' := by
    rcases List.mem_cons.mp ha' with rfl | ha'
    · obtain ⟨b, hb⟩ := Option.isSome_iff_exists.mp ha
      exact lt_next hb
    · exact h.freed_lt a' ha'
  freed_gone a' ha' := by
    rcases eq_or_ne a' a with rfl | hne
    · exact Function.update_self ..
    · rw [Function.update_of_ne hne]
      exact h.freed_gone a' ((List.mem_cons.mp ha').resolve_left hne)
  freed_nodup := by
    refine List.nodup_cons.mpr ⟨fun hmem => ?_, h.freed_nodup⟩
    rw [h.freed_gone a hmem] at ha
    cases ha

/-- A block is changed; there is no result without the block, or when `f` has none. -/
def modify (h : Heap β) (a : Nat) (f : β → Option β) : Option (Heap β) :=
  ((h.get a).bind f).map (h.set a)

/-- A block is freed; there is no result without the block. -/
def free (h : Heap β) (a : Nat) : Option (Heap β) :=
  if ha : (h.get a).isSome = true then some (h.erase a ha) else none

theorem modify_eq_some {f : β → Option β} (ha : h.get a = some b) (hf : f b = some b') :
    h.modify a f = some (h.set a b') := by
  rw [modify, ha, Option.bind_some, hf]
  rfl

@[simp] theorem get_alloc_self (h : Heap β) (b : β) : (h.alloc b).get h.next = some b :=
  Function.update_self ..

theorem get_alloc_of_lt (b : β) (ha : a < h.next) : (h.alloc b).get a = h.get a :=
  Function.update_of_ne ha.ne ..

theorem get_set_self (b' : β) (ha : h.get a = some b) : (h.set a b').get a = some b' := by
  show Function.update h.get a _ a = some b'
  rw [Function.update_self, ha]
  rfl

theorem get_set_of_ne (b : β) (hne : a' ≠ a) : (h.set a b).get a' = h.get a' :=
  Function.update_of_ne hne ..

/-! ## New blocks -/

/-- `h'` is `h` with the blocks of `fp`, which are new. -/
structure Grows (h h' : Heap β) (fp : List Nat) : Prop where
  next : h.next ≤ h'.next
  new : ∀ a ∈ fp, h.next ≤ a
  live : ∀ a ∈ fp, (h'.get a).isSome = true
  old : ∀ a, a ∉ fp → h'.get a = h.get a
  freed : h'.freed = h.freed
  nodup : fp.Nodup

namespace Grows

theorem refl (h : Heap β) : Grows h h [] :=
  ⟨le_rfl, by simp, by simp, fun _ _ => rfl, rfl, List.nodup_nil⟩

theorem lt_next (hg : Grows h h' fp) (ha : a ∈ fp) : a < h'.next := by
  obtain ⟨b, hb⟩ := Option.isSome_iff_exists.mp (hg.live a ha)
  exact Heap.lt_next hb

/-- A block that was there is none of the new ones. -/
theorem get_of_some (hg : Grows h h' fp) (ha : h.get a = some b) : h'.get a = some b := by
  rw [hg.old a fun hmem => ?_, ha]
  have hlt := Heap.lt_next ha
  have hle := hg.new a hmem
  omega

protected theorem alloc (h : Heap β) (b : β) : Grows h (h.alloc b) [h.next] where
  next := Nat.le_succ _
  new := by simp
  live := by simp
  old _ ha := Function.update_of_ne (List.ne_of_not_mem_cons ha) ..
  freed := rfl
  nodup := List.nodup_singleton _

protected theorem trans (hg : Grows h h' fp) (hg' : Grows h' h'' fp') :
    Grows h h'' (fp ++ fp') := by
  have hdisj : ∀ a ∈ fp, a ∉ fp' := by
    intro a ha ha'
    have hlt := hg.lt_next ha
    have hle := hg'.new a ha'
    omega
  refine ⟨hg.next.trans hg'.next, ?_, ?_, ?_, hg'.freed.trans hg.freed, ?_⟩
  · intro a ha
    rcases List.mem_append.mp ha with ha | ha
    · exact hg.new a ha
    · exact hg.next.trans (hg'.new a ha)
  · intro a ha
    rcases List.mem_append.mp ha with ha | ha
    · rw [hg'.old a (hdisj a ha)]
      exact hg.live a ha
    · exact hg'.live a ha
  · intro a ha
    rw [List.mem_append, not_or] at ha
    rw [hg'.old a ha.2, hg.old a ha.1]
  · exact List.nodup_append'.mpr ⟨hg.nodup, hg'.nodup, hdisj⟩

/-- A new block gets another content. -/
protected theorem set (hg : Grows h h' fp) (ha : a ∈ fp) (b : β) : Grows h (h'.set a b) fp := by
  refine ⟨hg.next, hg.new, ?_, ?_, hg.freed, hg.nodup⟩
  · intro a' ha'
    rcases eq_or_ne a' a with rfl | hne
    · obtain ⟨b', hb'⟩ := Option.isSome_iff_exists.mp (hg.live a' ha')
      rw [get_set_self b hb']
      rfl
    · rw [get_set_of_ne b hne]
      exact hg.live a' ha'
  · intro a' ha'
    have hne : a' ≠ a := by
      rintro rfl
      exact ha' ha
    rw [get_set_of_ne b hne]
    exact hg.old a' ha'

protected theorem perm (hg : Grows h h' fp) (hp : fp.Perm fp') : Grows h h' fp' where
  next := hg.next
  new a ha := hg.new a (hp.mem_iff.mpr ha)
  live a ha := hg.live a (hp.mem_iff.mpr ha)
  old a ha := hg.old a fun hmem => ha (hp.mem_iff.mp hmem)
  freed := hg.freed
  nodup := hp.nodup_iff.mp hg.nodup

end Grows

/-! ## Blocks that are freed -/

/-- `h'` is `h` without the blocks of `fp`, which were freed in this order. -/
structure Shrinks (h h' : Heap β) (fp : List Nat) : Prop where
  next : h'.next = h.next
  gone : ∀ a ∈ fp, h'.get a = none
  old : ∀ a, a ∉ fp → h'.get a = h.get a
  freed : h'.freed = fp.reverse ++ h.freed

namespace Shrinks

theorem refl (h : Heap β) : Shrinks h h [] := ⟨rfl, by simp, fun _ _ => rfl, rfl⟩

protected theorem trans (hs : Shrinks h h' fp) (hs' : Shrinks h' h'' fp') :
    Shrinks h h'' (fp ++ fp') := by
  refine ⟨hs'.next.trans hs.next, ?_, ?_, ?_⟩
  · intro a ha
    by_cases ha' : a ∈ fp'
    · exact hs'.gone a ha'
    · rw [hs'.old a ha']
      exact hs.gone a ((List.mem_append.mp ha).resolve_right ha')
  · intro a ha
    rw [List.mem_append, not_or] at ha
    rw [hs'.old a ha.2, hs.old a ha.1]
  · rw [hs'.freed, hs.freed, List.reverse_append, List.append_assoc]

end Shrinks

theorem free_eq_some (ha : h.get a = some b) : ∃ h', h.free a = some h' ∧ Shrinks h h' [a] := by
  have hlive : (h.get a).isSome = true := by
    rw [ha]
    rfl
  refine ⟨h.erase a hlive, dif_pos hlive, rfl, ?_, ?_, rfl⟩
  · intro a' ha'
    obtain rfl := List.mem_singleton.mp ha'
    exact Function.update_self ..
  · exact fun a' ha' => Function.update_of_ne (List.ne_of_not_mem_cons ha') ..

/-! ## Owners -/

/-- Every block belongs to exactly one of the owners `κ`, and `fp` lists what they own. -/
structure Owned (h : Heap β) (fp : κ → List Nat) : Prop where
  nodup : ∀ k, (fp k).Nodup
  alone : ∀ k k' a, a ∈ fp k → a ∈ fp k' → k = k'
  live : ∀ a, (h.get a).isSome = true ↔ ∃ k, a ∈ fp k

namespace Owned

variable {own : κ → List Nat} {k : κ}

theorem empty : Owned (Heap.empty : Heap β) fun _ : κ => [] :=
  ⟨by simp, by simp, by simp [Heap.empty]⟩

/-- What others own stays as it is. -/
theorem get_of_shrinks (ho : Owned h own) (hs : Shrinks h h' (own k)) {k' : κ} (hne : k' ≠ k)
    (ha : a ∈ own k') : h'.get a = h.get a :=
  hs.old a fun hmem => hne (ho.alone k' k a ha hmem)

theorem get_of_grows (ho : Owned h own) (hg : Grows h h' fp) (ha : a ∈ own k) :
    h'.get a = h.get a := by
  obtain ⟨b, hb⟩ := Option.isSome_iff_exists.mp ((ho.live a).mpr ⟨k, ha⟩)
  rw [hg.get_of_some hb, hb]

variable [DecidableEq κ]

/-- The new blocks go to an owner that has nothing yet. -/
theorem grow (ho : Owned h own) (hk : own k = []) (hg : Grows h h' fp) :
    Owned h' (Function.update own k fp) := by
  have hold : ∀ k' a, a ∈ own k' → a ∉ fp := by
    intro k' a ha hmem
    obtain ⟨b, hb⟩ := Option.isSome_iff_exists.mp ((ho.live a).mpr ⟨k', ha⟩)
    have hlt := lt_next hb
    have hle := hg.new a hmem
    omega
  refine ⟨?_, ?_, ?_⟩
  · intro k'
    rcases eq_or_ne k' k with rfl | hne
    · rw [Function.update_self]
      exact hg.nodup
    · rw [Function.update_of_ne hne]
      exact ho.nodup k'
  · intro k₁ k₂ a h₁ h₂
    rcases eq_or_ne k₁ k with rfl | hne₁
    · rcases eq_or_ne k₂ k₁ with rfl | hne₂
      · rfl
      · rw [Function.update_self] at h₁
        rw [Function.update_of_ne hne₂] at h₂
        exact absurd h₁ (hold k₂ a h₂)
    · rw [Function.update_of_ne hne₁] at h₁
      rcases eq_or_ne k₂ k with rfl | hne₂
      · rw [Function.update_self] at h₂
        exact absurd h₂ (hold k₁ a h₁)
      · rw [Function.update_of_ne hne₂] at h₂
        exact ho.alone k₁ k₂ a h₁ h₂
  · intro a
    by_cases ha : a ∈ fp
    · refine iff_of_true (hg.live a ha) ⟨k, ?_⟩
      rwa [Function.update_self]
    · rw [hg.old a ha, ho.live a]
      refine exists_congr fun k' => ?_
      rcases eq_or_ne k' k with rfl | hne
      · rw [Function.update_self, hk]
        exact iff_of_false List.not_mem_nil ha
      · rw [Function.update_of_ne hne]

/-- An owner frees all that it has. -/
theorem shrink (ho : Owned h own) (hs : Shrinks h h' (own k)) :
    Owned h' (Function.update own k []) := by
  have hsub : ∀ k' a, a ∈ Function.update own k [] k' ↔ k' ≠ k ∧ a ∈ own k' := by
    intro k' a
    rcases eq_or_ne k' k with rfl | hne
    · rw [Function.update_self]
      exact iff_of_false List.not_mem_nil fun hmem => hmem.1 rfl
    · rw [Function.update_of_ne hne]
      exact (and_iff_right hne).symm
  refine ⟨?_, ?_, ?_⟩
  · intro k'
    rcases eq_or_ne k' k with rfl | hne
    · rw [Function.update_self]
      exact List.nodup_nil
    · rw [Function.update_of_ne hne]
      exact ho.nodup k'
  · intro k₁ k₂ a h₁ h₂
    exact ho.alone k₁ k₂ a ((hsub k₁ a).mp h₁).2 ((hsub k₂ a).mp h₂).2
  · intro a
    simp only [hsub]
    by_cases ha : a ∈ own k
    · rw [hs.gone a ha]
      refine iff_of_false Bool.false_ne_true ?_
      rintro ⟨k', hne, hk'⟩
      exact hne (ho.alone k' k a hk' ha)
    · rw [hs.old a ha, ho.live a]
      refine exists_congr fun k' => ⟨fun hk' => ⟨?_, hk'⟩, And.right⟩
      rintro rfl
      exact ha hk'

end Owned

end Heap

end Rosetta.Lib

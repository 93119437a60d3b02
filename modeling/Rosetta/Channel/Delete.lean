import Rosetta.Channel.Encode

/-!
# Deleting the C structures

The helpers of `DestroyInternalChannel` free what the encoders have allocated, element by element,
and then the array and the structure.

* `deleteVector`, `deleteMap` — the frees of the helpers
* `deleteVector_ok`, `deleteMap_ok` — all of a structure is freed, and nothing else
-/

namespace Rosetta

open Lib Writing

/-- `delete p`, `delete []p`. -/
def Writing.delete (p : Nat) : Writing Unit := fun m =>
  match m.free p with
  | some m' => .ok ((), m')
  | none => .error .outOfBounds

/-- `n` rounds of a loop, from `i` on. -/
def rounds (body : Nat → Writing Unit) (i : Nat) : Nat → Writing Unit
  | 0 => pure ()
  | n + 1 => do
    body i
    rounds body (i + 1) n

/-- The elements, then the array, then the structure. -/
def deleteNodes (body : Nat → Nat → Writing Unit) (p : Nat) : Writing Unit := do
  let nodeCount ← reading (·.nodeCount p)
  rounds (body p) 0 nodeCount.toNat
  delete (← reading (·.elements p))
  delete p

/-- `delete []p->node_ids[i]`. -/
def deleteElement (p i : Nat) : Writing Unit := do
  delete (← reading (·.element p i))

def deleteVector (p : Nat) : Writing Unit := deleteNodes deleteElement p

/-- `delete []p->pairs[i]->node_id`, `delete p->pairs[i]`. -/
def deletePair (p i : Nat) : Writing Unit := do
  let pair ← reading (·.element p i)
  delete (← reading (·.nodeId pair))
  delete (← reading (·.element p i))

def deleteMap (p : Nat) : Writing Unit := deleteNodes deletePair p

section Deleting

variable {α : Type} {R : Memory → Nat → α → List Nat → Prop} {m m' : Memory} {p array i q : Nat}
  {fp : List Nat} {b : Block}

theorem delete_ok (hp : m.get p = some b) :
    ∃ m', delete p m = .ok ((), m') ∧ Heap.Shrinks m m' [p] := by
  obtain ⟨m', hfree, hs⟩ := Heap.free_eq_some hp
  exact ⟨m', by rw [delete, hfree], hs⟩

theorem Table.shrink {count : Nat} {cells : List (Option Nat)} (ht : Table m p array count cells)
    (hs : Heap.Shrinks m m' fp) (hp : p ∉ fp) (harray : array ∉ fp) :
    Table m' p array count cells where
  head := by rw [hs.old p hp, ht.head]
  cells := by rw [hs.old array harray, ht.cells]

/-- What a round has to do: to free the element that the table has at its place. -/
def Deletes (body : Nat → Nat → Writing Unit) (R : Memory → Nat → α → List Nat → Prop) : Prop :=
  ∀ ⦃m : Memory⦄ ⦃p array count : Nat⦄ ⦃cells : List (Option Nat)⦄ ⦃i q : Nat⦄ ⦃x : α⦄
    ⦃fp : List Nat⦄, Table m p array count cells → cells[i]? = some (some q) → R m q x fp →
    fp.Nodup → p ∉ fp → array ∉ fp →
      ∃ m', body p i m = .ok ((), m') ∧ Heap.Shrinks m m' fp

theorem deletes_element : Deletes deleteElement IsString := by
  rintro m p array count cells i q s fp ht hi ⟨rfl, hq⟩ - - -
  obtain ⟨m', hdelete, hs⟩ := delete_ok hq
  refine ⟨m', ?_, hs⟩
  rw [deleteElement, bind_of_ok (reading_ok (ht.element_eq hi)), hdelete]

theorem deletes_pair : Deletes deletePair IsPair := by
  rintro m p array count cells i q entry fp ht hi ⟨c, rfl, hq, hc⟩ hnodup hp harray
  have hqc : q ≠ c := by
    rintro rfl
    simp at hnodup
  rw [List.mem_pair, not_or] at hp harray
  obtain ⟨m₁, hstring, hs₁⟩ := delete_ok hc
  have ht₁ := ht.shrink hs₁ (by simp [hp.1]) (by simp [harray.1])
  have hq₁ : m₁.get q = _ := (hs₁.old q (by simp [hqc])).trans hq
  obtain ⟨m', hpair, hs⟩ := delete_ok hq₁
  refine ⟨m', ?_, hs₁.trans hs⟩
  rw [deletePair, bind_of_ok (reading_ok (ht.element_eq hi)),
    bind_of_ok (reading_ok (nodeId_eq hq)), bind_of_ok hstring,
    bind_of_ok (reading_ok (ht₁.element_eq hi)), hpair]

/-- The loop frees the elements one after the other; the array stays. -/
theorem rounds_ok {body : Nat → Nat → Writing Unit} (hbody : Deletes body R) (hR : Local R)
    {count : Nat} {qs : List Nat} {xs : List α} {fps pre : List Nat}
    (ht : Table m p array count ((pre ++ qs).map some)) (he : IsElements R m qs xs fps)
    (hnodup : (fps ++ [array, p]).Nodup) :
    ∃ m', rounds (body p) pre.length qs.length m = .ok ((), m') ∧ Heap.Shrinks m m' fps := by
  induction qs generalizing m xs fps pre with
  | nil =>
    cases he
    exact ⟨m, rfl, Heap.Shrinks.refl m⟩
  | cons q qs ih =>
    cases he with
    | @cons _ x fp _ xs fps hx he =>
    rw [List.append_assoc] at hnodup
    obtain ⟨hfp, hrest, hdisj⟩ := List.nodup_append'.mp hnodup
    have hp : p ∉ fp := fun hmem => hdisj hmem (by simp)
    have harray : array ∉ fp := fun hmem => hdisj hmem (by simp)
    have hi : ((pre ++ q :: qs).map some)[pre.length]? = some (some q) := by simp
    obtain ⟨m₁, hround, hs₁⟩ := hbody ht hi hx hfp hp harray
    have he₁ : IsElements R m₁ qs xs fps := he.frame hR fun a ha =>
      hs₁.old a fun hmem => hdisj hmem (List.mem_append_left _ ha)
    have ht₁ := ht.shrink hs₁ hp harray
    rw [List.append_cons] at ht₁
    obtain ⟨m', hloop, hs⟩ := ih ht₁ he₁ hrest
    refine ⟨m', ?_, hs₁.trans hs⟩
    rw [List.length_append, List.length_singleton] at hloop
    rw [List.length_cons, rounds, bind_of_ok hround, hloop]

theorem deleteNodes_ok {body : Nat → Nat → Writing Unit} (hbody : Deletes body R) (hR : Local R)
    {xs : List α} (h : IsNodes R m p xs fp) (hnodup : fp.Nodup) :
    ∃ m', deleteNodes body p m = .ok ((), m') ∧ Heap.Shrinks m m' fp := by
  have hcount := h.nodeCount
  obtain ⟨array, qs, fps, rfl, ht, he⟩ := h
  obtain ⟨m₁, hloop, hs₁⟩ :=
    rounds_ok hbody hR (show Table m p array _ (([] ++ qs).map some) from ht) he hnodup
  rw [he.length_eq, List.length_nil] at hloop
  obtain ⟨-, -, hdisj⟩ := List.nodup_append'.mp hnodup
  have ht₁ := ht.shrink hs₁ (fun hmem => hdisj hmem (by simp)) fun hmem => hdisj hmem (by simp)
  obtain ⟨m₂, harray, hs₂⟩ := delete_ok ht₁.cells
  have hp₂ : m₂.get p = _ := (hs₂.old p (by simp [ht.ne.symm])).trans ht₁.head
  obtain ⟨m', hp, hs⟩ := delete_ok hp₂
  refine ⟨m', ?_, ?_⟩
  · rw [deleteNodes, bind_of_ok (reading_ok hcount), Int.toNat_natCast, bind_of_ok hloop,
      bind_of_ok (reading_ok ht₁.elements_eq), bind_of_ok harray, hp]
  · exact hs₁.trans (hs₂.trans hs)

theorem deleteVector_ok {vec : List Bytes} (h : IsNodes IsString m p vec fp) (hnodup : fp.Nodup) :
    ∃ m', deleteVector p m = .ok ((), m') ∧ Heap.Shrinks m m' fp :=
  deleteNodes_ok deletes_element local_isString h hnodup

theorem deleteMap_ok {entries : List (Bytes × Int)} (h : IsNodes IsPair m p entries fp)
    (hnodup : fp.Nodup) : ∃ m', deleteMap p m = .ok ((), m') ∧ Heap.Shrinks m m' fp :=
  deleteNodes_ok deletes_pair local_isPair h hnodup

end Deleting

end Rosetta

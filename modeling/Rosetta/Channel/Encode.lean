import Rosetta.Channel.Memory

/-!
# `channel_encode.h`

Ids of nodes are handed out as C strings and as structures of pointers to them. No length of a
string goes along: it ends where its first NUL is.

* `encodeString`, `encodeVector`, `encodeMap` — as the getters call them
* `IsString`, `IsNodes` — a string or a structure with all that it points to
* `encodeVector_ok`, `encodeMap_ok` — what is allocated, and that nothing else changes
-/

namespace Rosetta

open Lib Writing

/-- `for (int i …; i++)` over a container. -/
def forEach {α : Type} (body : Nat → α → Writing Unit) (i : Nat) : List α → Writing Unit
  | [] => pure ()
  | x :: xs => do
    body i x
    reading fun _ => if i + 1 < 2 ^ 31 then .ok () else .error .overflow
    forEach body (i + 1) xs

/-! ## `channel_encode.h` -/

def encodeString (str : Bytes) : Writing Nat := do
  let res ← new (.chars (List.replicate (str.length + 1) none))
  memset res 0 (str.length + 1)
  memcpy res str
  return res

/-- The structure, its count and the array. -/
def newNodes (n : Nat) : Writing Nat := do
  let res ← new (.nodes 0 none)
  setNodeCount res n
  setElements res (← new (.pointers (List.replicate n none)))
  return res

/-- The body of the loop of `encode_vector`. -/
def encodeElement (res i : Nat) (s : Bytes) : Writing Unit := do
  setElement res i (← new (.chars (List.replicate (s.length + 1) none)))
  memset (← reading (·.element res i)) 0 (s.length + 1)
  memcpy (← reading (·.element res i)) s

def encodeVector (vec : List Bytes) : Writing Nat := do
  let res ← newNodes vec.length
  forEach (encodeElement res) 0 vec
  return res

/-- The body of the loop of `encode_map`. -/
def encodePair (pointer i : Nat) (entry : Bytes × Int) : Writing Unit := do
  setElement pointer i (← new (.pair none 0))
  let chars ← new (.chars (List.replicate (entry.1.length + 1) none))
  setNodeId (← reading (·.element pointer i)) chars
  let pair ← reading (·.element pointer i)
  memset (← reading (·.nodeId pair)) 0 (entry.1.length + 1)
  let pair ← reading (·.element pointer i)
  memcpy (← reading (·.nodeId pair)) entry.1
  setPartyId (← reading (·.element pointer i)) entry.2

def encodeMap (m : Std.TreeMap Bytes Int) : Writing Nat := do
  let pointer ← newNodes m.size
  forEach (encodePair pointer) 0 m.toList
  return pointer

/-! ## Structures in memory -/

/-- A C string, and the block that it takes. -/
def IsString (m : Memory) (p : Nat) (str : Bytes) (fp : List Nat) : Prop :=
  fp = [p] ∧ m.get p = some (.chars (terminated str))

/-- A `NodeIDPair`, with its string. -/
def IsPair (m : Memory) (p : Nat) (entry : Bytes × Int) (fp : List Nat) : Prop :=
  ∃ chars, fp = [chars, p] ∧ m.get p = some (.pair (some chars) entry.2) ∧
    m.get chars = some (.chars (terminated entry.1))

/-- What an array points to, one after the other. -/
inductive IsElements {α : Type} (R : Memory → Nat → α → List Nat → Prop) (m : Memory) :
    List Nat → List α → List Nat → Prop
  | nil : IsElements R m [] [] []
  | cons {q : Nat} {x : α} {fp qs : List Nat} {xs : List α} {fps : List Nat} :
    R m q x fp → IsElements R m qs xs fps → IsElements R m (q :: qs) (x :: xs) (fp ++ fps)

/-- A `NodeIDVec` or a `NodeIDMap` with these elements. -/
def IsNodes {α : Type} (R : Memory → Nat → α → List Nat → Prop) (m : Memory) (p : Nat)
    (xs : List α) (fp : List Nat) : Prop :=
  ∃ array qs fps, fp = fps ++ [array, p] ∧ Table m p array xs.length (qs.map some) ∧
    IsElements R m qs xs fps

section Structures

variable {α : Type} {R : Memory → Nat → α → List Nat → Prop} {m m' : Memory} {p q : Nat}
  {x : α} {xs : List α} {qs fp fps : List Nat}

/-- `R` is about the blocks of its footprint. -/
def Local (R : Memory → Nat → α → List Nat → Prop) : Prop :=
  ∀ ⦃m m' : Memory⦄ ⦃q : Nat⦄ ⦃x : α⦄ ⦃fp : List Nat⦄, R m q x fp →
    (∀ a ∈ fp, m'.get a = m.get a) → R m' q x fp

theorem local_isString : Local IsString := by
  rintro m m' q s fp ⟨rfl, hq⟩ hsame
  exact ⟨rfl, by rw [hsame q (by simp), hq]⟩

theorem local_isPair : Local IsPair := by
  rintro m m' q entry fp ⟨chars, rfl, hq, hchars⟩ hsame
  exact ⟨chars, rfl, by rw [hsame q (by simp), hq], by rw [hsame chars (by simp), hchars]⟩

namespace IsElements

theorem frame (hR : Local R) (he : IsElements R m qs xs fps)
    (hsame : ∀ a ∈ fps, m'.get a = m.get a) : IsElements R m' qs xs fps := by
  induction he with
  | nil => exact .nil
  | cons hx _ ih =>
    rw [List.forall_mem_append] at hsame
    exact .cons (hR hx hsame.1) (ih hsame.2)

theorem snoc (he : IsElements R m qs xs fps) (hx : R m q x fp) :
    IsElements R m (qs ++ [q]) (xs ++ [x]) (fps ++ fp) := by
  induction he with
  | nil =>
    have hone := IsElements.cons hx .nil
    rwa [List.append_nil] at hone
  | cons hy _ ih =>
    rw [List.append_assoc]
    exact .cons hy ih

theorem length_eq (he : IsElements R m qs xs fps) : qs.length = xs.length := by
  induction he with
  | nil => rfl
  | cons _ _ ih => rw [List.length_cons, List.length_cons, ih]

theorem get (he : IsElements R m qs xs fps) {i : Nat} (hi : i < xs.length) :
    ∃ q fp, qs[i]? = some q ∧ R m q xs[i] fp := by
  induction he generalizing i with
  | nil => cases hi
  | cons hx _ ih =>
    cases i with
    | zero => exact ⟨_, _, rfl, hx⟩
    | succ i =>
      obtain ⟨q, fp, hq, hR⟩ := ih (Nat.lt_of_succ_lt_succ hi)
      exact ⟨q, fp, hq, hR⟩

end IsElements

theorem Local.isNodes (hR : Local R) : Local (IsNodes R) := by
  rintro m m' p xs fp ⟨array, qs, fps, rfl, ht, he⟩ hsame
  refine ⟨array, qs, fps, rfl, ⟨?_, ?_⟩, he.frame hR fun a ha => hsame a (by simp [ha])⟩
  · rw [hsame p (by simp), ht.head]
  · rw [hsame array (by simp), ht.cells]

/-- An element is where it is read. -/
theorem IsNodes.element (h : IsNodes R m p xs fp) {i : Nat} (hi : i < xs.length) :
    ∃ q fpx, m.element p i = .ok q ∧ R m q xs[i] fpx := by
  obtain ⟨array, qs, fps, -, ht, he⟩ := h
  obtain ⟨q, fpx, hq, hx⟩ := he.get hi
  refine ⟨q, fpx, ht.element_eq ?_, hx⟩
  rw [List.getElem?_map, hq]
  rfl

theorem IsNodes.nodeCount (h : IsNodes R m p xs fp) : m.nodeCount p = .ok xs.length := by
  obtain ⟨array, qs, fps, -, ht, -⟩ := h
  rw [Memory.nodeCount, ht.head]

end Structures

/-! ## Encoding -/

section Encoding

variable {α : Type} {R : Memory → Nat → α → List Nat → Prop} {m₀ m m' : Memory} {p array q : Nat}
  {n : Nat} {qs fps : List Nat} {xs : List α}

/-- A string is encoded in a block of its own. -/
theorem encodeString_ok (str : Bytes) (m : Memory) : ∃ m', encodeString str m = .ok (m.next, m') ∧
    Heap.Grows m m' [m.next] ∧ IsString m' m.next str [m.next] := by
  have hnew := Heap.get_alloc_self m (.chars (List.replicate (str.length + 1) none))
  have hzero := Heap.get_set_self (.chars (List.replicate (str.length + 1) (some 0))) hnew
  refine ⟨_, ?_, ?_, rfl, Heap.get_set_self _ hzero⟩
  · rw [encodeString, bind_of_ok rfl, bind_of_ok (memset_ok hnew),
      bind_of_ok (memcpy_ok hzero)]
    rfl
  · have hgrows := Heap.Grows.alloc m (.chars (List.replicate (str.length + 1) none))
    exact (hgrows.set (by simp) _).set (by simp) _

theorem newNodes_ok (hn : n < 2 ^ 31) (m : Memory) : ∃ m' array, newNodes n m = .ok (m.next, m') ∧
    Heap.Grows m m' [array, m.next] ∧ Table m' m.next array n (List.replicate n none) := by
  let m₁ : Memory := m.alloc (.nodes 0 none)
  let m₂ : Memory := m₁.set m.next (.nodes n none)
  let m₃ : Memory := m₂.alloc (.pointers (List.replicate n none))
  have hres₁ : m₁.get m.next = some (.nodes 0 none) := Heap.get_alloc_self _ _
  have hres₂ : m₂.get m.next = some (.nodes n none) := Heap.get_set_self _ hres₁
  have hres₃ : m₃.get m.next = some (.nodes n none) := by
    rw [Heap.get_alloc_of_lt _ (Heap.lt_next hres₂), hres₂]
  have harray : m₃.get m₂.next = some (.pointers (List.replicate n none)) :=
    Heap.get_alloc_self _ _
  have hne : m₂.next ≠ m.next := (Heap.lt_next hres₂).ne'
  refine ⟨m₃.set m.next (.nodes n (some m₂.next)), m₂.next, ?_, ?_, Heap.get_set_self _ hres₃, ?_⟩
  · rw [newNodes, bind_of_ok (show new _ m = .ok (m.next, m₁) from rfl),
      bind_of_ok (setNodeCount_ok hres₁ hn),
      bind_of_ok (show new _ m₂ = .ok (m₂.next, m₃) from rfl),
      bind_of_ok (setElements_ok hres₃ _)]
    rfl
  · have hgrows := (Heap.Grows.alloc m (.nodes 0 none)).set (a := m.next) (by simp) (.nodes n none)
    have hgrows := hgrows.trans (Heap.Grows.alloc m₂ (.pointers (List.replicate n none)))
    exact (hgrows.set (by simp) _).perm (List.Perm.swap _ _ _)
  · rw [Heap.get_set_of_ne _ hne, harray]

/-- The array after `qs` have been stored; there is room for the rest. -/
def stored (qs : List Nat) (total : Nat) : List (Option Nat) :=
  qs.map some ++ List.replicate (total - qs.length) none

theorem lt_length_stored {qs : List Nat} {total : Nat} (hlt : qs.length < total) :
    qs.length < (stored qs total).length := by
  simp only [stored, List.length_append, List.length_map, List.length_replicate]
  omega

theorem set_stored {qs : List Nat} {total : Nat} (hlt : qs.length < total) (q : Nat) :
    (stored qs total).set qs.length (some q) = stored (qs ++ [q]) total := by
  obtain ⟨k, rfl⟩ := Nat.exists_eq_add_of_lt hlt
  rw [stored, stored, show qs.length + k + 1 - qs.length = k + 1 by omega, List.length_append,
    List.length_singleton, show qs.length + k + 1 - (qs.length + 1) = k by omega,
    List.replicate_succ, List.set_append_right _ _ (by simp)]
  simp

theorem getElem?_stored (qs : List Nat) (q total : Nat) :
    (stored (qs ++ [q]) total)[qs.length]? = some (some q) := by
  rw [stored, List.map_append, List.append_assoc, List.getElem?_append_right (by simp)]
  simp

theorem stored_length (qs : List Nat) : stored qs qs.length = qs.map some := by
  rw [stored, Nat.sub_self, List.replicate_zero, List.append_nil]

/-- The loop of an encoder has stored `qs` for `xs`. -/
structure Filling (R : Memory → Nat → α → List Nat → Prop) (m₀ m : Memory) (p array total : Nat)
    (qs : List Nat) (xs : List α) (fps : List Nat) : Prop where
  grows : Heap.Grows m₀ m ([array, p] ++ fps)
  table : Table m p array total (stored qs total)
  elements : IsElements R m qs xs fps

/-- One more element; what was there stays. -/
theorem Filling.add {total : Nat} (hf : Filling R m₀ m p array total qs xs fps) (hR : Local R)
    {q : Nat} {x : α} {fp : List Nat} (hgrows : Heap.Grows m₀ m' (([array, p] ++ fps) ++ fp))
    (hsame : ∀ a, a < m.next → a ≠ array → m'.get a = m.get a)
    (htable : Table m' p array total (stored (qs ++ [q]) total)) (hx : R m' q x fp) :
    Filling R m₀ m' p array total (qs ++ [q]) (xs ++ [x]) (fps ++ fp) := by
  have hnodup := hf.grows.nodup
  simp only [List.cons_append, List.nil_append, List.nodup_cons, List.mem_cons, not_or] at hnodup
  refine ⟨by rwa [← List.append_assoc], htable, ?_⟩
  refine (hf.elements.frame hR fun a ha => hsame a (hf.grows.lt_next (by simp [ha])) ?_).snoc hx
  rintro rfl
  exact hnodup.1.2 ha

theorem encodeElement_ok {total : Nat} {vec : List Bytes}
    (hf : Filling IsString m₀ m p array total qs vec fps) (hlt : qs.length < total) (s : Bytes) :
    ∃ m' q fp, encodeElement p qs.length s m = .ok ((), m') ∧
      Filling IsString m₀ m' p array total (qs ++ [q]) (vec ++ [s]) (fps ++ fp) := by
  obtain ⟨q, hq⟩ : ∃ q, q = m.next := ⟨_, rfl⟩
  have hplt : p < q := hq ▸ Heap.lt_next hf.table.head
  have harraylt : array < q := hq ▸ Heap.lt_next hf.table.cells
  have hcell := getElem?_stored qs q total
  -- the string, and then its pointer
  let m₁ : Memory := m.alloc (.chars (List.replicate (s.length + 1) none))
  have ht₁ : Table m₁ p array total _ := hf.table.alloc _
  let m₂ : Memory := m₁.set array (.pointers (stored (qs ++ [q]) total))
  have ht₂ : Table m₂ p array total _ := ht₁.setCells _
  have hq₂ : m₂.get q = some (.chars (List.replicate (s.length + 1) none)) := by
    rw [Heap.get_set_of_ne _ harraylt.ne', hq, Heap.get_alloc_self]
  -- its zeros, and then its bytes
  let m₃ : Memory := m₂.set q (.chars (List.replicate (s.length + 1) (some 0)))
  have ht₃ : Table m₃ p array total _ := ht₂.set hplt.ne' harraylt.ne' _
  have hq₃ : m₃.get q = some (.chars (List.replicate (s.length + 1) (some 0))) :=
    Heap.get_set_self _ hq₂
  refine ⟨m₃.set q (.chars (terminated s)), q, [q], ?_, ?_⟩
  · have hset := ht₁.setElement_ok (lt_length_stored hlt) q
    rw [set_stored hlt] at hset
    rw [encodeElement, bind_of_ok (show new _ m = .ok (q, m₁) by rw [hq]; rfl),
      bind_of_ok hset, bind_of_ok (reading_ok (ht₂.element_eq hcell)),
      bind_of_ok (memset_ok hq₂), bind_of_ok (reading_ok (ht₃.element_eq hcell))]
    exact memcpy_ok hq₃
  · refine hf.add local_isString ?_ ?_ (ht₃.set hplt.ne' harraylt.ne' _)
      ⟨rfl, Heap.get_set_self _ hq₃⟩
    · have hgrows := hf.grows.trans (Heap.Grows.alloc m
        (.chars (List.replicate (s.length + 1) none)))
      rw [← hq] at hgrows
      exact ((hgrows.set (by simp) _).set (by simp) _).set (by simp) _
    · intro a ha hna
      have haq : a ≠ q := by omega
      rw [Heap.get_set_of_ne _ haq, Heap.get_set_of_ne _ haq, Heap.get_set_of_ne _ hna,
        Heap.get_alloc_of_lt _ ha]

theorem encodePair_ok {total : Nat} {entries : List (Bytes × Int)}
    (hf : Filling IsPair m₀ m p array total qs entries fps) (hlt : qs.length < total)
    (entry : Bytes × Int) : ∃ m' q fp, encodePair p qs.length entry m = .ok ((), m') ∧
      Filling IsPair m₀ m' p array total (qs ++ [q]) (entries ++ [entry]) (fps ++ fp) := by
  obtain ⟨str, party⟩ := entry
  obtain ⟨q, hq⟩ : ∃ q, q = m.next := ⟨_, rfl⟩
  have hplt : p < q := hq ▸ Heap.lt_next hf.table.head
  have harraylt : array < q := hq ▸ Heap.lt_next hf.table.cells
  have hcell := getElem?_stored qs q total
  -- the pair, and then its pointer
  let m₁ : Memory := m.alloc (.pair none 0)
  have ht₁ : Table m₁ p array total _ := hf.table.alloc _
  let m₂ : Memory := m₁.set array (.pointers (stored (qs ++ [q]) total))
  have ht₂ : Table m₂ p array total _ := ht₁.setCells _
  have hq₂ : m₂.get q = some (.pair none 0) := by
    rw [Heap.get_set_of_ne _ harraylt.ne', hq, Heap.get_alloc_self]
  -- the string, and then its pointer
  obtain ⟨c, hc⟩ : ∃ c, c = m₂.next := ⟨_, rfl⟩
  have hqc : q < c := hc ▸ Heap.lt_next hq₂
  let m₃ : Memory := m₂.alloc (.chars (List.replicate (str.length + 1) none))
  have ht₃ : Table m₃ p array total _ := ht₂.alloc _
  have hq₃ : m₃.get q = some (.pair none 0) := by
    rw [Heap.get_alloc_of_lt _ (Heap.lt_next hq₂), hq₂]
  have hc₃ : m₃.get c = some (.chars (List.replicate (str.length + 1) none)) :=
    hc ▸ Heap.get_alloc_self _ _
  let m₄ : Memory := m₃.set q (.pair (some c) 0)
  have ht₄ : Table m₄ p array total _ := ht₃.set hplt.ne' harraylt.ne' _
  have hq₄ : m₄.get q = some (.pair (some c) 0) := Heap.get_set_self _ hq₃
  have hc₄ : m₄.get c = some (.chars (List.replicate (str.length + 1) none)) := by
    rw [Heap.get_set_of_ne _ hqc.ne', hc₃]
  -- its zeros, and then its bytes
  have hpc : c ≠ p := (hplt.trans hqc).ne'
  have harrayc : c ≠ array := (harraylt.trans hqc).ne'
  let m₅ : Memory := m₄.set c (.chars (List.replicate (str.length + 1) (some 0)))
  have ht₅ : Table m₅ p array total _ := ht₄.set hpc harrayc _
  have hq₅ : m₅.get q = some (.pair (some c) 0) := by rw [Heap.get_set_of_ne _ hqc.ne, hq₄]
  have hc₅ : m₅.get c = some (.chars (List.replicate (str.length + 1) (some 0))) :=
    Heap.get_set_self _ hc₄
  let m₆ : Memory := m₅.set c (.chars (terminated str))
  have ht₆ : Table m₆ p array total _ := ht₅.set hpc harrayc _
  have hq₆ : m₆.get q = some (.pair (some c) 0) := by rw [Heap.get_set_of_ne _ hqc.ne, hq₅]
  have hc₆ : m₆.get c = some (.chars (terminated str)) := Heap.get_set_self _ hc₅
  refine ⟨m₆.set q (.pair (some c) party), q, [c, q], ?_, ?_⟩
  · have hset := ht₁.setElement_ok (lt_length_stored hlt) q
    rw [set_stored hlt] at hset
    rw [encodePair, bind_of_ok (show new _ m = .ok (q, m₁) by rw [hq]; rfl),
      bind_of_ok hset, bind_of_ok (show new _ m₂ = .ok (c, m₃) by rw [hc]; rfl),
      bind_of_ok (reading_ok (ht₃.element_eq hcell)),
      bind_of_ok (setNodeId_ok hq₃ c),
      bind_of_ok (reading_ok (ht₄.element_eq hcell)),
      bind_of_ok (reading_ok (nodeId_eq hq₄)), bind_of_ok (memset_ok hc₄),
      bind_of_ok (reading_ok (ht₅.element_eq hcell)),
      bind_of_ok (reading_ok (nodeId_eq hq₅)), bind_of_ok (memcpy_ok hc₅),
      bind_of_ok (reading_ok (ht₆.element_eq hcell))]
    exact setPartyId_ok hq₆ party
  · refine hf.add local_isPair ?_ ?_ (ht₆.set hplt.ne' harraylt.ne' _)
      ⟨c, rfl, Heap.get_set_self _ hq₆, ?_⟩
    · have hgrows := (hf.grows.trans (Heap.Grows.alloc m (.pair none 0))).set (a := array) (by simp)
        (.pointers (stored (qs ++ [q]) total))
      have hgrows := hgrows.trans (Heap.Grows.alloc m₂
        (.chars (List.replicate (str.length + 1) none)))
      rw [← hq, ← hc, List.append_assoc] at hgrows
      have hgrows := ((((hgrows.set (a := q) (by simp) (.pair (some c) 0)).set (a := c) (by simp)
        (.chars (List.replicate (str.length + 1) (some 0)))).set (a := c) (by simp)
        (.chars (terminated str))).set (a := q) (by simp) (.pair (some c) party))
      exact hgrows.perm (List.Perm.append_left _ (List.Perm.swap _ _ _))
    · intro a ha hna
      have haq : a ≠ q := by omega
      have hac : a ≠ c := by omega
      have hold : m₃.get a = m₂.get a := Heap.get_alloc_of_lt _ (by omega)
      rw [Heap.get_set_of_ne _ haq, Heap.get_set_of_ne _ hac, Heap.get_set_of_ne _ hac,
        Heap.get_set_of_ne _ haq, hold, Heap.get_set_of_ne _ hna, Heap.get_alloc_of_lt _ ha]
    · rw [Heap.get_set_of_ne _ hqc.ne', hc₆]

/-- The loop goes through the elements, if the counter lasts. -/
theorem forEach_ok {body : Nat → α → Writing Unit} {total : Nat} (htotal : total < 2 ^ 31)
    (hbody : ∀ {m qs xs fps}, Filling R m₀ m p array total qs xs fps → qs.length < total → ∀ x,
      ∃ m' q fp, body qs.length x m = .ok ((), m') ∧
        Filling R m₀ m' p array total (qs ++ [q]) (xs ++ [x]) (fps ++ fp))
    (ys : List α) (hf : Filling R m₀ m p array total qs xs fps)
    (hlen : qs.length + ys.length = total) :
    ∃ m' qs' fps', forEach body qs.length ys m = .ok ((), m') ∧
      Filling R m₀ m' p array total qs' (xs ++ ys) fps' := by
  induction ys generalizing m qs xs fps with
  | nil => exact ⟨m, qs, fps, rfl, by rwa [List.append_nil]⟩
  | cons y ys ih =>
    rw [List.length_cons] at hlen
    obtain ⟨m₁, q, fp, hround, hf₁⟩ := hbody hf (by omega) y
    obtain ⟨m', qs', fps', hrest, hf'⟩ := ih hf₁ (by
      rw [List.length_append, List.length_singleton]
      omega)
    refine ⟨m', qs', fps', ?_, ?_⟩
    · rw [forEach, bind_of_ok hround,
        bind_of_ok (reading_ok (if_pos (show qs.length + 1 < 2 ^ 31 by omega)))]
      rw [List.length_append, List.length_singleton] at hrest
      exact hrest
    · rwa [List.append_assoc] at hf'

/-- A whole structure. -/
theorem encodeNodes_ok {body : Nat → Nat → α → Writing Unit} {xs : List α}
    (hlen : xs.length < 2 ^ 31)
    (hbody : ∀ {m₀ m p array total qs xs fps}, Filling R m₀ m p array total qs xs fps →
      qs.length < total → ∀ x, ∃ m' q fp, body p qs.length x m = .ok ((), m') ∧
        Filling R m₀ m' p array total (qs ++ [q]) (xs ++ [x]) (fps ++ fp)) (m : Memory) :
    ∃ m' fp, (newNodes xs.length >>= fun res => do forEach (body res) 0 xs; return res) m =
      .ok (m.next, m') ∧ Heap.Grows m m' fp ∧ IsNodes R m' m.next xs fp := by
  obtain ⟨m₁, array, hnew, hgrows, htable⟩ := newNodes_ok hlen m
  have hstart : Filling R m m₁ m.next array xs.length [] [] [] := ⟨hgrows, htable, .nil⟩
  obtain ⟨m', qs, fps, hloop, hf⟩ := forEach_ok hlen hbody xs hstart (Nat.zero_add _)
  rw [List.nil_append] at hf
  have htable' := hf.table
  rw [← hf.elements.length_eq, stored_length, hf.elements.length_eq] at htable'
  refine ⟨m', fps ++ [array, m.next], ?_, hf.grows.perm List.perm_append_comm, array, qs, fps, rfl,
    htable', hf.elements⟩
  rw [List.length_nil] at hloop
  rw [bind_of_ok hnew, bind_of_ok hloop]
  rfl

theorem encodeVector_ok {vec : List Bytes} (hlen : vec.length < 2 ^ 31) (m : Memory) :
    ∃ m' fp, encodeVector vec m = .ok (m.next, m') ∧ Heap.Grows m m' fp ∧
      IsNodes IsString m' m.next vec fp :=
  encodeNodes_ok hlen encodeElement_ok m

theorem encodeMap_ok {nodes : Std.TreeMap Bytes Int} (hlen : nodes.size < 2 ^ 31) (m : Memory) :
    ∃ m' fp, encodeMap nodes m = .ok (m.next, m') ∧ Heap.Grows m m' fp ∧
      IsNodes IsPair m' m.next nodes.toList fp := by
  rw [encodeMap, ← Std.TreeMap.length_toList]
  rw [← Std.TreeMap.length_toList] at hlen
  exact encodeNodes_ok hlen encodePair_ok m

theorem lt_of_forEach {body : Nat → α → Writing Unit} {i : Nat} {ys : List α} {r : Unit × Memory}
    (h : forEach body i ys m = .ok r) : ys = [] ∨ i + ys.length < 2 ^ 31 := by
  induction ys generalizing i m with
  | nil => exact Or.inl rfl
  | cons y ys ih =>
    obtain ⟨_, m₁, -, h⟩ := bind_eq_ok.mp h
    obtain ⟨_, m₂, hcount, h⟩ := bind_eq_ok.mp h
    obtain ⟨_, hi, -⟩ := Exec.bind_eq_ok.mp hcount
    split at hi
    · next hlt =>
      right
      rw [List.length_cons]
      rcases ih h with rfl | hlen
      · exact hlt
      · omega
    · cases hi

/-- What has been encoded has a size that fits. -/
theorem length_of_encodeVector {vec : List Bytes} {r : Nat × Memory}
    (h : encodeVector vec m = .ok r) : vec.length < 2 ^ 31 := by
  obtain ⟨res, m₁, -, h⟩ := bind_eq_ok.mp h
  obtain ⟨_, m₂, hloop, -⟩ := bind_eq_ok.mp h
  rcases lt_of_forEach hloop with rfl | hlen
  · exact Nat.two_pow_pos 31
  · rwa [Nat.zero_add] at hlen

end Encoding

end Rosetta

import Mathlib.Data.List.Induction
import Rosetta.Channel.Encode
import Rosetta.Config.Basic

/-!
# `channel_decode.h`

What the caller of a getter reads. The length of a string is what `strlen` finds, and that of a list
is the count in the structure.

* `decodeString`, `decodeVector`, `decodeMap`
* `IsNodes.decodeVector`, `IsNodes.decodeMap` — what they read from a structure in memory
* `decode_encode` — what is encoded is decoded
-/

namespace Rosetta

open Lib Writing

def strlen : List (Option UInt8) → Exec Nat
  | some c :: cells => if c = 0 then .ok 0 else do .ok ((← strlen cells) + 1)
  | _ => .error .outOfBounds

def decodeString (m : Memory) (pointer : Nat) : Exec Bytes := do
  let cells ← m.chars pointer
  let n ← strlen cells
  (cells.take n).mapM written

def decodeVector (m : Memory) (pointer : Nat) : Exec (List Bytes) := do
  let nodeCount ← m.nodeCount pointer
  -- `resize` takes a `size_t`
  if nodeCount < 0 then .error .lengthError
  else (List.range nodeCount.toNat).mapM fun i => do decodeString m (← m.element pointer i)

def decodeMap (m : Memory) (pointer : Nat) : Exec (Std.TreeMap Bytes Int) := do
  let nodeCount ← m.nodeCount pointer
  (List.range nodeCount.toNat).foldlM (fun res i => do
      let pair ← m.element pointer i
      let nodeId ← decodeString m (← m.nodeId pair)
      let partyId ← m.partyId pair
      .ok (res.insertIfNew nodeId partyId))
    ∅

/-! ## Decoding -/

section Decoding

variable {m : Memory} {p : Nat} {fp : List Nat}

theorem strlen_terminated (s : Bytes) : strlen (terminated s) = .ok (cString s).length := by
  induction s with
  | nil => rfl
  | cons c s ih =>
    show strlen (some c :: terminated s) = _
    by_cases hc : c = 0
    · rw [strlen, if_pos hc, cString, List.takeWhile_cons_of_neg (by simp [hc])]
      rfl
    · have hcons : cString (c :: s) = c :: cString s := List.takeWhile_cons_of_pos (by simp [hc])
      rw [strlen, if_neg hc, ih, hcons]
      rfl

theorem mapM_written (s : Bytes) : (s.map some).mapM written = .ok s := by
  induction s with
  | nil => rfl
  | cons c s ih =>
    rw [List.map_cons, List.mapM_cons, ih]
    rfl

/-- A string is read to its first NUL. -/
theorem IsString.decode {s : Bytes} (h : IsString m p s fp) :
    decodeString m p = .ok (cString s) := by
  have hchars : m.chars p = .ok (terminated s) := by rw [Memory.chars, h.2]
  have hprefix : cString s <+: s := List.takeWhile_prefix _
  have htake : (terminated s).take (cString s).length = (cString s).map some := by
    rw [terminated, List.take_append_of_le_length (by simpa using hprefix.length_le),
      ← List.map_take, ← List.prefix_iff_eq_take.mp hprefix]
  rw [decodeString, hchars, Exec.ok_bind, strlen_terminated, Exec.ok_bind, htake, mapM_written]

theorem mapM_range {β : Type} {f : Nat → Exec β} {ys : List β}
    (h : ∀ i (hi : i < ys.length), f i = .ok ys[i]) : (List.range ys.length).mapM f = .ok ys := by
  induction ys using List.reverseRecOn with
  | nil => rfl
  | append_singleton ys y ih =>
    have hinit := ih fun i hi => by
      rw [h i (by simp; omega), List.getElem_append_left hi]
    have hlast := h ys.length (by simp)
    rw [List.getElem_concat_length rfl] at hlast
    rw [List.length_append, List.length_singleton, List.range_succ, List.mapM_append, hinit]
    simp [hlast]

theorem foldlM_range {β γ : Type} {f : γ → Nat → Exec γ} {g : γ → β → γ} {ys : List β}
    (h : ∀ i (hi : i < ys.length) acc, f acc i = .ok (g acc ys[i])) (acc : γ) :
    (List.range ys.length).foldlM f acc = .ok (ys.foldl g acc) := by
  induction ys using List.reverseRecOn with
  | nil => rfl
  | append_singleton ys y ih =>
    have hinit := ih fun i hi acc => by
      rw [h i (by simp; omega), List.getElem_append_left hi]
    have hlast := h ys.length (by simp) (ys.foldl g acc)
    rw [List.getElem_concat_length rfl] at hlast
    rw [List.length_append, List.length_singleton, List.range_succ, List.foldlM_append, hinit,
      List.foldl_append]
    simp [hlast]

theorem IsNodes.decodeVector {vec : List Bytes} (h : IsNodes IsString m p vec fp) :
    decodeVector m p = .ok (vec.map cString) := by
  have helem : ∀ i (hi : i < (vec.map cString).length),
      (do decodeString m (← m.element p i) : Exec Bytes) = .ok (vec.map cString)[i] := by
    intro i hi
    rw [List.length_map] at hi
    obtain ⟨q, fpx, hq, hx⟩ := h.element hi
    rw [hq, Exec.ok_bind, hx.decode, List.getElem_map]
  have hloop := mapM_range helem
  rw [List.length_map] at hloop
  rw [Rosetta.decodeVector, h.nodeCount, Exec.ok_bind, if_neg (by omega), Int.toNat_natCast, hloop]

/-- The entries of a list are inserted into a map, the first one of each key. -/
def insertAll (entries : List (Bytes × Int)) (res : Std.TreeMap Bytes Int) :
    Std.TreeMap Bytes Int :=
  entries.foldl (fun res e => res.insertIfNew e.1 e.2) res

theorem IsNodes.decodeMap {entries : List (Bytes × Int)} (h : IsNodes IsPair m p entries fp) :
    decodeMap m p = .ok (insertAll (entries.map fun e => (cString e.1, e.2)) ∅) := by
  rw [Rosetta.decodeMap, h.nodeCount, Exec.ok_bind, Int.toNat_natCast, insertAll, List.foldl_map]
  refine foldlM_range (g := fun (res : Std.TreeMap Bytes Int) (e : Bytes × Int) =>
    res.insertIfNew (cString e.1) e.2) (fun i hi res => ?_) ∅
  obtain ⟨q, fpx, hq, chars, -, hpair, hchars⟩ := h.element hi
  have hstring : IsString m chars entries[i].1 [chars] := ⟨rfl, hchars⟩
  have hparty : m.partyId q = .ok entries[i].2 := by rw [Memory.partyId, hpair]
  rw [hq, Exec.ok_bind, nodeId_eq hpair, Exec.ok_bind, hstring.decode, Exec.ok_bind, hparty]
  rfl

end Decoding

/-! ## Nothing is lost -/

section Lossless

variable {m m' : Memory} {p q : Nat}

theorem getElem?_insertAll {entries : List (Bytes × Int)}
    (hkeys : entries.Pairwise fun e e' => ¬ compare e.1 e'.1 = .eq) {res : Std.TreeMap Bytes Int}
    (hnew : ∀ e ∈ entries, e.1 ∉ res) (k : Bytes) (v : Int) :
    (insertAll entries res)[k]? = some v ↔ res[k]? = some v ∨ (k, v) ∈ entries := by
  induction entries generalizing res with
  | nil => simp [insertAll]
  | cons e entries ih =>
    obtain ⟨hfirst, hrest⟩ := List.pairwise_cons.mp hkeys
    have he := hnew e List.mem_cons_self
    have hnew' : ∀ e' ∈ entries, e'.1 ∉ res.insertIfNew e.1 e.2 := by
      intro e' he' hmem
      rcases Std.TreeMap.mem_insertIfNew.mp hmem with heq | hold
      · exact hfirst e' he' heq
      · exact hnew e' (List.mem_cons_of_mem _ he') hold
    rw [insertAll, List.foldl_cons, ← insertAll, ih hrest hnew', Std.TreeMap.getElem?_insertIfNew,
      List.mem_cons]
    by_cases hk : e.1 = k
    · subst hk
      rw [if_pos ⟨Std.compare_eq_iff_eq.mpr rfl, he⟩]
      have hnone : res[e.1]? = none := Std.TreeMap.getElem?_eq_none he
      simp only [hnone, Option.some.injEq, reduceCtorEq, false_or, Prod.ext_iff, true_and,
        @eq_comm _ v]
    · rw [if_neg fun h => hk (Std.compare_eq_iff_eq.mp h.1)]
      have hne : (k, v) ≠ e := by
        rintro rfl
        exact hk rfl
      simp only [hne, false_or]

/-- The order of a map survives that its entries are inserted again. -/
theorem toList_insertAll (nodes : Std.TreeMap Bytes Int) :
    (insertAll nodes.toList ∅).toList = nodes.toList := by
  refine Std.TreeMap.equiv_iff_toList_eq.mp (.of_forall_constGet?_eq fun k => ?_)
  refine Option.ext fun v => ?_
  have hnew : ∀ e ∈ nodes.toList, e.1 ∉ (∅ : Std.TreeMap Bytes Int) := by simp
  have hget := getElem?_insertAll nodes.distinct_keys_toList hnew k v
  rw [Std.TreeMap.mem_toList_iff_getElem?_eq_some] at hget
  simpa using hget

/-- The same count, and at every place elements that are the `same`. -/
def EqualNodes (same : Nat → Nat → Prop) (m : Memory) (p q : Nat) : Prop :=
  ∃ n : Nat, m.nodeCount p = .ok n ∧ m.nodeCount q = .ok n ∧
    ∀ i < n, ∃ a b, m.element p i = .ok a ∧ m.element q i = .ok b ∧ same a b

/-- The same C string. -/
def SameString (m : Memory) (a b : Nat) : Prop :=
  ∃ s, decodeString m a = .ok s ∧ decodeString m b = .ok s

/-- The same cells, from the first one to the last. -/
def SameChars (m : Memory) (a b : Nat) : Prop :=
  ∃ cells, m.chars a = .ok cells ∧ m.chars b = .ok cells

theorem IsNodes.equalNodes {same : Nat → Nat → Prop} {vec vec' : List Bytes} {fp fp' : List Nat}
    (h : IsNodes IsString m p vec fp) (h' : IsNodes IsString m q vec' fp')
    (hlen : vec.length = vec'.length)
    (hsame : ∀ i (hi : i < vec.length) (hi' : i < vec'.length) a b fpa fpb,
      IsString m a vec[i] fpa → IsString m b vec'[i] fpb → same a b) :
    EqualNodes same m p q := by
  refine ⟨vec.length, h.nodeCount, by rw [h'.nodeCount, hlen], fun i hi => ?_⟩
  obtain ⟨a, fpa, ha, hxa⟩ := h.element hi
  obtain ⟨b, fpb, hb, hxb⟩ := h'.element (hlen ▸ hi)
  exact ⟨a, b, ha, hb, hsame i hi _ a b fpa fpb hxa hxb⟩

/-- What has been decoded is encoded as it was. -/
theorem reencode {vec : List Bytes} (h : encodeVector vec m = .ok (p, m')) :
    ∃ vec' q m'', decodeVector m' p = .ok vec' ∧ encodeVector vec' m' = .ok (q, m'') ∧
      EqualNodes (SameString m'') m'' p q ∧
      ((∀ s ∈ vec, 0 ∉ s) → EqualNodes (SameChars m'') m'' p q) := by
  have hlen := length_of_encodeVector h
  obtain ⟨m₁, fp, hvec, hgrows, hnodes⟩ := encodeVector_ok hlen m
  rw [h] at hvec
  obtain ⟨rfl, rfl⟩ := Prod.mk.inj (Except.ok.inj hvec)
  have hlen' : (vec.map cString).length < 2 ^ 31 := by rwa [List.length_map]
  obtain ⟨m'', fp', hvec', hgrows', hnodes'⟩ := encodeVector_ok hlen' m'
  have hold : IsNodes IsString m'' m.next vec fp := by
    refine local_isString.isNodes hnodes fun a ha => ?_
    obtain ⟨b, hb⟩ := Option.isSome_iff_exists.mp (hgrows.live a ha)
    rw [hgrows'.get_of_some hb, hb]
  have hmap : vec.length = (vec.map cString).length := (List.length_map _).symm
  refine ⟨vec.map cString, m'.next, m'', hnodes.decodeVector, hvec', ?_, fun hfree => ?_⟩
  · refine hold.equalNodes hnodes' hmap fun i hi hi' a b fpa fpb ha hb =>
      ⟨cString vec[i], ha.decode, ?_⟩
    rw [hb.decode, List.getElem_map, cString_of_not_mem (not_mem_cString _)]
  · refine hold.equalNodes hnodes' hmap fun i hi hi' a b fpa fpb ha hb =>
      ⟨terminated vec[i], ?_, ?_⟩
    · rw [Memory.chars, ha.2]
    · rw [Memory.chars, hb.2, List.getElem_map, cString_of_not_mem (hfree _ (List.getElem_mem hi))]

theorem map_cString {vec : List Bytes} (h : ∀ s ∈ vec, 0 ∉ s) : vec.map cString = vec := by
  rw [List.map_congr_left fun s hs => cString_of_not_mem (h s hs), List.map_id']

/-- What `decode_map` makes of the entries of a map. -/
theorem toList_decoded {nodes : Std.TreeMap Bytes Int} (h : ∀ s ∈ nodes, 0 ∉ s) :
    (insertAll (nodes.toList.map fun e => (cString e.1, e.2)) ∅).toList = nodes.toList := by
  have hsame : nodes.toList.map (fun e => (cString e.1, e.2)) = nodes.toList.map id := by
    refine List.map_congr_left fun e he => ?_
    have hmem : e.1 ∈ nodes := by
      rw [Std.TreeMap.mem_iff_isSome_getElem?, Std.TreeMap.mem_toList_iff_getElem?_eq_some.mp he]
      rfl
    rw [cString_of_not_mem (h e.1 hmem)]
    rfl
  rw [hsame, List.map_id, toList_insertAll]

/--
**Nothing is lost in the C structures**: strings without a NUL come back as they were, with their
order and with what stands twice, and so do the entries of a map. What was decoded is encoded again
to an equal structure.
-/
theorem decode_encode (m : Memory) :
    (∀ vec : List Bytes, vec.length < 2 ^ 31 → (∀ s ∈ vec, 0 ∉ s) →
      ∃ p m', encodeVector vec m = .ok (p, m') ∧ decodeVector m' p = .ok vec) ∧
    (∀ nodes : Std.TreeMap Bytes Int, nodes.size < 2 ^ 31 → (∀ s ∈ nodes, 0 ∉ s) →
      ∃ p m' nodes', encodeMap nodes m = .ok (p, m') ∧ decodeMap m' p = .ok nodes' ∧
        nodes'.toList = nodes.toList) ∧
    (∀ vec p m', encodeVector vec m = .ok (p, m') →
      ∃ vec' q m'', decodeVector m' p = .ok vec' ∧ encodeVector vec' m' = .ok (q, m'') ∧
        EqualNodes (SameString m'') m'' p q ∧
        ((∀ s ∈ vec, 0 ∉ s) → EqualNodes (SameChars m'') m'' p q)) := by
  refine ⟨?_, ?_, fun vec p m' => reencode⟩
  · intro vec hlen hfree
    obtain ⟨m', fp, hvec, -, hnodes⟩ := encodeVector_ok hlen m
    exact ⟨m.next, m', hvec, by rw [hnodes.decodeVector, map_cString hfree]⟩
  · intro nodes hlen hfree
    obtain ⟨m', fp, hmap, -, hnodes⟩ := encodeMap_ok hlen m
    exact ⟨m.next, m', _, hmap, hnodes.decodeMap, toList_decoded hfree⟩

/-- A list with a string twice and an empty one, and a map. -/
theorem decode_encode_small :
    (∃ p m', encodeVector [[97], [], [97]] Heap.empty = .ok (p, m') ∧
      decodeVector m' p = .ok [[97], [], [97]]) ∧
    ∃ nodes : Std.TreeMap Bytes Int, nodes.toList = [([97], 1), ([98], -7)] ∧
      ∃ p m' nodes', encodeMap nodes Heap.empty = .ok (p, m') ∧ decodeMap m' p = .ok nodes' ∧
        nodes'.toList = nodes.toList := by
  obtain ⟨hvec, hmap, -⟩ := decode_encode Heap.empty
  refine ⟨hvec _ (by decide) (by decide), (Std.TreeMap.empty.insert [98] (-7)).insert [97] 1, ?_,
    hmap _ ?_ ?_⟩
  · decide
  · decide
  · intro s hs
    simp only [Std.TreeMap.mem_insert, Std.compare_eq_iff_eq] at hs
    rcases hs with rfl | rfl | hs
    · decide
    · decide
    · simp at hs

end Lossless

end Rosetta

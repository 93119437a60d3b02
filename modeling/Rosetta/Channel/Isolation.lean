import Rosetta.Channel.Streams

/-!
# What keeps the messages of channels apart

* `hexId_recv` — ids in the documented hex format keep messages apart, up to the case of letters
* `task_recv` — the messages of a task stay with the task, as long as the uses of one wire id do not
  overlap
-/

namespace Rosetta

open Lib CycleBuffer

/-! ## Hex ids -/

namespace Origin

/-- A message id of the documented form; the ids of the lock bytes are not packed. -/
def Hex : Origin → Prop
  | .user _ id => HexId id ∧ id.length < 2 ^ 31
  | .lock _ => True

/-- The id is `a` up to the case of letters, or packed `a` happens to be the id of a lock byte. -/
def Spells (a : Bytes) : Origin → Prop
  | .user _ id => id.map toLower = a.map toLower
  | .lock task => lockId task = pack a

instance (a : Bytes) : DecidablePred (Spells a)
  | .user _ _ => inferInstanceAs (Decidable (_ = _))
  | .lock _ => inferInstanceAs (Decidable (_ = _))

theorem wire_of_hexId {task id : Bytes} (h : HexId id) (hlen : id.length < 2 ^ 31) :
    (user task id).wire = pack id := wire_eq (getString_eq h hlen)

theorem wire_eq_pack_iff {a : Bytes} (ha : HexId a) : ∀ {o : Origin}, o.Hex →
    (o.wire = pack a ↔ o.Spells a)
  | .user task id, h => by
    rw [wire_of_hexId h.1 h.2, pack_eq_iff h.1 ha]
    rfl
  | .lock task, _ => Iff.rfl

/-- The frame can be read back. -/
def Sendable (o : Origin) (data : Bytes) : Prop :=
  o.wire.length ≤ 254 ∧ (o.wire ≠ [] ∨ data ≠ [])

instance (o : Origin) (data : Bytes) : Decidable (o.Sendable data) :=
  inferInstanceAs (Decidable (_ ∧ _))

end Origin

/-- Hex ids whose wire id has at most 254 bytes, and no message without id and data; and task ids
that leave as much for the ids of the lock bytes. -/
def ChanAct.Hex : ChanAct → Prop
  | .send _ id data => HexId id ∧ id.length ≤ 508 ∧ (id ≠ [] ∨ data ≠ [])
  | .recv _ call => HexId call.id ∧ call.id.length < 2 ^ 31
  | .start task => task.length ≤ 249
  | .stop _ => True
  | .conn _ => True

instance : DecidablePred ChanAct.Hex
  | .send _ _ _ => inferInstanceAs (Decidable (_ ∧ _ ∧ _))
  | .recv _ _ => inferInstanceAs (Decidable (_ ∧ _))
  | .start _ => inferInstanceAs (Decidable (_ ≤ _))
  | .stop _ => isTrue trivial
  | .conn _ => isTrue trivial

theorem pack_ne_nil {id : Bytes} (h : HexId id) (hne : id ≠ []) : pack id ≠ [] := by
  have hpos := List.length_pos_iff.mpr hne
  have heven := h.2
  refine List.length_pos_iff.mp ?_
  rw [length_pack]
  omega

namespace Streams

variable {s s' : Streams}

structure HexLogs (s : Streams) : Prop where
  labelled : Labelled s
  sent : ∀ m ∈ s.sent, m.1.Hex
  received : ∀ m ∈ s.received, m.1.Hex

theorem HexLogs.put (h : HexLogs s) {o : Origin} {data : Bytes} (ho : o.Hex)
    (hid : o.wire.length ≤ 254) (hne : o.wire ≠ [] ∨ data ≠ []) (hs : s.put o data = .ok s') :
    HexLogs s' := by
  obtain ⟨hl, hsent, hreceived⟩ := put_ok h.labelled hid hne hs
  refine ⟨hl, ?_, by rw [hreceived]; exact h.received⟩
  intro m hm
  rw [hsent] at hm
  rcases List.mem_append.mp hm with hm | hm
  · exact h.sent m hm
  · rw [List.mem_singleton.mp hm]
    exact ho

theorem HexLogs.get (h : HexLogs s) {o : Origin} {call : RecvCall} (ho : o.Hex)
    (hs : s.get o call = .ok s') : HexLogs s' := by
  obtain ⟨data, hl, hsent, hreceived⟩ := get_ok h.labelled hs
  refine ⟨hl, by rw [hsent]; exact h.sent, ?_⟩
  intro m hm
  rw [hreceived] at hm
  rcases List.mem_append.mp hm with hm | hm
  · exact h.received m hm
  · rw [List.mem_singleton.mp hm]
    exact ho

theorem hexLogs_step (s : Streams) (a : ChanAct) (s' : Streams) (h : HexLogs s) (ha : a.Hex)
    (hs : s.step a = some s') : HexLogs s' := by
  have hs : s.exec a = .ok s' := Exec.toOption_eq_some.mp hs
  cases a with
  | send task id data =>
    obtain ⟨hhex, hlen, hne⟩ := ha
    have hwire : (Origin.user task id).wire = pack id := Origin.wire_of_hexId hhex (by omega)
    refine h.put (o := .user task id) ⟨hhex, by omega⟩ ?_ ?_ hs
    · rw [hwire, length_pack]
      omega
    · rw [hwire]
      exact hne.imp_left (pack_ne_nil hhex)
  | recv task call => exact h.get (o := .user task call.id) ha hs
  | start task =>
    have hlen := length_lockId task
    have htask : task.length ≤ 249 := ha
    refine h.put (o := .lock task) trivial ?_ (Or.inl (lockId_ne_nil task)) hs
    show (lockId task).length ≤ 254
    omega
  | stop task => exact h.get (o := .lock task) trivial hs
  | conn a =>
    obtain ⟨hl, hsent, hreceived⟩ := conn_ok h.labelled hs
    exact ⟨hl, by rw [hsent]; exact h.sent, by rw [hreceived]; exact h.received⟩

theorem HexLogs.prefix_sent (h : HexLogs s) {a : Bytes} (ha : HexId a) :
    dataWhere (Origin.Spells a) s.received <+: dataWhere (Origin.Spells a) s.sent := by
  have hreceived : dataWhere (fun o => o.wire = pack a) s.received
      = dataWhere (Origin.Spells a) s.received :=
    dataWhere_congr fun m hm => Origin.wire_eq_pack_iff ha (h.received m hm)
  have hsent : dataWhere (fun o => o.wire = pack a) s.sent
      = dataWhere (Origin.Spells a) s.sent :=
    dataWhere_congr fun m hm => Origin.wire_eq_pack_iff ha (h.sent m hm)
  rw [← hreceived, ← hsent]
  exact (List.prefix_append _ _).trans (h.labelled.fifo (pack a))

theorem hexLogs_new (hnew : Streams.new = .ok s) : HexLogs s := by
  refine ⟨labelled_new hnew, ?_, ?_⟩
  · rw [(logs_new hnew).1]
    exact fun m hm => absurd hm List.not_mem_nil
  · rw [(logs_new hnew).2]
    exact fun m hm => absurd hm List.not_mem_nil

/--
**Hex ids keep messages apart, up to the case of letters.**

The wire id of any id of even length can be computed without an index outside the strings. Those of
hex ids differ when the ids differ in more than the case of letters; and in a run in which all ids
are hex, of at most 508 digits where something is sent, and no task with an id of more than 249
bytes sends its lock byte, the bytes received with an id are the first that were sent with it.
-/
theorem hexId_recv :
    (∀ id, (cString id).length % 2 = 0 → (cString id).length < 2 ^ 31 →
      getString id = .ok (pack (cString id))) ∧
    ∀ a, HexId a → a.length < 2 ^ 31 →
      (∀ b, HexId b → b.length < 2 ^ 31 →
        (getString a = getString b ↔ a.map toLower = b.map toLower)) ∧
      ∀ s₀ acts s, Streams.new = .ok s₀ → (∀ x ∈ acts, ChanAct.Hex x) →
        run step s₀ acts = some s →
        dataWhere (Origin.Spells a) s.received <+: dataWhere (Origin.Spells a) s.sent := by
  refine ⟨fun id heven hlen => getString_of_even heven hlen, fun a ha hla => ⟨?_, ?_⟩⟩
  · exact fun b hb hlb => getString_eq_iff ha hla hb hlb
  · intro s₀ acts s hnew hacts hrun
    have h : HexLogs s :=
      run_invariant_of hexLogs_step (hexLogs_new hnew) (allSteps_of_forall hacts s₀) hrun
    exact h.prefix_sent ha

/-- The id `config str` has a wire id. Task `t` sends with the ids `0a` and `FF`, task `u` receives
with `0A`. -/
theorem hexId_recv_small :
    getString (chars "config str") = .ok (pack (chars "config str")) ∧
    (getString [48, 97] = getString [48, 65] ↔ [48, 97].map toLower = [48, 65].map toLower) ∧
    ∃ s₀ acts s, Streams.new = .ok s₀ ∧ (∀ x ∈ acts, ChanAct.Hex x) ∧
      run step s₀ acts = some s ∧ s.received = [(.user [117] [48, 65], [7])] ∧
      dataWhere (Origin.Spells [48, 97]) s.received <+:
        dataWhere (Origin.Spells [48, 97]) s.sent := by
  obtain ⟨acts, hacts, s₀, hnew, hview⟩ : ∃ acts : List ChanAct, (∀ x ∈ acts, x.Hex) ∧
      ∃ s₀, Streams.new = .ok s₀ ∧ (run step s₀ acts).map (fun s => s.received)
        = some [(.user [117] [48, 65], [7])] :=
    ⟨[.send [116] [48, 97] [7, 8], .send [116] [70, 70] [9], .conn (.sendStart [116]),
      .conn .drain, .conn .flush, .conn (.deliver 23), .conn (.recvStart [117]), .conn .take,
      .conn .store, .recv [117] ⟨[48, 65], 1, -1, .invalid, 0⟩], by decide, _, rfl, by decide⟩
  obtain ⟨s, hrun, hs⟩ := Option.map_eq_some_iff.mp hview
  obtain ⟨heven, hhex⟩ := hexId_recv
  obtain ⟨hapart, hruns⟩ := hhex [48, 97] (by decide) (by decide)
  exact ⟨heven (chars "config str") (by decide) (by decide), hapart [48, 65] (by decide) (by decide),
    s₀, acts, s, hnew, hacts, hrun, hs, hruns s₀ acts s hnew hacts hrun⟩

/--
Ids that are not in the documented format, or differ in case only, are mixed up: `config str` and
`config_str`, `0a` and `0A`. The last character of an id of three leaves the result string. A wire
id of 256 bytes is not read back.
-/
theorem not_apart :
    (∃ s₀ : Streams, Streams.new = .ok s₀ ∧ ∃ acts s, run step s₀ acts = some s ∧
      s.sent = [(.user [116] [99, 111, 110, 102, 105, 103, 32, 115, 116, 114], [7])] ∧
      s.received = [(.user [116] [99, 111, 110, 102, 105, 103, 95, 115, 116, 114], [7])]) ∧
    getString [48, 97] = getString [48, 65] ∧
    getString [97, 98, 99] = .error .outOfBounds ∧
    ∃ w b, getString (List.replicate 512 97) = .ok w ∧ Inv b ∧ b.contents = frameBytes w [7] ∧
      ¬ RoundTrip b w [7] [] := by
  have hhex : HexId (List.replicate 512 97) := by
    refine ⟨?_, ?_⟩
    · rw [List.all_replicate]
      decide
    · rw [List.length_replicate]
  have hlen : (pack (List.replicate 512 97)).length = 256 := by
    rw [length_pack, List.length_replicate]
  have hplace := place_spec (n := 300) (r := 290)
    (q := frameBytes (pack (List.replicate 512 97)) [7]) (by decide)
    (by rw [length_frameBytes, frameLen, hlen]; decide) (by decide)
  refine ⟨?_, by decide, by decide, pack (List.replicate 512 97), _,
    getString_eq hhex (by rw [List.length_replicate]; decide), hplace.1, hplace.2, ?_⟩
  · obtain ⟨s₀, hnew, acts, hview⟩ : ∃ s₀ : Streams, Streams.new = .ok s₀ ∧
        ∃ acts : List ChanAct, (run step s₀ acts).map (fun s => (s.sent, s.received))
          = some ([(.user [116] [99, 111, 110, 102, 105, 103, 32, 115, 116, 114], [7])],
            [(.user [116] [99, 111, 110, 102, 105, 103, 95, 115, 116, 114], [7])]) :=
      ⟨_, rfl, [.send [116] [99, 111, 110, 102, 105, 103, 32, 115, 116, 114] [7],
        .conn (.sendStart [116]), .conn .drain, .conn .flush, .conn (.deliver 15),
        .conn (.recvStart [117]), .conn .take, .conn .store,
        .recv [116] ⟨[99, 111, 110, 102, 105, 103, 95, 115, 116, 114], 1, -1, .invalid, 0⟩],
        by decide⟩
    obtain ⟨s, hrun, hs⟩ := Option.map_eq_some_iff.mp hview
    obtain ⟨hsent, hreceived⟩ := Prod.mk.inj hs
    exact ⟨s₀, hnew, acts, s, hrun, hsent, hreceived⟩
  · intro h
    have hshort := short_of_roundTrip hplace.1 h
    rw [hlen] at hshort
    exact absurd hshort (by decide)

/-! ## The messages of one task -/

/-- All that was sent with this wire id by `o` has been received by `o`. -/
def Settled (s : Streams) (o : Origin) : Prop := dataFor o s.received = dataFor o s.sent

instance (s : Streams) (o : Origin) : Decidable (Settled s o) :=
  inferInstanceAs (Decidable (_ = _))

/-- No other user of the wire id has anything outstanding. -/
def Alone (s : Streams) (o : Origin) : Prop :=
  ∀ m ∈ s.sent, m.1 ≠ o → m.1.wire = o.wire → Settled s m.1

instance (s : Streams) (o : Origin) : Decidable (Alone s o) :=
  inferInstanceAs (Decidable (∀ m ∈ s.sent, m.1 ≠ o → m.1.wire = o.wire → Settled s m.1))

/-- Uses of one wire id do not overlap: whoever sends or receives with it is alone. -/
def NoOverlap (s : Streams) : ChanAct → Prop
  | .send task id data => Alone s (.user task id) ∧ (Origin.user task id).Sendable data
  | .recv task call => Alone s (.user task call.id)
  | .start task => Alone s (.lock task) ∧ (Origin.lock task).Sendable lockMsg
  | .stop task => Alone s (.lock task)
  | .conn _ => True

instance (s : Streams) : DecidablePred (NoOverlap s)
  | .send _ _ _ => inferInstanceAs (Decidable (_ ∧ _))
  | .recv _ _ => inferInstanceAs (Decidable (Alone _ _))
  | .start _ => inferInstanceAs (Decidable (_ ∧ _))
  | .stop _ => inferInstanceAs (Decidable (Alone _ _))
  | .conn _ => isTrue trivial

/-- What is outstanding under a wire id belongs to one user of it. -/
structure Owned (s : Streams) : Prop where
  labelled : Labelled s
  single : ∀ o o', o ≠ o' → o.wire = o'.wire → Settled s o ∨ Settled s o'
  rest : ∀ o, (∀ o', o' ≠ o → o'.wire = o.wire → Settled s o') →
    ∃ rest, dataFor o s.sent = dataFor o s.received ++ rest ∧
      dataWhere (fun o' => o'.wire = o.wire) s.sent
        = dataWhere (fun o' => o'.wire = o.wire) s.received ++ rest

theorem Owned.prefix_sent (h : Owned s) (o : Origin) :
    dataFor o s.received <+: dataFor o s.sent := by
  by_cases ho : Settled s o
  · have hsame : dataFor o s.received = dataFor o s.sent := ho
    exact ⟨[], (List.append_nil _).trans hsame⟩
  · obtain ⟨rest, hrest, -⟩ := h.rest o fun o' hne hw =>
      (h.single o' o hne hw).resolve_right ho
    exact ⟨rest, hrest.symm⟩

theorem Owned.settled_of_alone (h : Owned s) {o : Origin} (ha : Alone s o) :
    ∀ o', o' ≠ o → o'.wire = o.wire → Settled s o' := by
  intro o' hne hw
  by_cases hex : ∃ m ∈ s.sent, m.1 = o'
  · obtain ⟨m, hm, rfl⟩ := hex
    exact ha m hm hne hw
  · have hnil : dataFor o' s.sent = [] := dataWhere_eq_nil fun m hm hmo => hex ⟨m, hm, hmo⟩
    have hprefix := h.prefix_sent o'
    rw [hnil] at hprefix
    rw [Settled, hnil, List.prefix_nil.mp hprefix]

/-- A step of `o` that leaves everyone else's messages alone. -/
theorem Owned.update (h : Owned s) (hl : Labelled s') {o : Origin} (rest : Bytes)
    (halone : ∀ o', o' ≠ o → o'.wire = o.wire → Settled s o')
    (ho : dataFor o s'.sent = dataFor o s'.received ++ rest)
    (hw : dataWhere (fun o' => o'.wire = o.wire) s'.sent
      = dataWhere (fun o' => o'.wire = o.wire) s'.received ++ rest)
    (hother : ∀ o', o' ≠ o → dataFor o' s'.sent = dataFor o' s.sent ∧
      dataFor o' s'.received = dataFor o' s.received)
    (hwire : ∀ w, w ≠ o.wire →
      dataWhere (fun o' => o'.wire = w) s'.sent = dataWhere (fun o' => o'.wire = w) s.sent ∧
      dataWhere (fun o' => o'.wire = w) s'.received
        = dataWhere (fun o' => o'.wire = w) s.received) :
    Owned s' := by
  have hsettled : ∀ o', o' ≠ o → (Settled s' o' ↔ Settled s o') := by
    intro o' hne
    obtain ⟨hs, hr⟩ := hother o' hne
    rw [Settled, Settled, hs, hr]
  refine ⟨hl, ?_, ?_⟩
  · intro o₁ o₂ hne hw12
    by_cases h1 : o₁ = o
    · have h2 : o₂ ≠ o := fun h2 => hne (h1.trans h2.symm)
      exact Or.inr ((hsettled o₂ h2).mpr (halone o₂ h2 (by rw [← hw12, h1])))
    · by_cases h2 : o₂ = o
      · exact Or.inl ((hsettled o₁ h1).mpr (halone o₁ h1 (by rw [hw12, h2])))
      · rw [hsettled o₁ h1, hsettled o₂ h2]
        exact h.single o₁ o₂ hne hw12
  · intro o₁ hothers
    by_cases h1 : o₁ = o
    · rw [h1]
      exact ⟨rest, ho, hw⟩
    · obtain ⟨hs, hr⟩ := hother o₁ h1
      by_cases hw1 : o₁.wire = o.wire
      · -- nobody has anything outstanding under this wire id
        have hnil : rest = [] := by
          have hso : dataFor o s'.received = dataFor o s'.sent :=
            hothers o (fun he => h1 he.symm) hw1.symm
          rw [ho] at hso
          exact List.self_eq_append_right.mp hso
        refine ⟨[], ?_, ?_⟩
        · have hset : dataFor o₁ s.received = dataFor o₁ s.sent := halone o₁ h1 hw1
          rw [List.append_nil, hs, hr, hset]
        · rw [hw1, hw, hnil]
      · obtain ⟨rest₁, hrest₁, hwrest₁⟩ := h.rest o₁ fun o' hne hw' => by
          have hno : o' ≠ o := fun he => hw1 (by rw [← hw', he])
          exact (hsettled o' hno).mp (hothers o' hne hw')
        obtain ⟨hws, hwr⟩ := hwire o₁.wire hw1
        exact ⟨rest₁, by rw [hs, hr, hrest₁], by rw [hws, hwr, hwrest₁]⟩

theorem Owned.put (h : Owned s) {o : Origin} {data : Bytes} (ha : Alone s o)
    (hsend : o.Sendable data) (hs : s.put o data = .ok s') : Owned s' := by
  obtain ⟨hl, hsent, hreceived⟩ := put_ok h.labelled hsend.1 hsend.2 hs
  have halone := h.settled_of_alone ha
  obtain ⟨rest, hrest, hwrest⟩ := h.rest o halone
  have hself : dataWhere (fun o' => o'.wire = o.wire) [(o, data)] = data :=
    dataWhere_single (p := fun o' : Origin => o'.wire = o.wire) rfl data
  refine h.update hl (rest ++ data) halone ?_ ?_ ?_ ?_
  · rw [hsent, hreceived, dataFor_concat_self, hrest, List.append_assoc]
  · rw [hsent, hreceived, dataWhere_append, hself, hwrest, List.append_assoc]
  · intro o' hne
    rw [hsent, hreceived, dataFor_concat_ne (fun he => hne he.symm)]
    exact ⟨rfl, rfl⟩
  · intro w hne
    rw [hsent, hreceived, dataWhere_concat_not (fun he => hne he.symm)]
    exact ⟨rfl, rfl⟩

theorem Owned.get (h : Owned s) {o : Origin} {call : RecvCall} (ha : Alone s o)
    (hs : s.get o call = .ok s') : Owned s' := by
  obtain ⟨data, hl, hsent, hreceived⟩ := get_ok h.labelled hs
  have halone := h.settled_of_alone ha
  obtain ⟨rest, hrest, hwrest⟩ := h.rest o halone
  have hself : dataWhere (fun o' => o'.wire = o.wire) [(o, data)] = data :=
    dataWhere_single (p := fun o' : Origin => o'.wire = o.wire) rfl data
  -- the connection handed out the oldest bytes under the wire id, and they are all from `o`
  obtain ⟨rest', hrest'⟩ : ∃ rest', rest = data ++ rest' := by
    have hfifo := (List.prefix_append _ _).trans (hl.fifo o.wire)
    rw [hsent, hreceived, dataWhere_append, hself, hwrest,
      List.prefix_append_right_inj] at hfifo
    obtain ⟨rest', hrest'⟩ := hfifo
    exact ⟨rest', hrest'.symm⟩
  refine h.update hl rest' halone ?_ ?_ ?_ ?_
  · rw [hsent, hreceived, dataFor_concat_self, hrest, hrest', List.append_assoc]
  · rw [hsent, hreceived, dataWhere_append, hself, hwrest, hrest',
      List.append_assoc]
  · intro o' hne
    rw [hsent, hreceived, dataFor_concat_ne (fun he => hne he.symm)]
    exact ⟨rfl, rfl⟩
  · intro w hne
    rw [hsent, hreceived, dataWhere_concat_not (fun he => hne he.symm)]
    exact ⟨rfl, rfl⟩

theorem owned_new (h : Streams.new = .ok s) : Owned s := by
  obtain ⟨hsent, hreceived⟩ := logs_new h
  refine ⟨labelled_new h, ?_, ?_⟩
  · intro o o' _ _
    left
    rw [Settled, hsent, hreceived]
  · intro o _
    refine ⟨[], ?_, ?_⟩
    · rw [hsent, hreceived, List.append_nil]
    · rw [hsent, hreceived, List.append_nil]

theorem owned_step (s : Streams) (a : ChanAct) (s' : Streams) (h : Owned s) (ha : NoOverlap s a)
    (hs : s.step a = some s') : Owned s' := by
  have hs : s.exec a = .ok s' := Exec.toOption_eq_some.mp hs
  cases a with
  | send task id data => exact h.put ha.1 ha.2 hs
  | recv task call => exact h.get ha hs
  | start task => exact h.put ha.1 ha.2 hs
  | stop task => exact h.get ha hs
  | conn a =>
    obtain ⟨hl, hsent, hreceived⟩ := conn_ok h.labelled hs
    refine ⟨hl, ?_, ?_⟩
    · unfold Settled
      rw [hsent, hreceived]
      exact h.single
    · unfold Settled
      rw [hsent, hreceived]
      exact h.rest

/--
**A task receives what was sent to it**, in a run in which the uses of one wire id by different
tasks or under different message ids do not overlap.
-/
theorem task_recv {s₀ : Streams} {acts : List ChanAct} (hnew : Streams.new = .ok s₀)
    (hacts : AllSteps step NoOverlap s₀ acts) (hrun : run step s₀ acts = some s)
    (task id : Bytes) :
    dataFor (.user task id) s.received <+: dataFor (.user task id) s.sent :=
  (run_invariant_of owned_step (owned_new hnew) hacts hrun).prefix_sent _

/-- Two tasks use the message id `0a` one after the other. -/
theorem task_recv_small : ∃ s₀ acts s, Streams.new = .ok s₀ ∧ AllSteps step NoOverlap s₀ acts ∧
    run step s₀ acts = some s ∧ dataFor (.user [117] [48, 97]) s.received = [8] ∧
    dataFor (.user [117] [48, 97]) s.received <+: dataFor (.user [117] [48, 97]) s.sent := by
  obtain ⟨acts, s₀, hnew, hacts, hview⟩ : ∃ acts : List ChanAct, ∃ s₀, Streams.new = .ok s₀ ∧
      AllSteps step NoOverlap s₀ acts ∧
      (run step s₀ acts).map (fun s => dataFor (.user [117] [48, 97]) s.received) = some [8] :=
    ⟨[.start [116], .conn (.sendStart [116]), .conn (.recvStart [117]),
      .send [116] [48, 97] [7], .conn .drain, .conn .flush, .conn (.deliver 27), .conn .take,
      .conn .store, .stop [116], .conn .take, .conn .store,
      .recv [116] ⟨[48, 97], 1, -1, .invalid, 0⟩,
      .send [117] [48, 97] [8, 9], .conn .drain, .conn .flush, .conn (.deliver 12), .conn .take,
      .conn .store, .recv [117] ⟨[48, 97], 1, -1, .invalid, 0⟩], _, rfl, by decide, by decide⟩
  obtain ⟨s, hrun, hs⟩ := Option.map_eq_some_iff.mp hview
  exact ⟨s₀, acts, s, hnew, hacts, hrun, hs, task_recv hnew hacts hrun [117] [48, 97]⟩

/-- Task `u` sends with the message id `0a`, and task `t` receives it. -/
theorem not_task_recv : ∃ s₀ : Streams, Streams.new = .ok s₀ ∧ ∃ acts s,
    run step s₀ acts = some s ∧ s.sent = [(.user [117] [48, 97], [9])] ∧
      s.received = [(.user [116] [48, 97], [9])] ∧
      ¬ dataFor (.user [116] [48, 97]) s.received <+: dataFor (.user [116] [48, 97]) s.sent := by
  obtain ⟨s₀, hnew, acts, hview⟩ : ∃ s₀ : Streams, Streams.new = .ok s₀ ∧ ∃ acts : List ChanAct,
      (run step s₀ acts).map (fun s => (s.sent, s.received))
        = some ([(.user [117] [48, 97], [9])], [(.user [116] [48, 97], [9])]) :=
    ⟨_, rfl, [.conn (.sendStart [117]), .conn (.recvStart [117]), .send [117] [48, 97] [9],
      .conn .drain, .conn .flush, .conn (.deliver 11), .conn .take, .conn .store,
      .recv [116] ⟨[48, 97], 1, -1, .invalid, 0⟩], by decide⟩
  obtain ⟨s, hrun, hs⟩ := Option.map_eq_some_iff.mp hview
  obtain ⟨hsent, hreceived⟩ := Prod.mk.inj hs
  refine ⟨s₀, hnew, acts, s, hrun, hsent, hreceived, ?_⟩
  rw [hsent, hreceived]
  decide

end Streams

end Rosetta

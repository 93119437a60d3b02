import Mathlib.Data.List.Dedup
import Mathlib.Data.List.Perm.Basic
import Rosetta.Config.Topology
import Rosetta.Lib.Needs

/-!
# Documents that are read to the end

The sections of a configuration are looked for by name and type, and a section of another type is
passed over. What is in a section is used as it is expected to be, without a look at its type: the
elements of the lists, the members of a node, and the document itself.

* `Kinds` — every value has the type that it is used as
* `Counted` — the numbers fit
* `parse_reported_iff` — these two are what `parse` needs
-/

namespace Rosetta

open Lib

namespace Parse

variable {α β : Type} {K C L D : Prop}

/-- There is a result, or the caller learns that there is none. -/
def Reported (x : Parse α) : Prop := (∃ a, x = .ok a) ∨ ∃ what, x = .error (.thrown what)

/-! ## What a parser needs -/

/-- The conditions behind the faults. Nothing prevents an exception but that it is not thrown. -/
def conditions (kinds counted : Prop) : ConfigFault → Prop
  | .assertion => kinds
  | .overflow => counted
  | .thrown _ => True

/-- No assertion fails if `kinds` holds, no number is too large if `counted` holds, and if both do
there is a result. -/
def Needs (x : Parse α) (kinds counted : Prop) : Prop := Lib.Needs x (conditions kinds counted)

theorem needs_ok (a : α) : Needs (.ok a) True True := by
  rintro (_ | _ | _)
  · trivial
  · trivial
  · trivial

theorem needs_assertion : Needs (.error .assertion : Parse α) False True := id

theorem needs_overflow : Needs (.error .overflow : Parse α) True False := id

theorem Needs.iff {x : Parse α} (h : x.Needs K C) (hkinds : K ↔ L)
    (hcounted : C ↔ D) : x.Needs L D :=
  Lib.Needs.iff h fun e => by
    cases e with
    | assertion => exact hkinds
    | overflow => exact hcounted
    | thrown what => exact Iff.rfl

theorem Needs.bind {x : Parse α} {f : α → Parse β} (hx : x.Needs K C)
    (hf : ∀ a, x = .ok a → (f a).Needs L D) :
    (x >>= f).Needs (K ∧ L) (C ∧ D) :=
  (Lib.Needs.bind hx hf).iff fun e => by
    cases e with
    | assertion => exact Iff.rfl
    | overflow => exact Iff.rfl
    | thrown what => exact and_iff_right trivial

/-- Nothing fails behind `x`. -/
theorem Needs.map {x : Parse α} {f : α → Parse β} (hx : x.Needs K C)
    (hf : ∀ a, ∃ b, f a = .ok b) : (x >>= f).Needs K C := by
  refine (hx.bind (L := True) (D := True) fun a _ => ?_).iff (and_iff_left trivial)
    (and_iff_left trivial)
  obtain ⟨b, hb⟩ := hf a
  rw [hb]
  exact needs_ok b

/-- A loop whose rounds need `K` of their element, and `C` of its place too. -/
theorem needs_foldlM {f : β → α → Parse β} {I : Nat → β → Prop} {K : α → Prop}
    {C : Nat → α → Prop} (hround : ∀ i y x, I i y → (f y x).Needs (K x) (C i x))
    (hkeep : ∀ i y x y', I i y → f y x = .ok y' → I (i + 1) y') (xs : List α) {y : β}
    (hy : I 0 y) :
    Needs (xs.foldlM f y) (∀ x ∈ xs, K x) (∀ (k : Nat) (x : α), xs[k]? = some x → C k x) :=
  (Lib.Needs.foldlM hround hkeep xs hy).iff fun e => by
    cases e with
    | assertion =>
      simp only [List.mem_iff_getElem?, forall_exists_index]
      exact forall_comm
    | overflow => simp only [Nat.zero_add, conditions]
    | thrown what => exact iff_true_intro fun _ _ _ => trivial

theorem Needs.reported_iff {x : Parse α} (h : x.Needs K C) :
    x.Reported ↔ K ∧ C := by
  have hthrown : ¬ ∃ what, x = .error (.thrown what) := by
    rintro ⟨what, hwhat⟩
    have hneed : conditions K C (.thrown what) := trivial
    exact h.ne_error hneed hwhat
  rw [Reported, or_iff_left hthrown, h.ok_iff]
  constructor
  · exact fun hall => ⟨hall .assertion, hall .overflow⟩
  · rintro ⟨hkinds, hcounted⟩ (_ | _ | _)
    · exact hkinds
    · exact hcounted
    · trivial

end Parse

namespace Value

/-! ## The types of values -/

def isObject : Value → Bool
  | .object _ => true
  | _ => false

def isString : Value → Bool
  | .string _ => true
  | _ => false

/-- The value of a member, if there is one. -/
def member (v : Value) (key : String) : Option Value :=
  match v with
  | .object members => members.lookup (chars key)
  | _ => none

/-- The member with this name is not there, or `p` holds of it. -/
def MemberIs (v : Value) (key : String) (p : Value → Prop) : Prop :=
  ∀ x, v.member key = some x → p x

/-- An array with such elements, or no array. -/
def Elements (p : Value → Prop) : Value → Prop
  | .array nodes => ∀ x ∈ nodes, p x
  | _ => True

/-- An object with such values, or no object. -/
def Values (p : Value → Prop) : Value → Prop
  | .object members => ∀ m ∈ members, p m.2
  | _ => True

/-- An element of `NODE_INFO`. -/
structure IsNode (v : Value) : Prop where
  object : v.isObject = true
  nodeId : v.MemberIs "NODE_ID" (·.isString = true)
  name : v.MemberIs "NAME" (·.isString = true)
  host : v.MemberIs "HOST" (·.isString = true)
  port : v.MemberIs "PORT" (·.isInt = true)

/-- The values have the types they are used as. -/
structure Kinds (doc : Value) : Prop where
  object : doc.isObject = true
  nodeInfo : doc.MemberIs "NODE_INFO" (Elements IsNode)
  data : doc.MemberIs "DATA_NODES" (Elements (·.isString = true))
  compute : doc.MemberIs "COMPUTATION_NODES" (Values (·.isInt = true))
  result : doc.MemberIs "RESULT_NODES" (Elements (·.isString = true))

/-- An array that an `int` can count, or no array. -/
def Short : Value → Prop
  | .array nodes => nodes.length < 2 ^ 31
  | _ => True

/-- An object with fewer names than an `int` can count, or no object. -/
def FewNames : Value → Prop
  | .object members => (members.map fun m => cString m.1).dedup.length < 2 ^ 31
  | _ => True

/-- A number of seconds whose milliseconds fit an `int`; others than positive `int`s are not looked
at. -/
def Milliseconds : Value → Prop
  | .int n => (Value.int n).isInt = true → n * 1000 < 2 ^ 31
  | _ => True

/-- No counter and no product leaves the `int`. -/
structure Counted (doc : Value) : Prop where
  nodeInfo : doc.MemberIs "NODE_INFO" Short
  data : doc.MemberIs "DATA_NODES" Short
  compute : doc.MemberIs "COMPUTATION_NODES" FewNames
  result : doc.MemberIs "RESULT_NODES" Short
  timeout : doc.MemberIs "CONNECT_PARAMS" (·.MemberIs "TIMEOUT" Milliseconds)

/-! ## The getters -/

theorem needs_findMember (v : Value) (key : String) :
    (v.findMember key).Needs (v.isObject = true) True := by
  cases v with
  | object members => exact (Parse.needs_ok _).iff (by simp [isObject]) Iff.rfl
  | _ => exact Parse.needs_assertion.iff (by simp [isObject]) Iff.rfl

theorem findMember_eq {v : Value} {key : String} {x : Option Value}
    (h : v.findMember key = .ok x) : x = v.member key := by
  cases v with
  | object members => exact (Except.ok.inj h).symm
  | _ => cases h

theorem needs_getString (v : Value) : v.getString.Needs (v.isString = true) True := by
  cases v with
  | string s => exact (Parse.needs_ok _).iff (by simp [isString]) Iff.rfl
  | _ => exact Parse.needs_assertion.iff (by simp [isString]) Iff.rfl

theorem needs_getInt (v : Value) : v.getInt.Needs (v.isInt = true) True := by
  cases v with
  | int n =>
    show Parse.Needs (if (int n).isInt then .ok n else .error .assertion) _ _
    by_cases h : (int n).isInt = true
    · rw [if_pos h]
      exact (Parse.needs_ok n).iff (iff_of_true trivial h) Iff.rfl
    · rw [if_neg h]
      exact Parse.needs_assertion.iff (iff_of_false id h) Iff.rfl
  | _ => exact Parse.needs_assertion.iff (by simp [isInt]) Iff.rfl

theorem needs_countTo (n : Nat) : (countTo n).Needs True (n < 2 ^ 31) := by
  unfold countTo
  by_cases h : n < 2 ^ 31
  · rw [if_pos h]
    exact (Parse.needs_ok _).iff Iff.rfl (iff_of_true trivial h)
  · rw [if_neg h]
    exact Parse.needs_overflow.iff Iff.rfl (iff_of_false id h)

/-- What is done with a member, when there is something to do without it. -/
theorem needs_member {α : Type} {v : Value} {key : String} {K C : Value → Prop}
    {f : Option Value → Parse α} (hnone : ∃ a, f none = .ok a)
    (hsome : ∀ x, (f (some x)).Needs (K x) (C x)) :
    (v.findMember key >>= f).Needs (v.isObject = true ∧ v.MemberIs key K)
      (v.MemberIs key C) := by
  refine ((needs_findMember v key).bind fun x hx => ?_).iff Iff.rfl (and_iff_right trivial)
  obtain rfl := findMember_eq hx
  unfold MemberIs
  cases v.member key with
  | none =>
    obtain ⟨a, ha⟩ := hnone
    rw [ha]
    exact (Parse.needs_ok a).iff (by simp) (by simp)
  | some x => exact (hsome x).iff (by simp) (by simp)

theorem memberIs_true (v : Value) (key : String) : (v.MemberIs key fun _ => True) ↔ True :=
  iff_true_intro fun _ _ => trivial

theorem needs_getStringOr (v : Value) (key : String) (defaultValue : Bytes) :
    (v.getStringOr key defaultValue false).Needs
      (v.isObject = true ∧ v.MemberIs key (·.isString = true)) True := by
  have hmember : (v.getStringOr key defaultValue false).Needs _ _ :=
    needs_member ⟨defaultValue, rfl⟩ needs_getString
  exact hmember.iff Iff.rfl (memberIs_true v key)

theorem needs_getIntOr (v : Value) (key : String) (defaultValue : Int) :
    (v.getIntOr key defaultValue false).Needs
      (v.isObject = true ∧ v.MemberIs key (·.isInt = true)) True := by
  have hmember : (v.getIntOr key defaultValue false).Needs _ _ :=
    needs_member ⟨defaultValue, rfl⟩ needs_getInt
  exact hmember.iff Iff.rfl (memberIs_true v key)

end Value

namespace ChannelConfig

open Value

variable {doc : Value} {config config' : ChannelConfig}

/-! ## The sections -/

theorem needs_nodeInfo (i : Nat) (v : Value) : (nodeInfo i v).Needs (IsNode v) True := by
  have hneeds : (nodeInfo i v).Needs
      ((v.isObject = true ∧ v.MemberIs "NODE_ID" (·.isString = true)) ∧
        (v.isObject = true ∧ v.MemberIs "NAME" (·.isString = true)) ∧
        (v.isObject = true ∧ v.MemberIs "HOST" (·.isString = true)) ∧
        (v.isObject = true ∧ v.MemberIs "PORT" (·.isInt = true))) (True ∧ True ∧ True ∧ True) := by
    refine (needs_getStringOr v _ _).bind fun nodeId _ => ?_
    refine (needs_getStringOr v _ _).bind fun name _ => ?_
    refine (needs_getStringOr v _ _).bind fun host _ => ?_
    exact (needs_getIntOr v _ _).map fun port => ⟨_, rfl⟩
  refine hneeds.iff ⟨?_, ?_⟩ (by simp)
  · rintro ⟨⟨hobject, hid⟩, ⟨-, hname⟩, ⟨-, hhost⟩, -, hport⟩
    exact ⟨hobject, hid, hname, hhost, hport⟩
  · intro h
    exact ⟨⟨h.object, h.nodeId⟩, ⟨h.object, h.name⟩, ⟨h.object, h.host⟩, h.object, h.port⟩

/-- The loop over `NODE_INFO`. -/
theorem needs_infoLoop (nodes : List Value) (info : NodeMap) :
    Parse.Needs (nodes.zipIdx.foldlM (fun (info : NodeMap) (v, i) => do
        let n ← nodeInfo i v
        countTo (i + 1)
        .ok (info.insertIfNew n.nodeId n)) info)
      (∀ v ∈ nodes, IsNode v) (nodes.length < 2 ^ 31) := by
  refine (Parse.needs_foldlM (I := fun _ _ => True) (K := fun vi => IsNode vi.1)
    (C := fun _ vi => vi.2 + 1 < 2 ^ 31) ?_ (fun _ _ _ _ _ _ => trivial) nodes.zipIdx
    trivial).iff ?_ ?_
  · rintro - info ⟨v, i⟩ -
    have hround := (needs_nodeInfo i v).bind fun n _ =>
      (needs_countTo (i + 1)).map (f := fun _ => .ok (info.insertIfNew n.nodeId n)) fun _ =>
        ⟨_, rfl⟩
    exact hround.iff (and_iff_left trivial) (and_iff_right trivial)
  · constructor
    · intro hall v hv
      obtain ⟨i, hi⟩ := List.mem_iff_getElem?.mp hv
      exact hall (v, i) (List.mem_zipIdx_iff_getElem?.mpr hi)
    · exact fun hall vi hvi => hall vi.1 (List.fst_mem_of_mem_zipIdx hvi)
  · rw [← forall_count_iff (by omega) nodes]
    simp only [List.getElem?_zipIdx, Option.map_eq_some_iff]
    constructor
    · intro hall k v hv
      have hk := hall k (v, 0 + k) ⟨v, hv, rfl⟩
      rwa [Nat.zero_add] at hk
    · rintro hall k - ⟨v, hv, rfl⟩
      rw [Nat.zero_add]
      exact hall k v hv

theorem needs_nodeList (info : NodeMap) (nodes : List Value) :
    (nodeList info nodes).Needs (∀ v ∈ nodes, v.isString = true) (nodes.length < 2 ^ 31) := by
  refine (Parse.needs_foldlM (I := fun i (r : List Bytes × List Node) => r.1.length = i)
    (K := fun v => v.isString = true) (C := fun i _ => i + 1 < 2 ^ 31) ?_ ?_ nodes rfl).iff
    Iff.rfl (forall_count_iff (by omega) nodes)
  · rintro i ⟨ids, found⟩ v rfl
    have hround := (needs_getString v).bind fun id _ =>
      (needs_countTo (ids.length + 1)).map
        (f := fun _ => .ok (ids ++ [id], found ++ info[id]?.toList)) fun _ => ⟨_, rfl⟩
    exact hround.iff (and_iff_left trivial) (and_iff_right trivial)
  · rintro i ⟨ids, found⟩ v r rfl hr
    obtain ⟨id, -, hr⟩ := Parse.bind_eq_ok.mp hr
    obtain ⟨-, -, hr⟩ := Parse.bind_eq_ok.mp hr
    obtain rfl := Except.ok.inj hr
    exact List.length_append

/-- A section that is not there, or of another type, is passed over. -/
theorem needs_arraySection {key : String} {p : Value → Prop} {f : List Value → Parse ChannelConfig}
    (hf : ∀ nodes, (f nodes).Needs (∀ x ∈ nodes, p x) (nodes.length < 2 ^ 31)) (doc : Value)
    (config : ChannelConfig) :
    Parse.Needs (do
        match ← doc.findMember key with
        | some (.array nodes) => f nodes
        | _ => .ok config)
      (doc.isObject = true ∧ doc.MemberIs key (Elements p)) (doc.MemberIs key Short) := by
  refine needs_member ⟨_, rfl⟩ fun x => ?_
  cases x with
  | array nodes => exact hf nodes
  | _ => exact Parse.needs_ok _

theorem needs_parseNodeInfo (doc : Value) (config : ChannelConfig) :
    (parseNodeInfo doc config).Needs
      (doc.isObject = true ∧ doc.MemberIs "NODE_INFO" (Elements IsNode))
      (doc.MemberIs "NODE_INFO" Short) :=
  needs_arraySection (fun nodes => (needs_infoLoop nodes _).map fun _ => ⟨_, rfl⟩) doc config

theorem needs_parseData (doc : Value) (config : ChannelConfig) :
    (parseData doc config).Needs
      (doc.isObject = true ∧ doc.MemberIs "DATA_NODES" (Elements (·.isString = true)))
      (doc.MemberIs "DATA_NODES" Short) :=
  needs_arraySection (fun nodes => (needs_nodeList _ nodes).map fun _ => ⟨_, rfl⟩) doc config

theorem needs_parseResult (doc : Value) (config : ChannelConfig) :
    (parseResult doc config).Needs
      (doc.isObject = true ∧ doc.MemberIs "RESULT_NODES" (Elements (·.isString = true)))
      (doc.MemberIs "RESULT_NODES" Short) :=
  needs_arraySection (fun nodes => (needs_nodeList _ nodes).map fun _ => ⟨_, rfl⟩) doc config

/-- The loop over `COMPUTATION_NODES` inserts the names. -/
theorem mem_computeLoop {members : List (Bytes × Value)} {nodes nodes' : Std.TreeMap Bytes Int}
    (h : members.foldlM (fun (nodes : Std.TreeMap Bytes Int) (name, v) => do
        let value ← v.getInt
        .ok (nodes.insertIfNew (cString name) value)) nodes = (.ok nodes' : Parse _)) (id : Bytes) :
    id ∈ nodes' ↔ id ∈ nodes ∨ id ∈ members.map fun m => cString m.1 := by
  induction members generalizing nodes with
  | nil =>
    obtain rfl := Except.ok.inj h
    simp
  | cons m members ih =>
    rw [List.foldlM_cons] at h
    obtain ⟨z, hz, h⟩ := Parse.bind_eq_ok.mp h
    obtain ⟨value, -, hz⟩ := Parse.bind_eq_ok.mp hz
    obtain rfl := Except.ok.inj hz
    rw [ih h, Std.TreeMap.mem_insertIfNew, Std.compare_eq_iff_eq, List.map_cons, List.mem_cons,
      @eq_comm _ id]
    tauto

theorem size_computeLoop {members : List (Bytes × Value)} {nodes : Std.TreeMap Bytes Int}
    (h : members.foldlM (fun (nodes : Std.TreeMap Bytes Int) (name, v) => do
        let value ← v.getInt
        .ok (nodes.insertIfNew (cString name) value)) ∅ = (.ok nodes : Parse _)) :
    nodes.size = (members.map fun m => cString m.1).dedup.length := by
  have hperm : nodes.keys.Perm (members.map fun m => cString m.1).dedup := by
    refine (List.perm_ext_iff_of_nodup Std.TreeMap.nodup_keys (List.nodup_dedup _)).mpr fun id => ?_
    rw [Std.TreeMap.mem_keys, mem_computeLoop h, List.mem_dedup]
    simp
  rw [← Std.TreeMap.length_keys, hperm.length_eq]

theorem needs_computeLoop (members : List (Bytes × Value)) (nodes : Std.TreeMap Bytes Int) :
    Parse.Needs (members.foldlM (fun (nodes : Std.TreeMap Bytes Int) (name, v) => do
        let value ← v.getInt
        .ok (nodes.insertIfNew (cString name) value)) nodes)
      (∀ m ∈ members, m.2.isInt = true) True := by
  refine (Parse.needs_foldlM (I := fun _ _ => True) (K := fun m => m.2.isInt = true)
    (C := fun _ _ => True) ?_ (fun _ _ _ _ _ _ => trivial) members trivial).iff Iff.rfl (by simp)
  rintro - nodes ⟨name, v⟩ -
  exact (needs_getInt v).map fun n => ⟨_, rfl⟩

theorem needs_parseCompute (doc : Value) (hnodes : config.computeNodes = ∅) :
    (parseCompute doc config).Needs
      (doc.isObject = true ∧ doc.MemberIs "COMPUTATION_NODES" (Values (·.isInt = true)))
      (doc.MemberIs "COMPUTATION_NODES" FewNames) := by
  refine needs_member ⟨_, rfl⟩ fun x => ?_
  cases x with
  | object members =>
    refine ((needs_computeLoop members _).bind fun nodes h => ?_).iff (and_iff_left trivial)
      (and_iff_right trivial)
    rw [hnodes] at h
    rw [FewNames, ← size_computeLoop h]
    exact (needs_countTo _).map fun _ => ⟨_, rfl⟩
  | _ => exact Parse.needs_ok _

theorem connectParam_eq (params : List (Bytes × Value)) (key : String) :
    connectParam (.object params) key = .ok (match (Value.object params).member key with
      | some (.int n) => if (Value.int n).isInt ∧ 0 < n then some n else none
      | _ => none) := by
  show (match params.lookup (chars key) with | some (.int n) => _ | _ => _ : Parse _) = .ok
    (match params.lookup (chars key) with | some (.int n) => _ | _ => _)
  split
  · rfl
  · rfl

/-- A number of seconds that is not positive is left out, and so are the values of other types. -/
theorem needs_setTimeout {params : List (Bytes × Value)} {timeout : Option Int}
    (h : connectParam (.object params) "TIMEOUT" = .ok timeout) :
    (config.setTimeout timeout).Needs True
      ((Value.object params).MemberIs "TIMEOUT" Milliseconds) := by
  rw [connectParam_eq] at h
  obtain rfl := Except.ok.inj h
  unfold MemberIs
  cases (Value.object params).member "TIMEOUT" with
  | none => exact (Parse.needs_ok config).iff Iff.rfl (by simp)
  | some x =>
    simp only [Option.some.injEq, forall_eq']
    cases x with
    | int n =>
      show (config.setTimeout (if (Value.int n).isInt ∧ 0 < n then some n else none)).Needs True
        ((Value.int n).isInt = true → n * 1000 < 2 ^ 31)
      by_cases hn : (Value.int n).isInt = true ∧ 0 < n
      · rw [if_pos hn, setTimeout]
        by_cases hlt : n * 1000 < 2 ^ 31
        · rw [if_pos hlt]
          exact (Parse.needs_ok _).iff Iff.rfl (iff_of_true trivial fun _ => hlt)
        · rw [if_neg hlt]
          exact Parse.needs_overflow.iff Iff.rfl (iff_of_false id fun h => hlt (h hn.1))
      · rw [if_neg hn]
        refine (Parse.needs_ok config).iff Iff.rfl (iff_of_true trivial fun hint => ?_)
        have hle : n ≤ 0 := not_lt.mp fun hpos => hn ⟨hint, hpos⟩
        omega
    | _ => exact Parse.needs_ok config

theorem needs_parseConnectParams (doc : Value) (config : ChannelConfig) :
    (parseConnectParams doc config).Needs (doc.isObject = true)
      (doc.MemberIs "CONNECT_PARAMS" (·.MemberIs "TIMEOUT" Milliseconds)) := by
  have hmember : (parseConnectParams doc config).Needs
      (doc.isObject = true ∧ doc.MemberIs "CONNECT_PARAMS" fun _ => True)
      (doc.MemberIs "CONNECT_PARAMS" (·.MemberIs "TIMEOUT" Milliseconds)) := by
    refine needs_member ⟨_, rfl⟩ fun x => ?_
    cases x with
    | object params =>
      have htimeout := connectParam_eq params "TIMEOUT"
      have hretries := connectParam_eq params "RETRIES"
      show (connectParam (.object params) "TIMEOUT" >>= _).Needs _ _
      rw [htimeout]
      refine (needs_setTimeout htimeout).map fun c => ?_
      rw [hretries]
      exact ⟨_, rfl⟩
    | _ => exact (Parse.needs_ok _).iff Iff.rfl (by simp [MemberIs, member])
  exact hmember.iff (and_iff_left fun _ _ => trivial) Iff.rfl

/-! ## The document -/

theorem computeNodes_of_parseNodeInfo (h : parseNodeInfo doc config = .ok config') :
    config'.computeNodes = config.computeNodes := by
  obtain ⟨info, rfl, -⟩ := parseNodeInfo_eq_ok h
  rfl

theorem computeNodes_of_parseData (h : parseData doc config = .ok config') :
    config'.computeNodes = config.computeNodes := by
  rcases parseData_eq_ok h with rfl | ⟨nodes, ids, found, -, rfl⟩
  · rfl
  · rfl

/-- Each section asks for its own part. -/
theorem needs_parse (doc : Value) : (parse doc).Needs (Kinds doc) (Counted doc) := by
  have hneeds := (needs_parseNodeInfo doc {}).bind fun c₁ h₁ =>
    (needs_parseData doc c₁).bind fun c₂ h₂ =>
    (needs_parseCompute doc
      ((computeNodes_of_parseData h₂).trans (computeNodes_of_parseNodeInfo h₁))).bind fun c₃ _ =>
    (needs_parseResult doc c₃).bind fun c₄ _ =>
    (needs_parseConnectParams doc c₄).map
      (f := fun c₅ => .ok c₅.processNodeType) fun c₅ => ⟨_, rfl⟩
  refine Parse.Needs.iff hneeds ⟨?_, ?_⟩ ⟨?_, ?_⟩
  · rintro ⟨⟨hobject, hinfo⟩, ⟨-, hdata⟩, ⟨-, hcompute⟩, ⟨-, hresult⟩, -⟩
    exact ⟨hobject, hinfo, hdata, hcompute, hresult⟩
  · intro h
    exact ⟨⟨h.object, h.nodeInfo⟩, ⟨h.object, h.data⟩, ⟨h.object, h.compute⟩, ⟨h.object, h.result⟩,
      h.object⟩
  · rintro ⟨hinfo, hdata, hcompute, hresult, htimeout⟩
    exact ⟨hinfo, hdata, hcompute, hresult, htimeout⟩
  · exact fun h => ⟨h.nodeInfo, h.data, h.compute, h.result, h.timeout⟩

/-- **What a configuration needs.** A document is read to its end exactly when its values have the
types that they are used as and its numbers fit; it is the types that the assertions are about. -/
theorem parse_reported_iff (doc : Value) :
    ((parse doc).Reported ↔ Kinds doc ∧ Counted doc) ∧
      (Kinds doc → parse doc ≠ .error .assertion) :=
  ⟨(needs_parse doc).reported_iff, fun h => (needs_parse doc).ne_error h⟩

/-- An id of the data nodes that is a number. -/
theorem not_parse_reported : ∃ doc : Value, ¬ (parse doc).Reported ∧
    parse doc = .error .assertion := by
  have hfails : parse (.object [(chars "DATA_NODES", .array [.int 1])]) = .error .assertion := rfl
  refine ⟨_, ?_, hfails⟩
  rintro (⟨config, hok⟩ | ⟨what, hthrown⟩)
  · cases hfails.symm.trans hok
  · cases hfails.symm.trans hthrown

end ChannelConfig

end Rosetta

import Rosetta.Config.Basic

/-!
# Both ends agree on who connects

Each node reads the configuration for itself. `Sorted` says what `parse` has made of the lists of
nodes, and `mem_peerNodes` which nodes are peers of a node: those with another id, when one of the two
computes. Whether a node connects to a peer is decided by a test that does not come out the same at
both ends (`dials_iff_not`).

`topology_agrees` puts this together for two nodes.
-/

namespace Rosetta

/-! ## Who connects to whom -/

section Dials

variable {α : Type*} [LT α] {up : α → Prop} {a b : α}

/-- `a` cannot be connected to, or both can and `a` is the smaller one. -/
def Dials (up : α → Prop) (a b : α) : Prop := ¬ up a ∨ (up b ∧ a < b)

/-- The one that is connected to can be. -/
theorem up_of_dials (h : up a ∨ up b) (hd : Dials up a b) : up b := by
  rcases hd with ha | ⟨hb, -⟩
  · exact h.resolve_left ha
  · exact hb

/-- **Exactly one of two connects to the other.** -/
theorem dials_iff_not [Std.Asymm fun x y : α => x < y] [Std.Trichotomous fun x y : α => x < y]
    (hne : a ≠ b) (h : up a ∨ up b) : Dials up a b ↔ ¬ Dials up b a := by
  by_cases ha : up a
  · by_cases hb : up b
    · simp only [Dials, ha, hb, not_true_eq_false, true_and, false_or]
      constructor
      · exact fun hlt hgt => Std.Asymm.asymm a b hlt hgt
      · intro hgt
        by_contra hlt
        exact hne (Std.Trichotomous.trichotomous a b hlt hgt)
    · simp [Dials, ha, hb]
  · have hb := h.resolve_left ha
    simp [Dials, ha, hb]

end Dials

namespace ChannelConfig

open Value

variable {config config' : ChannelConfig} {doc : Value}

/-! ## What is read -/

/-- What holds of the start value of a loop and is kept by each round holds at its end. -/
theorem foldlM_invariant {α β : Type} {f : β → α → Parse β} {I : β → Prop}
    (hf : ∀ y x y', I y → f y x = .ok y' → I y') {xs : List α} {y y' : β} (hy : I y)
    (h : xs.foldlM f y = .ok y') : I y' := by
  induction xs generalizing y with
  | nil =>
    obtain rfl := Except.ok.inj h
    exact hy
  | cons x xs ih =>
    rw [List.foldlM_cons] at h
    obtain ⟨z, hz, h⟩ := Parse.bind_eq_ok.mp h
    exact ih (hf y x z hy hz) h

theorem lt_of_countTo {n : Nat} {u : Unit} (h : countTo n = .ok u) : n < 2 ^ 31 := by
  unfold countTo at h
  split at h
  · assumption
  · cases h

/-- The entries are kept under their own ids. -/
def Keyed (info : NodeMap) : Prop := ∀ (id : Bytes) (n : Node), info[id]? = some n → n.nodeId = id

/-- The nodes are kept under their own ids, and the rest stays. -/
theorem parseNodeInfo_eq_ok (h : parseNodeInfo doc config = .ok config') :
    ∃ info, config' = { config with nodeInfoConfig := info } ∧
      (Keyed config.nodeInfoConfig → Keyed info) := by
  obtain ⟨v, -, h⟩ := Parse.bind_eq_ok.mp h
  split at h
  · obtain ⟨info, hinfo, h⟩ := Parse.bind_eq_ok.mp h
    refine ⟨info, (Except.ok.inj h).symm, fun hkeyed => foldlM_invariant ?_ hkeyed hinfo⟩
    rintro info ⟨v, i⟩ info' hkeyed hround
    obtain ⟨n, -, hround⟩ := Parse.bind_eq_ok.mp hround
    obtain ⟨-, -, hround⟩ := Parse.bind_eq_ok.mp hround
    obtain rfl := Except.ok.inj hround
    intro id m hm
    rw [Std.TreeMap.getElem?_insertIfNew] at hm
    split at hm
    · next hnew =>
      obtain rfl := Option.some.inj hm
      exact Std.LawfulEqOrd.eq_of_compare hnew.1
    · exact hkeyed id m hm
  · exact ⟨config.nodeInfoConfig, (Except.ok.inj h).symm, id⟩

/-- A section is passed over, or its list is kept. -/
theorem parseData_eq_ok (h : parseData doc config = .ok config') :
    config' = config ∨ ∃ nodes ids found, nodeList config.nodeInfoConfig nodes = .ok (ids, found) ∧
      config' = { config with dataNodes := ids, dataConfig := found } := by
  obtain ⟨v, -, h⟩ := Parse.bind_eq_ok.mp h
  split at h
  · obtain ⟨⟨ids, found⟩, hlist, h⟩ := Parse.bind_eq_ok.mp h
    exact .inr ⟨_, ids, found, hlist, (Except.ok.inj h).symm⟩
  · exact .inl (Except.ok.inj h).symm

theorem parseCompute_eq_ok (h : parseCompute doc config = .ok config') :
    config' = config ∨ ∃ (members : List (Bytes × Value)) (nodes : Std.TreeMap Bytes Int),
      members.foldlM (fun (nodes : Std.TreeMap Bytes Int) (name, v) => do
          let value ← v.getInt
          .ok (nodes.insertIfNew (cString name) value)) config.computeNodes =
        (.ok nodes : Parse _) ∧
      nodes.size < 2 ^ 31 ∧
      config' = { config with
        computeNodes := nodes
        computeConfig := nodes.keys.flatMap fun id => config.nodeInfoConfig[id]?.toList } := by
  obtain ⟨v, -, h⟩ := Parse.bind_eq_ok.mp h
  split at h
  · obtain ⟨nodes, hnodes, h⟩ := Parse.bind_eq_ok.mp h
    obtain ⟨_, hcount, h⟩ := Parse.bind_eq_ok.mp h
    exact .inr ⟨_, nodes, hnodes, lt_of_countTo hcount, (Except.ok.inj h).symm⟩
  · exact .inl (Except.ok.inj h).symm

theorem parseResult_eq_ok (h : parseResult doc config = .ok config') :
    config' = config ∨ ∃ nodes ids found, nodeList config.nodeInfoConfig nodes = .ok (ids, found) ∧
      config' = { config with resultNodes := ids, resultConfig := found } := by
  obtain ⟨v, -, h⟩ := Parse.bind_eq_ok.mp h
  split at h
  · obtain ⟨⟨ids, found⟩, hlist, h⟩ := Parse.bind_eq_ok.mp h
    exact .inr ⟨_, ids, found, hlist, (Except.ok.inj h).symm⟩
  · exact .inl (Except.ok.inj h).symm

theorem setTimeout_eq_ok {seconds : Option Int} (h : config.setTimeout seconds = .ok config') :
    ∃ timeout, config' = { config with connectTimeout := timeout } := by
  unfold setTimeout at h
  split at h
  · split at h
    · exact ⟨_, (Except.ok.inj h).symm⟩
    · cases h
  · exact ⟨config.connectTimeout, (Except.ok.inj h).symm⟩

/-- The parameters of the connections say nothing about the nodes. -/
theorem parseConnectParams_eq_ok (h : parseConnectParams doc config = .ok config') :
    ∃ timeout retries,
      config' = { config with connectTimeout := timeout, connectRetries := retries } := by
  obtain ⟨v, -, h⟩ := Parse.bind_eq_ok.mp h
  split at h
  · obtain ⟨seconds, -, h⟩ := Parse.bind_eq_ok.mp h
    obtain ⟨c, hc, h⟩ := Parse.bind_eq_ok.mp h
    obtain ⟨retries, -, h⟩ := Parse.bind_eq_ok.mp h
    obtain ⟨timeout, rfl⟩ := setTimeout_eq_ok hc
    exact ⟨timeout, _, (Except.ok.inj h).symm⟩
  · exact ⟨config.connectTimeout, config.connectRetries, (Except.ok.inj h).symm⟩

/-- `found` are the nodes with these ids that have an entry. -/
def Found (info : NodeMap) (has : Bytes → Prop) (found : List Node) : Prop :=
  ∀ n, n ∈ found ↔ has n.nodeId ∧ info[n.nodeId]? = some n

/-- The lists as they are read. -/
structure Listed (config : ChannelConfig) : Prop where
  keyed : Keyed config.nodeInfoConfig
  data : Found config.nodeInfoConfig (· ∈ config.dataNodes) config.dataConfig
  compute : Found config.nodeInfoConfig (· ∈ config.computeNodes) config.computeConfig
  result : Found config.nodeInfoConfig (· ∈ config.resultNodes) config.resultConfig

theorem listed_of_info {info : NodeMap} (h : Keyed info) :
    Listed { nodeInfoConfig := info } := by
  refine ⟨h, ?_, ?_, ?_⟩
  · simp [Found]
  · simp [Found]
  · simp [Found]

theorem parseNodeInfo_listed (h : parseNodeInfo doc {} = .ok config) : Listed config := by
  obtain ⟨info, rfl, hkeyed⟩ := parseNodeInfo_eq_ok h
  exact listed_of_info (hkeyed (by simp [Keyed]))

/-- A round adds an id, and its entry if there is one. -/
theorem nodeList_invariant {info : NodeMap} {I : List Bytes → List Node → Prop} (hstart : I [] [])
    (hround : ∀ ids found (v : Value) id, I ids found → v.getString = .ok id →
      ids.length + 1 < 2 ^ 31 → I (ids ++ [id]) (found ++ info[id]?.toList))
    {nodes : List Value} {ids : List Bytes} {found : List Node}
    (h : nodeList info nodes = .ok (ids, found)) : I ids found := by
  refine foldlM_invariant (I := fun r => I r.1 r.2) ?_ hstart h
  rintro ⟨ids, found⟩ v r hI hv
  obtain ⟨id, hid, hv⟩ := Parse.bind_eq_ok.mp hv
  obtain ⟨_, hcount, hv⟩ := Parse.bind_eq_ok.mp hv
  obtain rfl := Except.ok.inj hv
  exact hround ids found v id hI hid (lt_of_countTo hcount)

theorem nodeList_found {info : NodeMap} (hkeyed : Keyed info) {nodes : List Value}
    {ids : List Bytes} {found : List Node} (h : nodeList info nodes = .ok (ids, found)) :
    Found info (· ∈ ids) found := by
  refine nodeList_invariant (I := fun ids found => Found info (· ∈ ids) found) (by simp [Found])
    (fun ids found v id hfound _ _ n => ?_) h
  simp only [List.mem_append, List.mem_singleton, Option.mem_toList]
  rw [hfound n]
  constructor
  · rintro (⟨hmem, hn⟩ | hn)
    · exact ⟨.inl hmem, hn⟩
    · obtain rfl := hkeyed id n hn
      exact ⟨.inr rfl, hn⟩
  · rintro ⟨hmem | rfl, hn⟩
    · exact .inl ⟨hmem, hn⟩
    · exact .inr hn

theorem Listed.parseData (hl : Listed config) (h : parseData doc config = .ok config') :
    Listed config' := by
  rcases parseData_eq_ok h with rfl | ⟨nodes, ids, found, hlist, rfl⟩
  · exact hl
  · exact ⟨hl.keyed, nodeList_found hl.keyed hlist, hl.compute, hl.result⟩

theorem Listed.parseCompute (hl : Listed config) (h : parseCompute doc config = .ok config') :
    Listed config' := by
  rcases parseCompute_eq_ok h with rfl | ⟨members, nodes, -, -, rfl⟩
  · exact hl
  · refine ⟨hl.keyed, hl.data, fun n => ?_, hl.result⟩
    simp only [List.mem_flatMap, Option.mem_toList, Std.TreeMap.mem_keys]
    constructor
    · rintro ⟨id, hid, hn⟩
      obtain rfl := hl.keyed id n hn
      exact ⟨hid, hn⟩
    · rintro ⟨hmem, hn⟩
      exact ⟨n.nodeId, hmem, hn⟩

theorem Listed.parseResult (hl : Listed config) (h : parseResult doc config = .ok config') :
    Listed config' := by
  rcases parseResult_eq_ok h with rfl | ⟨nodes, ids, found, hlist, rfl⟩
  · exact hl
  · exact ⟨hl.keyed, hl.data, hl.compute, nodeList_found hl.keyed hlist⟩

theorem Listed.parseConnectParams (hl : Listed config)
    (h : parseConnectParams doc config = .ok config') : Listed config' := by
  obtain ⟨timeout, retries, rfl⟩ := parseConnectParams_eq_ok h
  exact ⟨hl.keyed, hl.data, hl.compute, hl.result⟩

/-! ## What is made of it -/

/-- The node has one of the three roles. -/
def HasRole (config : ChannelConfig) (id : Bytes) : Prop :=
  id ∈ config.dataNodes ∨ id ∈ config.computeNodes ∨ id ∈ config.resultNodes

/-- Every node is in the list of the first role that it has. -/
structure Sorted (config : ChannelConfig) : Prop where
  keyed : Keyed config.nodeInfoConfig
  data : Found config.nodeInfoConfig
    (fun id => id ∈ config.dataNodes ∧ id ∉ config.computeNodes) config.dataConfig
  compute : Found config.nodeInfoConfig (· ∈ config.computeNodes) config.computeConfig
  result : Found config.nodeInfoConfig
    (fun id => id ∈ config.resultNodes ∧ id ∉ config.computeNodes ∧ id ∉ config.dataNodes)
    config.resultConfig
  pureData : ∀ id, id ∈ config.pureDataNodes ↔
    id ∈ config.dataNodes ∧ id ∉ config.computeNodes
  pureResult : ∀ id, id ∈ config.pureResultNodes ↔
    id ∈ config.resultNodes ∧ id ∉ config.computeNodes ∧ id ∉ config.dataNodes

/-- `std::find` with `operator==`. -/
theorem Found.any_same {info : NodeMap} {has : Bytes → Prop} {found : List Node}
    (h : Found info has found) {n : Node} (hn : info[n.nodeId]? = some n) :
    found.any n.same = true ↔ has n.nodeId := by
  simp only [List.any_eq_true, Node.same, decide_eq_true_eq]
  constructor
  · rintro ⟨m, hm, hid⟩
    rw [hid]
    exact ((h m).mp hm).1
  · intro hhas
    exact ⟨n, (h n).mpr ⟨hhas, hn⟩, rfl⟩

theorem Listed.processNodeType (hl : Listed config) : Sorted config.processNodeType := by
  have hpure : ∀ id, id ∈ config.dataNodes.filter (fun id => ¬ config.computeNodes.contains id) ↔
      id ∈ config.dataNodes ∧ id ∉ config.computeNodes := by
    intro id
    simp
  have hdata : Found config.nodeInfoConfig
      (fun id => id ∈ config.dataNodes ∧ id ∉ config.computeNodes)
      (config.dataConfig.filter fun n => ¬ config.computeConfig.any n.same) := by
    intro n
    rw [List.mem_filter, decide_eq_true_eq, hl.data n]
    constructor
    · rintro ⟨⟨hmem, hn⟩, hnot⟩
      exact ⟨⟨hmem, fun hc => hnot ((hl.compute.any_same hn).mpr hc)⟩, hn⟩
    · rintro ⟨⟨hmem, hnot⟩, hn⟩
      exact ⟨⟨hmem, hn⟩, fun hc => hnot ((hl.compute.any_same hn).mp hc)⟩
  refine ⟨hl.keyed, hdata, hl.compute, ?_, hpure, ?_⟩
  · intro n
    simp only [ChannelConfig.processNodeType]
    rw [List.mem_filter, decide_eq_true_eq, hl.result n]
    constructor
    · rintro ⟨⟨hmem, hn⟩, hnot⟩
      rw [hl.compute.any_same hn, hdata.any_same hn] at hnot
      exact ⟨⟨hmem, by tauto⟩, hn⟩
    · rintro ⟨⟨hmem, hnot⟩, hn⟩
      refine ⟨⟨hmem, hn⟩, ?_⟩
      rw [hl.compute.any_same hn, hdata.any_same hn]
      tauto
  · intro id
    simp only [ChannelConfig.processNodeType, List.mem_filter, decide_eq_true_eq,
      Std.TreeMap.contains_iff_mem, List.contains_iff_mem]
    tauto

/-- The steps of a `load` that works. -/
theorem load_eq_ok {doc : Option Value} (h : load doc = .ok config) :
    ∃ v c₁ c₂ c₃ c₄ c₅, doc = some v ∧ parseNodeInfo v {} = .ok c₁ ∧ parseData v c₁ = .ok c₂ ∧
      parseCompute v c₂ = .ok c₃ ∧ parseResult v c₃ = .ok c₄ ∧ parseConnectParams v c₄ = .ok c₅ ∧
      config = c₅.processNodeType := by
  cases doc with
  | none => cases h
  | some v =>
    obtain ⟨c₁, h₁, h⟩ := Parse.bind_eq_ok.mp h
    obtain ⟨c₂, h₂, h⟩ := Parse.bind_eq_ok.mp h
    obtain ⟨c₃, h₃, h⟩ := Parse.bind_eq_ok.mp h
    obtain ⟨c₄, h₄, h⟩ := Parse.bind_eq_ok.mp h
    obtain ⟨c₅, h₅, h⟩ := Parse.bind_eq_ok.mp h
    exact ⟨v, c₁, c₂, c₃, c₄, c₅, rfl, h₁, h₂, h₃, h₄, h₅, (Except.ok.inj h).symm⟩

/-- **What `load` keeps of a document.** -/
theorem sorted_of_load {doc : Option Value} (h : load doc = .ok config) : Sorted config := by
  obtain ⟨_, _, _, _, _, _, -, h₁, h₂, h₃, h₄, h₅, rfl⟩ := load_eq_ok h
  have hl := parseNodeInfo_listed h₁
  exact ((((hl.parseData h₂).parseCompute h₃).parseResult h₄).parseConnectParams h₅).processNodeType

/-! ## The peers -/

/-- The nodes that `createInternalChannel` goes through, in its order. -/
def peerNodes (config : ChannelConfig) (id : Bytes) : List Node :=
  match config.getPrimaryNodeType id with
  | .data | .result => config.computeConfig
  | .compute =>
    config.dataConfig ++ config.computeConfig.filter (fun n => id ≠ n.nodeId) ++ config.resultConfig
  | .invalid => []

theorem Sorted.getPrimaryNodeType (h : Sorted config) {id : Bytes} (hrole : config.HasRole id) :
    (id ∈ config.computeNodes ∧ config.getPrimaryNodeType id = .compute) ∨
      (id ∉ config.computeNodes ∧ (config.getPrimaryNodeType id = .data ∨
        config.getPrimaryNodeType id = .result)) := by
  by_cases hc : id ∈ config.computeNodes
  · have hnot : id ∉ config.pureDataNodes := fun hd => ((h.pureData id).mp hd).2 hc
    simp [ChannelConfig.getPrimaryNodeType, hc, hnot]
  · by_cases hd : id ∈ config.dataNodes
    · have hpure : id ∈ config.pureDataNodes := (h.pureData id).mpr ⟨hd, hc⟩
      simp [ChannelConfig.getPrimaryNodeType, hc, hpure]
    · have hnot : id ∉ config.pureDataNodes := fun hp => hd ((h.pureData id).mp hp).1
      have hpure : id ∈ config.pureResultNodes := by
        refine (h.pureResult id).mpr ⟨?_, hc, hd⟩
        rcases hrole with hd' | hc' | hr
        · exact absurd hd' hd
        · exact absurd hc' hc
        · exact hr
      simp [ChannelConfig.getPrimaryNodeType, hc, hnot, hpure]

/-- Together the lists have the entries of all nodes with a role. -/
theorem Sorted.mem_nodes (h : Sorted config) {n : Node} :
    n ∈ config.dataConfig ++ config.computeConfig ++ config.resultConfig ↔
      config.HasRole n.nodeId ∧ config.nodeInfoConfig[n.nodeId]? = some n := by
  rw [List.mem_append, List.mem_append, h.data n, h.compute n, h.result n]
  constructor
  · rintro ((⟨⟨hd, -⟩, hinfo⟩ | ⟨hc, hinfo⟩) | ⟨⟨hr, -, -⟩, hinfo⟩)
    · exact ⟨.inl hd, hinfo⟩
    · exact ⟨.inr (.inl hc), hinfo⟩
    · exact ⟨.inr (.inr hr), hinfo⟩
  · rintro ⟨hrole, hinfo⟩
    by_cases hc : n.nodeId ∈ config.computeNodes
    · exact .inl (.inr ⟨hc, hinfo⟩)
    · by_cases hd : n.nodeId ∈ config.dataNodes
      · exact .inl (.inl ⟨⟨hd, hc⟩, hinfo⟩)
      · have hr := (hrole.resolve_left hd).resolve_left hc
        exact .inr ⟨⟨hr, hc, hd⟩, hinfo⟩

/-- **The peers of a node** are the nodes with another id and a role, when one of the two
computes. -/
theorem Sorted.mem_peerNodes (h : Sorted config) {id : Bytes} (hrole : config.HasRole id)
    (n : Node) : n ∈ config.peerNodes id ↔ n.nodeId ≠ id ∧ config.HasRole n.nodeId ∧
      config.nodeInfoConfig[n.nodeId]? = some n ∧
      (id ∈ config.computeNodes ∨ n.nodeId ∈ config.computeNodes) := by
  rcases h.getPrimaryNodeType hrole with ⟨hc, htype⟩ | ⟨hc, htype⟩
  · have hdata : n ∈ config.dataConfig → n.nodeId ≠ id := by
      rintro hn rfl
      exact ((h.data n).mp hn).1.2 hc
    have hresult : n ∈ config.resultConfig → n.nodeId ≠ id := by
      rintro hn rfl
      exact ((h.result n).mp hn).1.2.1 hc
    have hpeers : n ∈ config.peerNodes id ↔ n.nodeId ≠ id ∧
        n ∈ config.dataConfig ++ config.computeConfig ++ config.resultConfig := by
      simp only [peerNodes, htype, List.mem_append, List.mem_filter, decide_eq_true_eq, ne_comm]
      tauto
    simp only [hpeers, h.mem_nodes, hc, true_or, and_true]
  · have hpeers : config.peerNodes id = config.computeConfig := by
      rcases htype with htype | htype
      · simp only [peerNodes, htype]
      · simp only [peerNodes, htype]
    have hne : n.nodeId ∈ config.computeNodes → n.nodeId ≠ id := by
      rintro hn rfl
      exact hc hn
    rw [hpeers, h.compute n]
    simp only [HasRole, hc, false_or]
    tauto

/-- `GetNode` finds the entry of `NODE_INFO`. -/
theorem Sorted.getNode (h : Sorted config) {id : Bytes} (hrole : config.HasRole id) {node : Node}
    (hnode : config.nodeInfoConfig[id]? = some node) : config.getNode id = .ok node := by
  obtain rfl := h.keyed id node hnode
  have hmem : node ∈ config.dataConfig ++ config.computeConfig ++ config.resultConfig :=
    h.mem_nodes.mpr ⟨hrole, hnode⟩
  have hsame : ∀ n ∈ config.dataConfig ++ config.computeConfig ++ config.resultConfig,
      node.nodeId = n.nodeId → n = node := by
    intro n hn hid
    have hinfo := (h.mem_nodes.mp hn).2
    rw [← hid, hnode] at hinfo
    exact (Option.some.inj hinfo).symm
  unfold ChannelConfig.getNode
  split
  · next n hn =>
    have hid := List.find?_some hn
    rw [hsame n (List.mem_of_find?_eq_some hn) (of_decide_eq_true hid)]
  · next hnone =>
    exact absurd (decide_eq_true rfl) (List.find?_eq_none.mp hnone node hmem)

end ChannelConfig

namespace Peers

open ChannelConfig

/-- The peer is in the list of those that are connected to. -/
def Dials (peers : Peers) (id : Bytes) : Prop := ∃ i ∈ peers.serverInfos, i.id = id

/-- The peer is in the list of those that connect. -/
def Expects (peers : Peers) (id : Bytes) : Prop := ∃ i ∈ peers.clientInfos, i.id = id

/-- The loops go through the peers one by one. -/
theorem mem_foldl_add (id : Bytes) (node : Node) (ns : List Node) (peers : Peers) (i : NodeInfo) :
    (i ∈ (ns.foldl (add id node) peers).serverInfos ↔ i ∈ peers.serverInfos ∨
      ∃ n ∈ ns, copyNodeInfo n = i ∧ Connects id node n) ∧
    (i ∈ (ns.foldl (add id node) peers).clientInfos ↔ i ∈ peers.clientInfos ∨
      ∃ n ∈ ns, copyNodeInfo n = i ∧ ¬ Connects id node n) := by
  induction ns generalizing peers with
  | nil => simp
  | cons n ns ih =>
    rw [List.foldl_cons]
    by_cases hdials : Connects id node n
    · have hadd : add id node peers n
          = { peers with serverInfos := peers.serverInfos ++ [copyNodeInfo n] } := if_pos hdials
      rw [hadd]
      constructor
      · rw [(ih _).1]
        simp [hdials, or_assoc, eq_comm]
      · rw [(ih _).2]
        simp [hdials]
    · have hadd : add id node peers n
          = { peers with clientInfos := peers.clientInfos ++ [copyNodeInfo n] } := if_neg hdials
      rw [hadd]
      constructor
      · rw [(ih _).1]
        simp [hdials]
      · rw [(ih _).2]
        simp [hdials, or_assoc, eq_comm]

theorem dials_foldl (id : Bytes) (node : Node) (ns : List Node) (info : NodeInfo) (id' : Bytes) :
    (ns.foldl (add id node) { nodeInfo := info }).Dials id' ↔
      ∃ n ∈ ns, n.nodeId = id' ∧ Connects id node n := by
  simp only [Dials, (mem_foldl_add id node ns { nodeInfo := info } _).1]
  constructor
  · rintro ⟨i, hnil | ⟨n, hn, rfl, hconn⟩, hid⟩
    · cases hnil
    · exact ⟨n, hn, hid, hconn⟩
  · rintro ⟨n, hn, hid, hconn⟩
    exact ⟨copyNodeInfo n, .inr ⟨n, hn, rfl, hconn⟩, hid⟩

theorem expects_foldl (id : Bytes) (node : Node) (ns : List Node) (info : NodeInfo) (id' : Bytes) :
    (ns.foldl (add id node) { nodeInfo := info }).Expects id' ↔
      ∃ n ∈ ns, n.nodeId = id' ∧ ¬ Connects id node n := by
  simp only [Expects, (mem_foldl_add id node ns { nodeInfo := info } _).2]
  constructor
  · rintro ⟨i, hnil | ⟨n, hn, rfl, hconn⟩, hid⟩
    · cases hnil
    · exact ⟨n, hn, hid, hconn⟩
  · rintro ⟨n, hn, hid, hconn⟩
    exact ⟨copyNodeInfo n, .inr ⟨n, hn, rfl, hconn⟩, hid⟩

end Peers

namespace ChannelConfig

variable {config : ChannelConfig}

theorem createInternalChannel_eq {doc : Option Value} (hload : load doc = .ok config) {id : Bytes}
    (hrole : config.HasRole id) {node : Node} (hnode : config.nodeInfoConfig[id]? = some node) :
    createInternalChannel id doc = .ok ((config.peerNodes id).foldl (Peers.add id node)
      { nodeInfo := copyNodeInfo node }) := by
  have h := sorted_of_load hload
  unfold createInternalChannel
  rw [hload]
  simp only [bind, Except.bind, h.getNode hrole hnode]
  rcases h.getPrimaryNodeType hrole with ⟨-, htype⟩ | ⟨-, htype | htype⟩
  · simp only [htype, peerNodes, List.foldl_append]
  · simp only [htype, peerNodes]
  · simp only [htype, peerNodes]

/-- The node has a positive `PORT`. -/
def Up (config : ChannelConfig) (id : Bytes) : Prop :=
  ∃ node, config.nodeInfoConfig[id]? = some node ∧ 0 < node.port

theorem connects_iff {a b : Bytes} {na nb : Node} (ha : config.nodeInfoConfig[a]? = some na)
    (hb : config.nodeInfoConfig[b]? = some nb) (hid : nb.nodeId = b) :
    Peers.Connects a na nb ↔ Dials config.Up a b := by
  simp [Peers.Connects, Dials, Up, ha, hb, hid, copyNodeInfo]

/-- What is true of a peer with a given id is true of the entry of that id. -/
theorem Sorted.exists_peer_iff (h : Sorted config) {a b : Bytes} (hrole : config.HasRole a)
    {nb : Node} (hb : config.nodeInfoConfig[b]? = some nb) (hroleb : config.HasRole b)
    (P : Node → Prop) : (∃ n ∈ config.peerNodes a, n.nodeId = b ∧ P n) ↔
      (b ≠ a ∧ (a ∈ config.computeNodes ∨ b ∈ config.computeNodes)) ∧ P nb := by
  obtain rfl := h.keyed b nb hb
  constructor
  · rintro ⟨n, hn, hid, hP⟩
    obtain ⟨hne, -, hinfo, hc⟩ := (h.mem_peerNodes hrole n).mp hn
    rw [hid] at hne hinfo hc
    obtain rfl := Option.some.inj (hinfo.symm.trans hb)
    exact ⟨⟨hne, hc⟩, hP⟩
  · rintro ⟨⟨hne, hc⟩, hP⟩
    exact ⟨nb, (h.mem_peerNodes hrole nb).mpr ⟨hne, hroleb, hb, hc⟩, rfl, hP⟩

/-- The lists of one node. -/
structure Sees (config : ChannelConfig) (a : Bytes) (p : Peers) : Prop where
  dials : ∀ b nb, config.nodeInfoConfig[b]? = some nb → config.HasRole b →
    (p.Dials b ↔ (b ≠ a ∧ (a ∈ config.computeNodes ∨ b ∈ config.computeNodes)) ∧
      Dials config.Up a b)
  expects : ∀ b nb, config.nodeInfoConfig[b]? = some nb → config.HasRole b →
    (p.Expects b ↔ (b ≠ a ∧ (a ∈ config.computeNodes ∨ b ∈ config.computeNodes)) ∧
      ¬ Dials config.Up a b)
  port : ∀ i ∈ p.serverInfos, Dials config.Up a i.id ∧ (config.Up i.id → 0 < i.port)

theorem Sorted.sees (h : Sorted config) {a : Bytes} (hrole : config.HasRole a) {na : Node}
    (ha : config.nodeInfoConfig[a]? = some na) :
    Sees config a ((config.peerNodes a).foldl (Peers.add a na) { nodeInfo := copyNodeInfo na }) := by
  refine ⟨?_, ?_, ?_⟩
  · intro b nb hb hroleb
    rw [← connects_iff ha hb (h.keyed b nb hb), Peers.dials_foldl]
    exact h.exists_peer_iff hrole hb hroleb (Peers.Connects a na)
  · intro b nb hb hroleb
    rw [← connects_iff ha hb (h.keyed b nb hb), Peers.expects_foldl]
    exact h.exists_peer_iff hrole hb hroleb fun n => ¬ Peers.Connects a na n
  · intro i hi
    rcases (Peers.mem_foldl_add a na _ _ i).1.mp hi with hnil | ⟨n, hn, rfl, hconn⟩
    · cases hnil
    · obtain ⟨-, -, hinfo, -⟩ := (h.mem_peerNodes hrole n).mp hn
      refine ⟨(connects_iff ha hinfo rfl).mp hconn, ?_⟩
      rintro ⟨m, hm, hport⟩
      obtain rfl := Option.some.inj (hm.symm.trans hinfo)
      exact hport

/-- What two nodes have in their lists about each other. -/
structure Agree (config : ChannelConfig) (a b : Bytes) (p q : Peers) : Prop where
  /-- each has the other one for a peer, if one of the two computes -/
  both : ((p.Dials b ∨ p.Expects b) ↔ (q.Dials a ∨ q.Expects a)) ∧
    ((q.Dials a ∨ q.Expects a) ↔ (a ∈ config.computeNodes ∨ b ∈ config.computeNodes))
  /-- one of them connects, and the other one waits for it -/
  direction : (p.Dials b ∨ p.Expects b) →
    (p.Dials b ∧ ¬ p.Expects b ∧ q.Expects a ∧ ¬ q.Dials a) ∨
      (q.Dials a ∧ ¬ q.Expects a ∧ p.Expects b ∧ ¬ p.Dials b)
  /-- and it can -/
  port : (∀ i ∈ p.serverInfos, i.id = b → 0 < i.port) ∧
    ∀ i ∈ q.serverInfos, i.id = a → 0 < i.port
  noSelf : (¬ p.Dials a ∧ ¬ p.Expects a) ∧ ¬ q.Dials b ∧ ¬ q.Expects b

theorem Sees.agree {a b : Bytes} {p q : Peers} (hp : Sees config a p) (hq : Sees config b q)
    (hne : a ≠ b) {na nb : Node} (ha : config.nodeInfoConfig[a]? = some na)
    (hb : config.nodeInfoConfig[b]? = some nb) (hrolea : config.HasRole a)
    (hroleb : config.HasRole b) (hup : config.Up a ∨ config.Up b) : Agree config a b p q := by
  have hdials := dials_iff_not hne hup
  have hdials' := dials_iff_not hne.symm hup.symm
  have hpd := hp.dials b nb hb hroleb
  have hpe := hp.expects b nb hb hroleb
  have hqd := hq.dials a na ha hrolea
  have hqe := hq.expects a na ha hrolea
  simp only [ne_eq, hne, hne.symm, not_false_eq_true, true_and] at hpd hpe hqd hqe
  rw [← hdials] at hqe
  rw [hdials'] at hqd
  rw [or_comm (a := b ∈ config.computeNodes)] at hqd hqe
  generalize Dials config.Up a b = connects at hpd hpe hqd hqe
  refine ⟨?_, ?_, ?_, ?_⟩
  · rw [hpd, hpe, hqd, hqe]
    by_cases hc : connects
    · simp [hc]
    · simp [hc]
  · rw [hpd, hpe, hqd, hqe]
    by_cases hc : connects
    · simp [hc]
    · simp [hc]
  · constructor
    · rintro i hi rfl
      obtain ⟨hconn, hpos⟩ := hp.port i hi
      exact hpos (up_of_dials hup hconn)
    · rintro i hi rfl
      obtain ⟨hconn, hpos⟩ := hq.port i hi
      exact hpos (up_of_dials hup.symm hconn)
  · rw [hp.dials a na ha hrolea, hp.expects a na ha hrolea, hq.dials b nb hb hroleb,
      hq.expects b nb hb hroleb]
    simp

/-- **Topology agreement.** Two nodes that have an entry and a role, and not both without a port,
agree on whether they are peers and on who connects. -/
theorem topology_agrees {doc : Option Value} (hload : load doc = .ok config) {a b : Bytes}
    (hne : a ≠ b) {na nb : Node} (ha : config.nodeInfoConfig[a]? = some na)
    (hb : config.nodeInfoConfig[b]? = some nb) (hrolea : config.HasRole a)
    (hroleb : config.HasRole b) (hport : 0 < na.port ∨ 0 < nb.port) :
    ∃ p q, createInternalChannel a doc = .ok p ∧ createInternalChannel b doc = .ok q ∧
      Agree config a b p q := by
  have h := sorted_of_load hload
  have hup : config.Up a ∨ config.Up b := by
    rcases hport with hport | hport
    · exact .inl ⟨na, ha, hport⟩
    · exact .inr ⟨nb, hb, hport⟩
  exact ⟨_, _, createInternalChannel_eq hload hrolea ha, createInternalChannel_eq hload hroleb hb,
    (h.sees hrolea ha).agree (h.sees hroleb hb) hne ha hb hrolea hroleb hup⟩

/-- `a` computes and has no port; `b` brings data, also computes, and is listed twice. -/
theorem topology_agrees_small : ∃ doc config p q, load doc = .ok config ∧
    createInternalChannel (chars "a") doc = .ok p ∧
    createInternalChannel (chars "b") doc = .ok q ∧
    Agree config (chars "a") (chars "b") p q := by
  let doc : Value := .object [
    (chars "NODE_INFO", .array [
      .object [(chars "NODE_ID", .string (chars "a"))],
      .object [(chars "NODE_ID", .string (chars "b")), (chars "PORT", .int 11121)]]),
    (chars "DATA_NODES", .array [.string (chars "b"), .string (chars "b")]),
    (chars "COMPUTATION_NODES", .object [(chars "b", .int 1), (chars "a", .int 0)])]
  obtain ⟨config, hload, na, nb, ha, hb, hrolea, hroleb, hport⟩ : ∃ config,
      load (some doc) = .ok config ∧ ∃ na nb, config.nodeInfoConfig[chars "a"]? = some na ∧
        config.nodeInfoConfig[chars "b"]? = some nb ∧ config.HasRole (chars "a") ∧
        config.HasRole (chars "b") ∧ (0 < na.port ∨ 0 < nb.port) :=
    ⟨_, rfl, _, _, rfl, rfl, .inr (.inl (by decide)), .inl (by decide), .inr (by decide)⟩
  obtain ⟨p, q, hp, hq, hagree⟩ :=
    topology_agrees hload (by decide) ha hb hrolea hroleb hport
  exact ⟨some doc, config, p, q, hload, hp, hq, hagree⟩

end ChannelConfig

end Rosetta

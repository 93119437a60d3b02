import Rosetta.Config.Topology

/-!
# The nodes that a channel reports

A channel hands out its configuration: the data nodes, the computation nodes and the result nodes,
as the document lists them. The list of connected nodes is made from something else, the peers that
`CreateInternalChannel` has found, and these come from the entries of `NODE_INFO`.

* `TCPChannel` — what the getters read
* `restrict` — the entries of a list of ids
* `Entries` — the lists of nodes are the lists of ids without those that have no entry
* `connected_iff` — when the two kinds of lists agree
-/

namespace Rosetta

/-- `TCPChannel`, as far as the getters go. -/
structure TCPChannel where
  nodeId : Bytes
  config : ChannelConfig
  connectedNodes : List Bytes

namespace TCPChannel

def getDataNodeIDs (c : TCPChannel) : List Bytes := c.config.dataNodes

def getComputationNodeIDs (c : TCPChannel) : Std.TreeMap Bytes Int := c.config.computeNodes

def getResultNodeIDs (c : TCPChannel) : List Bytes := c.config.resultNodes

def getCurrentNodeID (c : TCPChannel) : Bytes := c.nodeId

def getConnectedNodeIDs (c : TCPChannel) : List Bytes := c.connectedNodes

end TCPChannel

/-- `CreateChannel`, when `init` succeeds. -/
def createChannel (config : ChannelConfig) (peers : Peers) : TCPChannel where
  nodeId := peers.nodeInfo.id
  config := config
  connectedNodes := peers.clientInfos.map NodeInfo.id ++ peers.serverInfos.map NodeInfo.id

namespace ChannelConfig

open Value

variable {config config' : ChannelConfig} {doc : Value} {info : NodeMap}

/-! ## The entries of a list of ids -/

/-- The entries that `NODE_INFO` has for the ids, in their order. -/
def restrict (info : NodeMap) (ids : List Bytes) : List Node :=
  ids.flatMap fun id => info[id]?.toList

theorem restrict_append (info : NodeMap) (ids ids' : List Bytes) :
    restrict info (ids ++ ids') = restrict info ids ++ restrict info ids' := List.flatMap_append

/-- Nodes are filtered as their ids are. -/
theorem filter_restrict {p : Node → Bool} {q : Bytes → Bool}
    (h : ∀ id n, info[id]? = some n → p n = q id) (ids : List Bytes) :
    (restrict info ids).filter p = restrict info (ids.filter q) := by
  induction ids with
  | nil => rfl
  | cons id ids ih =>
    rw [restrict, List.flatMap_cons, List.filter_append, ← restrict, ih, List.filter_cons]
    cases hinfo : info[id]? with
    | none =>
      split
      · rw [restrict, restrict, List.flatMap_cons, hinfo]
        rfl
      · rfl
    | some n =>
      have hpq := h id n hinfo
      split
      · next hq => simp [restrict, hinfo, hpq, hq]
      · next hq => simp [restrict, hpq, hq]

theorem count_filter_ite (p : Bytes → Bool) (ids : List Bytes) (id : Bytes) :
    (ids.filter p).count id = if p id then ids.count id else 0 := by
  split
  · next hp => exact List.count_filter hp
  · next hp => exact List.count_eq_zero.mpr fun hmem => hp (List.mem_filter.mp hmem).2

/-- The ids of the entries are the ids that have one. -/
theorem map_nodeId_restrict (hkeyed : Keyed info) (ids : List Bytes) :
    (restrict info ids).map Node.nodeId = ids.filter fun id => info.contains id := by
  induction ids with
  | nil => rfl
  | cons id ids ih =>
    rw [restrict, List.flatMap_cons, List.map_append, ← restrict, ih]
    cases hinfo : info[id]? with
    | none =>
      have hnot : info.contains id = false := by
        rw [Std.TreeMap.contains_eq_isSome_getElem?, hinfo, Option.isSome_none]
      rw [List.filter_cons_of_neg (by simp [hnot])]
      rfl
    | some n =>
      have hmem : info.contains id = true := by
        rw [Std.TreeMap.contains_eq_isSome_getElem?, hinfo, Option.isSome_some]
      rw [List.filter_cons_of_pos hmem, Option.toList_some, List.map_singleton, hkeyed id n hinfo,
        List.singleton_append]

theorem count_restrict (hkeyed : Keyed info) (ids : List Bytes) (id : Bytes) :
    ((restrict info ids).map Node.nodeId).count id = if id ∈ info then ids.count id else 0 := by
  rw [map_nodeId_restrict hkeyed, count_filter_ite]
  simp only [Std.TreeMap.contains_iff_mem]

/-! ## What is read -/

/-- The lists of nodes as they are read. -/
structure Entries (config : ChannelConfig) : Prop where
  data : config.dataConfig = restrict config.nodeInfoConfig config.dataNodes
  compute : config.computeConfig = restrict config.nodeInfoConfig config.computeNodes.keys
  result : config.resultConfig = restrict config.nodeInfoConfig config.resultNodes

theorem parseNodeInfo_entries (h : parseNodeInfo doc {} = .ok config) : Entries config := by
  obtain ⟨info, rfl, -⟩ := parseNodeInfo_eq_ok h
  exact ⟨rfl, rfl, rfl⟩

theorem nodeList_eq {nodes : List Value} {ids : List Bytes} {found : List Node}
    (h : nodeList info nodes = .ok (ids, found)) : found = restrict info ids := by
  refine nodeList_invariant (I := fun ids found => found = restrict info ids) rfl
    (fun ids found v id hfound _ _ => ?_) h
  rw [restrict_append, ← hfound]
  simp [restrict]

theorem Entries.parseData (he : Entries config) (h : parseData doc config = .ok config') :
    Entries config' := by
  rcases parseData_eq_ok h with rfl | ⟨nodes, ids, found, hlist, rfl⟩
  · exact he
  · exact ⟨nodeList_eq hlist, he.compute, he.result⟩

theorem Entries.parseCompute (he : Entries config) (h : parseCompute doc config = .ok config') :
    Entries config' := by
  rcases parseCompute_eq_ok h with rfl | ⟨members, nodes, -, -, rfl⟩
  · exact he
  · exact ⟨he.data, rfl, he.result⟩

theorem Entries.parseResult (he : Entries config) (h : parseResult doc config = .ok config') :
    Entries config' := by
  rcases parseResult_eq_ok h with rfl | ⟨nodes, ids, found, hlist, rfl⟩
  · exact he
  · exact ⟨he.data, he.compute, nodeList_eq hlist⟩

theorem Entries.parseConnectParams (he : Entries config)
    (h : parseConnectParams doc config = .ok config') : Entries config' := by
  obtain ⟨timeout, retries, rfl⟩ := parseConnectParams_eq_ok h
  exact ⟨he.data, he.compute, he.result⟩

/-! ## What is made of it -/

/-- The lists of nodes behind `process_node_type`. -/
structure PureEntries (config : ChannelConfig) : Prop where
  data : config.dataConfig = restrict config.nodeInfoConfig config.pureDataNodes
  compute : config.computeConfig = restrict config.nodeInfoConfig config.computeNodes.keys
  result : config.resultConfig = restrict config.nodeInfoConfig config.pureResultNodes
  pureData : config.pureDataNodes =
    config.dataNodes.filter fun id => ¬ config.computeNodes.contains id
  pureResult : config.pureResultNodes = config.resultNodes.filter fun id =>
    ¬ (config.computeNodes.contains id ∨ config.pureDataNodes.contains id)

theorem Entries.processNodeType (he : Entries config) (hl : Listed config) :
    PureEntries config.processNodeType := by
  have hcompute : ∀ id n, config.nodeInfoConfig[id]? = some n →
      config.computeConfig.any n.same = config.computeNodes.contains id := by
    intro id n hn
    obtain rfl := hl.keyed id n hn
    rw [Bool.eq_iff_iff, hl.compute.any_same hn, Std.TreeMap.contains_iff_mem]
  have hdata : config.processNodeType.dataConfig =
      restrict config.nodeInfoConfig config.processNodeType.pureDataNodes := by
    simp only [ChannelConfig.processNodeType]
    rw [he.data]
    refine filter_restrict (fun id n hn => ?_) _
    rw [hcompute id n hn]
  refine ⟨hdata, he.compute, ?_, rfl, rfl⟩
  have hl' := hl.processNodeType
  have hdata' : ∀ id n, config.nodeInfoConfig[id]? = some n →
      config.processNodeType.dataConfig.any n.same =
        config.processNodeType.pureDataNodes.contains id := by
    intro id n hn
    obtain rfl := hl.keyed id n hn
    rw [Bool.eq_iff_iff, hl'.data.any_same hn, List.contains_iff_mem, hl'.pureData]
  simp only [ChannelConfig.processNodeType] at hdata' ⊢
  rw [he.result]
  refine filter_restrict (fun id n hn => ?_) _
  rw [hcompute id n hn, hdata' id n hn]

theorem pureEntries_of_load {doc : Option Value} (h : load doc = .ok config) :
    PureEntries config := by
  obtain ⟨_, _, _, _, _, _, -, h₁, h₂, h₃, h₄, h₅, rfl⟩ := load_eq_ok h
  have hl := ((((parseNodeInfo_listed h₁).parseData h₂).parseCompute h₃).parseResult
    h₄).parseConnectParams h₅
  have he := ((((parseNodeInfo_entries h₁).parseData h₂).parseCompute h₃).parseResult
    h₄).parseConnectParams h₅
  exact he.processNodeType hl

end ChannelConfig

/-! ## The connected nodes -/

theorem Peers.perm_foldl_add (id : Bytes) (node : ChannelConfig.Node)
    (ns : List ChannelConfig.Node) (peers : Peers) :
    ((ns.foldl (add id node) peers).clientInfos ++ (ns.foldl (add id node) peers).serverInfos).Perm
      (peers.clientInfos ++ peers.serverInfos ++ ns.map copyNodeInfo) := by
  induction ns generalizing peers with
  | nil => simp
  | cons n ns ih =>
    rw [List.foldl_cons, List.map_cons]
    refine (ih _).trans ?_
    unfold add
    split
    · simp
    · rw [List.append_assoc, List.append_assoc, List.append_assoc, List.singleton_append]
      exact List.Perm.append_left _ List.perm_middle.symm

namespace ChannelConfig

variable {config : ChannelConfig} {doc : Option Value} {a : Bytes} {peers : Peers}

theorem peers_of_create (hload : load doc = .ok config)
    (h : createInternalChannel a doc = .ok peers) : ∃ node, config.getNode a = .ok node ∧
      peers = (config.peerNodes a).foldl (Peers.add a node) { nodeInfo := copyNodeInfo node } := by
  unfold createInternalChannel at h
  obtain ⟨c, hc, h⟩ := Parse.bind_eq_ok.mp h
  obtain rfl := Except.ok.inj (hload.symm.trans hc)
  obtain ⟨node, hnode, h⟩ := Parse.bind_eq_ok.mp h
  refine ⟨node, hnode, ?_⟩
  unfold peerNodes
  cases htype : config.getPrimaryNodeType a with
  | invalid =>
    rw [htype] at h
    cases h
  | compute =>
    simp only [htype, List.foldl_append] at h ⊢
    exact (Except.ok.inj h).symm
  | data =>
    simp only [htype] at h ⊢
    exact (Except.ok.inj h).symm
  | result =>
    simp only [htype] at h ⊢
    exact (Except.ok.inj h).symm

/-- How often a channel of `a` reports a node. -/
theorem count_connected (hload : load doc = .ok config) (ha : a ∈ config.computeNodes)
    (h : createInternalChannel a doc = .ok peers) (id : Bytes) :
    (createChannel config peers).getConnectedNodeIDs.count id =
      if id = a ∨ id ∉ config.nodeInfoConfig then 0
      else if id ∈ config.computeNodes then 1
      else if id ∈ config.dataNodes then config.dataNodes.count id
      else config.resultNodes.count id := by
  have hs := sorted_of_load hload
  have he := pureEntries_of_load hload
  have htype : config.getPrimaryNodeType a = .compute := by
    rcases hs.getPrimaryNodeType (.inr (.inl ha)) with ⟨-, htype⟩ | ⟨hnot, -⟩
    · exact htype
    · exact absurd ha hnot
  obtain ⟨node, -, rfl⟩ := peers_of_create hload h
  have hperm := (Peers.perm_foldl_add a node (config.peerNodes a)
    { nodeInfo := copyNodeInfo node }).map NodeInfo.id
  have hids : (config.peerNodes a).map (NodeInfo.id ∘ copyNodeInfo) =
      (config.peerNodes a).map Node.nodeId := rfl
  simp only [List.map_append, List.nil_append, List.map_map, hids] at hperm
  show List.count id (_ ++ _) = _
  rw [hperm.count_eq]
  have hothers : (restrict config.nodeInfoConfig config.computeNodes.keys).filter
      (fun n => a ≠ n.nodeId) =
        restrict config.nodeInfoConfig (config.computeNodes.keys.filter fun id => a ≠ id) := by
    refine filter_restrict (fun id n hn => ?_) _
    rw [hs.keyed id n hn]
  simp only [peerNodes, htype, List.map_append, List.count_append]
  rw [he.data, he.compute, he.result, hothers, count_restrict hs.keyed, count_restrict hs.keyed,
    count_restrict hs.keyed]
  have hkeys : config.computeNodes.keys.count id = if id ∈ config.computeNodes then 1 else 0 := by
    rw [Std.TreeMap.nodup_keys.count]
    simp only [Std.TreeMap.mem_keys]
  have hpure : config.pureDataNodes.contains id = true ↔
      id ∈ config.dataNodes ∧ id ∉ config.computeNodes := by
    rw [List.contains_iff_mem, hs.pureData]
  rw [he.pureResult, count_filter_ite, count_filter_ite, hkeys]
  simp only [hpure]
  rw [he.pureData, count_filter_ite]
  by_cases hid : id = a
  · subst hid
    simp [ha]
  · by_cases hinfo : id ∈ config.nodeInfoConfig
    · by_cases hc : id ∈ config.computeNodes
      · simp [hid, hinfo, hc, Ne.symm hid]
      · by_cases hd : id ∈ config.dataNodes
        · simp [hid, hinfo, hc, hd]
        · simp [hid, hinfo, hc, hd, List.count_eq_zero.mpr hd]
    · simp [hinfo]

/-! ## When the lists agree -/

/-- Every node with a role, the channel's own node apart, is reported once, and no other one. -/
def Reports (c : TCPChannel) (a : Bytes) : Prop :=
  ∀ id, c.getConnectedNodeIDs.count id = if id ≠ a ∧ (id ∈ c.getDataNodeIDs ∨
    id ∈ c.getComputationNodeIDs ∨ id ∈ c.getResultNodeIDs) then 1 else 0

/-- The node has an entry, and the list that it is taken from has it once. -/
def ListedOnce (config : ChannelConfig) (id : Bytes) : Prop :=
  id ∈ config.nodeInfoConfig ∧ (id ∈ config.computeNodes ∨ config.dataNodes.count id = 1 ∨
    (id ∉ config.dataNodes ∧ config.resultNodes.count id = 1))

/-- **When the reported lists agree.** A channel of a computation node reports every node with a
role exactly once as connected, if and only if each of these has an entry in `NODE_INFO`, and those
that do not compute are not repeated in `DATA_NODES`, or in `RESULT_NODES` if they bring no data. -/
theorem connected_iff (hload : load doc = .ok config) (ha : a ∈ config.computeNodes)
    (h : createInternalChannel a doc = .ok peers) :
    Reports (createChannel config peers) a ↔
      ∀ id, id ≠ a → config.HasRole id → config.ListedOnce id := by
  have hcount := count_connected hload ha h
  constructor
  · intro hreports id hne hrole
    have hone := hreports id
    have hrole' : id ∈ (createChannel config peers).getDataNodeIDs ∨
        id ∈ (createChannel config peers).getComputationNodeIDs ∨
        id ∈ (createChannel config peers).getResultNodeIDs := hrole
    rw [if_pos ⟨hne, hrole'⟩, hcount id] at hone
    split at hone
    · cases hone
    · next hnot =>
      have hinfo : id ∈ config.nodeInfoConfig := not_not.mp (not_or.mp hnot).2
      refine ⟨hinfo, ?_⟩
      split at hone
      · next hc => exact .inl hc
      · split at hone
        · exact .inr (.inl hone)
        · next hd => exact .inr (.inr ⟨hd, hone⟩)
  · intro honce id
    rw [hcount id]
    by_cases hid : id = a
    · rw [if_pos (.inl hid), if_neg (fun hne => hne.1 hid)]
    · by_cases hrole : config.HasRole id
      · obtain ⟨hinfo, hlist⟩ := honce id hid hrole
        have hrole' : id ≠ a ∧ (id ∈ (createChannel config peers).getDataNodeIDs ∨
            id ∈ (createChannel config peers).getComputationNodeIDs ∨
            id ∈ (createChannel config peers).getResultNodeIDs) := ⟨hid, hrole⟩
        rw [if_neg (not_or_intro hid (not_not_intro hinfo)), if_pos hrole']
        rcases hlist with hc | hd | ⟨hnot, hr⟩
        · rw [if_pos hc]
        · have hmem : id ∈ config.dataNodes := List.count_pos_iff.mp (by omega)
          rw [if_pos hmem, hd, ite_self]
        · rw [if_neg hnot, hr, ite_self]
      · have hrole' : ¬ (id ≠ a ∧ (id ∈ (createChannel config peers).getDataNodeIDs ∨
            id ∈ (createChannel config peers).getComputationNodeIDs ∨
            id ∈ (createChannel config peers).getResultNodeIDs)) := fun hr => hrole hr.2
        obtain ⟨hd, hc, hr⟩ : id ∉ config.dataNodes ∧ id ∉ config.computeNodes ∧
            id ∉ config.resultNodes := by simpa [HasRole, not_or] using hrole
        rw [if_neg hrole', if_neg hc, if_neg hd, List.count_eq_zero.mpr hr, ite_self]

/-- `a` computes and brings data as `b` does, which gets the results. -/
theorem connected_iff_small : ∃ doc config peers, load doc = .ok config ∧
    createInternalChannel (chars "a") doc = .ok peers ∧
    (Reports (createChannel config peers) (chars "a") ↔
      ∀ id, id ≠ chars "a" → config.HasRole id → config.ListedOnce id) := by
  let doc : Value := .object [
    (chars "NODE_INFO", .array [
      .object [(chars "NODE_ID", .string (chars "a")), (chars "PORT", .int 11120)],
      .object [(chars "NODE_ID", .string (chars "b")), (chars "PORT", .int 11121)]]),
    (chars "DATA_NODES", .array [.string (chars "a"), .string (chars "b")]),
    (chars "COMPUTATION_NODES", .object [(chars "a", .int 0)]),
    (chars "RESULT_NODES", .array [.string (chars "b")])]
  obtain ⟨config, peers, hload, ha, hpeers⟩ : ∃ config peers, load (some doc) = .ok config ∧
      chars "a" ∈ config.computeNodes ∧
      createInternalChannel (chars "a") (some doc) = .ok peers :=
    ⟨_, _, rfl, by decide, rfl⟩
  exact ⟨some doc, config, peers, hload, hpeers, connected_iff hload ha hpeers⟩

/-- **The lists need not agree.** The data node `d` has no entry in `NODE_INFO`. -/
theorem not_connected : ¬ ∀ doc config a peers, load doc = .ok config →
    a ∈ config.computeNodes → createInternalChannel a doc = .ok peers →
    Reports (createChannel config peers) a := by
  intro hall
  let doc : Value := .object [
    (chars "NODE_INFO", .array [.object [(chars "NODE_ID", .string (chars "a"))]]),
    (chars "DATA_NODES", .array [.string (chars "d")]),
    (chars "COMPUTATION_NODES", .object [(chars "a", .int 0)])]
  obtain ⟨config, peers, hload, ha, hpeers, hinfo, hd⟩ : ∃ config peers,
      load (some doc) = .ok config ∧ chars "a" ∈ config.computeNodes ∧
      createInternalChannel (chars "a") (some doc) = .ok peers ∧
      chars "d" ∉ config.nodeInfoConfig ∧ chars "d" ∈ config.dataNodes :=
    ⟨_, _, rfl, by decide, rfl, by decide, by decide⟩
  have hone := hall (some doc) config (chars "a") peers hload ha hpeers (chars "d")
  have hrole : chars "d" ≠ chars "a" ∧
      (chars "d" ∈ (createChannel config peers).getDataNodeIDs ∨
        chars "d" ∈ (createChannel config peers).getComputationNodeIDs ∨
        chars "d" ∈ (createChannel config peers).getResultNodeIDs) := ⟨by decide, .inl hd⟩
  rw [count_connected hload ha hpeers, if_pos (.inr hinfo), if_pos hrole] at hone
  cases hone

end ChannelConfig

end Rosetta

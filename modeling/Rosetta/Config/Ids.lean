import Rosetta.Config.Kinds
import Rosetta.Config.Roles

/-!
# The ids that a channel keeps

Every id is made from a `const char*`, and so none has a NUL in it. The loops that read the lists
count with an `int`, and that is why the lists can be counted with one.

* `Plain` — both, for the lists of a configuration
* `createChannel_plain` — no NUL in the ids of a channel and of its peers
-/

namespace Rosetta

namespace ChannelConfig

variable {doc : Value} {config config' : ChannelConfig}

/-- Ids without a NUL, and not too many of them. -/
structure Plain (config : ChannelConfig) : Prop where
  data : ∀ id ∈ config.dataNodes, 0 ∉ id
  compute : ∀ id ∈ config.computeNodes, 0 ∉ id
  result : ∀ id ∈ config.resultNodes, 0 ∉ id
  dataLength : config.dataNodes.length < 2 ^ 31
  computeSize : config.computeNodes.size < 2 ^ 31
  resultLength : config.resultNodes.length < 2 ^ 31

theorem parseNodeInfo_plain (h : parseNodeInfo doc {} = .ok config) : Plain config := by
  obtain ⟨info, rfl, -⟩ := parseNodeInfo_eq_ok h
  constructor <;> simp

theorem not_mem_getString {v : Value} {s : Bytes} (h : v.getString = .ok s) : 0 ∉ s := by
  cases v with
  | string t =>
    obtain rfl := Except.ok.inj h
    exact not_mem_cString t
  | _ => cases h

theorem nodeList_plain {info : NodeMap} {nodes : List Value} {ids : List Bytes}
    {found : List Node} (h : nodeList info nodes = .ok (ids, found)) :
    (∀ id ∈ ids, 0 ∉ id) ∧ ids.length < 2 ^ 31 := by
  refine nodeList_invariant (I := fun ids _ => (∀ id ∈ ids, 0 ∉ id) ∧ ids.length < 2 ^ 31)
    (by simp) (fun ids found v id hids hid hcount => ⟨?_, ?_⟩) h
  · have hone : ∀ s ∈ [id], 0 ∉ s := List.forall_mem_singleton.mpr (not_mem_getString hid)
    exact List.forall_mem_append.mpr ⟨hids.1, hone⟩
  · rwa [List.length_append, List.length_singleton]

theorem Plain.parseData (hp : Plain config) (h : parseData doc config = .ok config') :
    Plain config' := by
  rcases parseData_eq_ok h with rfl | ⟨nodes, ids, found, hlist, rfl⟩
  · exact hp
  · obtain ⟨hids, hlen⟩ := nodeList_plain hlist
    exact { hp with data := hids, dataLength := hlen }

theorem Plain.parseCompute (hp : Plain config) (h : parseCompute doc config = .ok config') :
    Plain config' := by
  rcases parseCompute_eq_ok h with rfl | ⟨members, nodes, hnodes, hsize, rfl⟩
  · exact hp
  · refine { hp with compute := fun id hid => ?_, computeSize := hsize }
    rcases (mem_computeLoop hnodes id).mp hid with hold | hnew
    · exact hp.compute id hold
    · obtain ⟨m, -, rfl⟩ := List.mem_map.mp hnew
      exact not_mem_cString m.1

theorem Plain.parseResult (hp : Plain config) (h : parseResult doc config = .ok config') :
    Plain config' := by
  rcases parseResult_eq_ok h with rfl | ⟨nodes, ids, found, hlist, rfl⟩
  · exact hp
  · obtain ⟨hids, hlen⟩ := nodeList_plain hlist
    exact { hp with result := hids, resultLength := hlen }

theorem Plain.parseConnectParams (hp : Plain config)
    (h : parseConnectParams doc config = .ok config') : Plain config' := by
  obtain ⟨timeout, retries, rfl⟩ := parseConnectParams_eq_ok h
  exact { hp with }

theorem plain_of_load {doc : Option Value} (h : load doc = .ok config) : Plain config := by
  obtain ⟨_, _, _, _, _, _, -, h₁, h₂, h₃, h₄, h₅, rfl⟩ := load_eq_ok h
  have hp := ((((parseNodeInfo_plain h₁).parseData h₂).parseCompute h₃).parseResult
    h₄).parseConnectParams h₅
  exact { hp with }

theorem Plain.of_hasRole (hp : Plain config) {id : Bytes} (h : config.HasRole id) : 0 ∉ id := by
  rcases h with hd | hc | hr
  · exact hp.data id hd
  · exact hp.compute id hc
  · exact hp.result id hr

/-! ## The peers -/

theorem mem_of_mem_peerNodes {id : Bytes} {n : Node} (hn : n ∈ config.peerNodes id) :
    n ∈ config.dataConfig ++ config.computeConfig ++ config.resultConfig := by
  unfold peerNodes at hn
  cases htype : config.getPrimaryNodeType id <;>
    simp only [htype, List.mem_append, List.mem_filter, List.not_mem_nil] at hn ⊢ <;> tauto

theorem mem_of_getNode {id : Bytes} {node : Node} (h : config.getNode id = .ok node) :
    node ∈ config.dataConfig ++ config.computeConfig ++ config.resultConfig := by
  unfold ChannelConfig.getNode at h
  split at h
  · next n hfind =>
    obtain rfl := Except.ok.inj h
    exact List.mem_of_find?_eq_some hfind
  · cases h

end ChannelConfig

theorem Peers.nodeInfo_foldl_add (id : Bytes) (node : ChannelConfig.Node)
    (ns : List ChannelConfig.Node) (peers : Peers) :
    (ns.foldl (add id node) peers).nodeInfo = peers.nodeInfo := by
  induction ns generalizing peers with
  | nil => rfl
  | cons n ns ih =>
    rw [List.foldl_cons, ih, add]
    split
    · rfl
    · rfl

open ChannelConfig in
/-- A channel has no id with a NUL in it, its own and those of its peers included. -/
theorem createChannel_plain {doc : Option Value} {config : ChannelConfig} {id : Bytes}
    {peers : Peers} (hload : load doc = .ok config)
    (h : createInternalChannel id doc = .ok peers) :
    0 ∉ (createChannel config peers).getCurrentNodeID ∧
      ∀ s ∈ (createChannel config peers).getConnectedNodeIDs, 0 ∉ s := by
  have hs := sorted_of_load hload
  have hp := plain_of_load hload
  obtain ⟨node, hnode, rfl⟩ := peers_of_create hload h
  refine ⟨?_, fun s hmem => ?_⟩
  · show 0 ∉ (Peers.nodeInfo _).id
    rw [Peers.nodeInfo_foldl_add]
    exact hp.of_hasRole (hs.mem_nodes.mp (mem_of_getNode hnode)).1
  · have hperm := (Peers.perm_foldl_add id node (config.peerNodes id)
      { nodeInfo := copyNodeInfo node }).map NodeInfo.id
    rw [List.map_append] at hperm
    have hmem := hperm.mem_iff.mp hmem
    simp only [List.nil_append, List.map_map, List.mem_map] at hmem
    obtain ⟨n, hn, rfl⟩ := hmem
    exact hp.of_hasRole (hs.mem_nodes.mp (mem_of_mem_peerNodes hn)).1

end Rosetta

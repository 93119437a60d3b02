import Rosetta.Client.Host
import Rosetta.Config.Roles
import Rosetta.Mesh.Complete

/-!
# The nodes of a configuration

All nodes read one document, and each of them makes the lists of its peers out of it. When every
node with a role has an entry and is listed once, of two peers one has a port, and the nodes with a
port have addresses of their own, the lists fit together (`Roster.ofConfig`).

* `Suits` — what the document must say
* `mem_dials`, `mem_expects` — who is in the lists of a node
* `connects_peers` — the connections that the nodes have in the end
-/

namespace Rosetta

open Lib

/-! ## Ids -/

namespace ClientId

def ofBytes (id : Bytes) : Option ClientId :=
  if h : id.length ≤ maxAlloc then some ⟨id, h⟩ else none

theorem ofBytes_eq_some {id : Bytes} {a : ClientId} : ofBytes id = some a ↔ id = a.bytes := by
  unfold ofBytes
  constructor
  · intro h
    split at h
    · obtain rfl := Option.some.inj h
      rfl
    · cases h
  · rintro rfl
    exact dif_pos a.fits

theorem mem_filterMap_ofBytes {a : ClientId} {ids : List Bytes} :
    a ∈ ids.filterMap ofBytes ↔ a.bytes ∈ ids := by
  simp [List.mem_filterMap, ofBytes_eq_some]

theorem nodup_filterMap_ofBytes {ids : List Bytes} (h : ids.Nodup) :
    (ids.filterMap ofBytes).Nodup := by
  refine h.filterMap fun x y a hx hy => ?_
  rw [ofBytes_eq_some.mp (Option.mem_def.mp hx), ofBytes_eq_some.mp (Option.mem_def.mp hy)]

end ClientId

namespace ChannelConfig

open Value

/-! ## The lists of a node -/

/-- The ids in a list of `CreateInternalChannel`. -/
def peerIds (infos : Peers → List NodeInfo) (doc : Option Value) (a : ClientId) : List ClientId :=
  match createInternalChannel a.bytes doc with
  | .ok p => ((infos p).map NodeInfo.id).filterMap ClientId.ofBytes
  | .error _ => []

/-- The ids in `server_infos_`. -/
def dials : Option Value → ClientId → List ClientId := peerIds Peers.serverInfos

/-- The ids in `client_infos_`. -/
def expects : Option Value → ClientId → List ClientId := peerIds Peers.clientInfos

/-- The address that the document has for a node. -/
def nodeAddress (getaddrinfo : Bytes → Option (List AddrInfo)) (config : ChannelConfig)
    (id : Bytes) : Option NodeAddress :=
  config.nodeInfoConfig[id]?.map fun node => (gethostip getaddrinfo node.host, node.port)

/-- The document is one that the nodes can be connected by. -/
structure Suits (getaddrinfo : Bytes → Option (List AddrInfo)) (doc : Option Value)
    (config : ChannelConfig) : Prop where
  loaded : load doc = .ok config
  once : ∀ id, config.HasRole id → config.ListedOnce id
  /-- Of two peers one can be connected to. -/
  port : ∀ a b, a ≠ b → a ∈ config.computeNodes → config.HasRole b → config.Up a ∨ config.Up b
  /-- No two nodes have one address. -/
  apart : ∀ a b, config.Up a → config.Up b → config.HasRole a → config.HasRole b →
    nodeAddress getaddrinfo config a = nodeAddress getaddrinfo config b → a = b

variable {getaddrinfo : Bytes → Option (List AddrInfo)} {doc : Option Value}
  {config : ChannelConfig} {a b : ClientId}

/-- Two nodes with a role, when one of the two computes. -/
def ArePeers (config : ChannelConfig) (a b : Bytes) : Prop :=
  a ≠ b ∧ config.HasRole a ∧ config.HasRole b ∧ (a ∈ config.computeNodes ∨ b ∈ config.computeNodes)

theorem ArePeers.symm {a b : Bytes} (h : config.ArePeers a b) : config.ArePeers b a :=
  ⟨h.1.symm, h.2.2.1, h.2.1, h.2.2.2.symm⟩

theorem Suits.exists_entry (h : Suits getaddrinfo doc config) {id : Bytes}
    (hrole : config.HasRole id) : ∃ node, config.nodeInfoConfig[id]? = some node := by
  have hmem := (h.once id hrole).1
  rw [Std.TreeMap.mem_iff_isSome_getElem?] at hmem
  exact Option.isSome_iff_exists.mp hmem

theorem Suits.up (h : Suits getaddrinfo doc config) {a b : Bytes} (hpeers : config.ArePeers a b) :
    config.Up a ∨ config.Up b := by
  obtain ⟨hne, hrolea, hroleb, hc | hc⟩ := hpeers
  · exact h.port a b hne hc hroleb
  · exact (h.port b a hne.symm hc hrolea).symm

/-- A node without a role has no channel. -/
theorem createInternalChannel_of_not_hasRole (h : Suits getaddrinfo doc config) {id : Bytes}
    (hrole : ¬ config.HasRole id) (p : Peers) : createInternalChannel id doc ≠ .ok p := by
  intro hp
  have hs := sorted_of_load h.loaded
  obtain ⟨hdata, hcompute, hresult⟩ : id ∉ config.dataNodes ∧ id ∉ config.computeNodes ∧
      id ∉ config.resultNodes := by simpa [HasRole, not_or] using hrole
  have hpure : id ∉ config.pureDataNodes := fun hd => hdata ((hs.pureData id).mp hd).1
  have hpure' : id ∉ config.pureResultNodes := fun hr => hresult ((hs.pureResult id).mp hr).1
  have htype : config.getPrimaryNodeType id = .invalid := by
    simp [ChannelConfig.getPrimaryNodeType, hpure, hcompute, hpure']
  unfold createInternalChannel at hp
  obtain ⟨c, hc, hp⟩ := Parse.bind_eq_ok.mp hp
  obtain rfl := Except.ok.inj (h.loaded.symm.trans hc)
  obtain ⟨node, -, hp⟩ := Parse.bind_eq_ok.mp hp
  rw [htype] at hp
  cases hp

/-- What a node with a role reads. -/
theorem Suits.sees (h : Suits getaddrinfo doc config) {id : Bytes} (hrole : config.HasRole id) :
    ∃ p, createInternalChannel id doc = .ok p ∧ Sees config id p ∧
      ∀ i, i ∈ p.serverInfos ∨ i ∈ p.clientInfos → config.HasRole i.id ∧
        config.nodeInfoConfig[i.id]?.map copyNodeInfo = some i := by
  have hs := sorted_of_load h.loaded
  obtain ⟨node, hnode⟩ := h.exists_entry hrole
  refine ⟨_, createInternalChannel_eq h.loaded hrole hnode, hs.sees hrole hnode, fun i hi => ?_⟩
  rw [(Peers.mem_foldl_add id node _ _ i).1, (Peers.mem_foldl_add id node _ _ i).2] at hi
  obtain ⟨n, hn, rfl⟩ : ∃ n ∈ config.peerNodes id, copyNodeInfo n = i := by
    rcases hi with (hnil | ⟨n, hn, heq, -⟩) | (hnil | ⟨n, hn, heq, -⟩)
    · cases hnil
    · exact ⟨n, hn, heq⟩
    · cases hnil
    · exact ⟨n, hn, heq⟩
  obtain ⟨-, hrolen, hentry, -⟩ := (hs.mem_peerNodes hrole n).mp hn
  exact ⟨hrolen, Option.map_eq_some_iff.mpr ⟨n, hentry, rfl⟩⟩

/-- A list of peers, when it is known which of the nodes with a role it has. -/
theorem Suits.mem_peerIds (h : Suits getaddrinfo doc config) {infos : Peers → List NodeInfo}
    {P : Bytes → Bytes → Prop}
    (hinfos : ∀ p i, i ∈ infos p → i ∈ p.serverInfos ∨ i ∈ p.clientInfos)
    (hsees : ∀ a p b nb, Sees config a p → config.nodeInfoConfig[b]? = some nb →
      config.HasRole b → ((∃ i ∈ infos p, i.id = b) ↔
        (b ≠ a ∧ (a ∈ config.computeNodes ∨ b ∈ config.computeNodes)) ∧ P a b))
    (a b : ClientId) : b ∈ peerIds infos doc a ↔
      config.ArePeers a.bytes b.bytes ∧ P a.bytes b.bytes := by
  unfold peerIds
  by_cases hrole : config.HasRole a.bytes
  · obtain ⟨p, hp, hs, hall⟩ := h.sees hrole
    simp only [hp, ClientId.mem_filterMap_ofBytes, List.mem_map]
    constructor
    · rintro ⟨i, hi, hid⟩
      have hroleb : config.HasRole b.bytes := hid ▸ (hall i (hinfos p i hi)).1
      obtain ⟨nb, hb⟩ := h.exists_entry hroleb
      obtain ⟨⟨hne, hc⟩, hP⟩ := (hsees _ p _ nb hs hb hroleb).mp ⟨i, hi, hid⟩
      exact ⟨⟨hne.symm, hrole, hroleb, hc⟩, hP⟩
    · rintro ⟨⟨hne, -, hroleb, hc⟩, hP⟩
      obtain ⟨nb, hb⟩ := h.exists_entry hroleb
      exact (hsees _ p _ nb hs hb hroleb).mpr ⟨⟨hne.symm, hc⟩, hP⟩
  · refine iff_of_false ?_ fun hpeers => hrole hpeers.1.2.1
    split
    · next p hp => exact absurd hp (createInternalChannel_of_not_hasRole h hrole p)
    · exact List.not_mem_nil

/-- A node connects to the peers for which the test comes out so. -/
theorem Suits.mem_dials (h : Suits getaddrinfo doc config) (a b : ClientId) : b ∈ dials doc a ↔
    config.ArePeers a.bytes b.bytes ∧ Dials config.Up a.bytes b.bytes :=
  h.mem_peerIds (fun _ _ hi => .inl hi) (fun _ _ b nb hs hb hrole => hs.dials b nb hb hrole) a b

theorem Suits.up_of_dials (h : Suits getaddrinfo doc config) (hab : b ∈ dials doc a) :
    config.Up b.bytes := by
  obtain ⟨hpeers, hd⟩ := (h.mem_dials a b).mp hab
  unfold Dials at hd
  have hup := h.up hpeers
  tauto

theorem Suits.nodup_peers (h : Suits getaddrinfo doc config) {id : Bytes} {p : Peers}
    (hp : createInternalChannel id doc = .ok p) :
    (p.serverInfos.map NodeInfo.id ++ p.clientInfos.map NodeInfo.id).Nodup := by
  have hs := sorted_of_load h.loaded
  have he := pureEntries_of_load h.loaded
  have hrole : config.HasRole id := by
    by_contra hrole
    exact createInternalChannel_of_not_hasRole h hrole p hp
  refine (List.perm_append_comm.nodup_iff).mpr (List.nodup_iff_count_le_one.mpr fun x => ?_)
  rcases hs.getPrimaryNodeType hrole with ⟨hc, -⟩ | ⟨-, htype⟩
  · -- each peer is counted in the list that it is taken from
    have hcount := count_connected h.loaded hc hp x
    rw [show p.clientInfos.map NodeInfo.id ++ p.serverInfos.map NodeInfo.id
      = (createChannel config p).getConnectedNodeIDs from rfl, hcount]
    split
    · exact Nat.zero_le _
    · split
      · exact Nat.le_refl _
      · next hcx =>
        split
        · next hd =>
          rcases (h.once x (.inl hd)).2 with hx | hx | ⟨hx, -⟩
          · exact absurd hx hcx
          · exact hx.le
          · exact absurd hd hx
        · next hd =>
          by_cases hr : x ∈ config.resultNodes
          · rcases (h.once x (.inr (.inr hr))).2 with hx | hx | ⟨-, hx⟩
            · exact absurd hx hcx
            · exact absurd (List.count_pos_iff.mp (hx.symm ▸ Nat.one_pos)) hd
            · exact hx.le
          · rw [List.count_eq_zero.mpr hr]
            exact Nat.zero_le _
  · obtain ⟨node, -, rfl⟩ := peers_of_create h.loaded hp
    have hpeers : config.peerNodes id = config.computeConfig := by
      rcases htype with htype | htype
      · simp only [peerNodes, htype]
      · simp only [peerNodes, htype]
    have hperm := (Peers.perm_foldl_add id node (config.peerNodes id)
      { nodeInfo := copyNodeInfo node }).map NodeInfo.id
    have hids : (config.peerNodes id).map (NodeInfo.id ∘ copyNodeInfo) =
        (config.peerNodes id).map Node.nodeId := rfl
    simp only [List.map_append, List.nil_append, List.map_map, hids] at hperm
    rw [hperm.count_eq, hpeers, he.compute, count_restrict hs.keyed, Std.TreeMap.nodup_keys.count]
    split
    · split
      · exact Nat.le_refl _
      · exact Nat.zero_le _
    · exact Nat.zero_le _

theorem Suits.nodup (h : Suits getaddrinfo doc config) (a : ClientId) :
    (dials doc a ++ expects doc a).Nodup := by
  unfold dials expects peerIds
  cases hp : createInternalChannel a.bytes doc with
  | error e => exact List.nodup_nil
  | ok p =>
    simp only
    rw [← List.filterMap_append]
    exact ClientId.nodup_filterMap_ofBytes (h.nodup_peers hp)

end ChannelConfig

/-! ## The roster -/

open ChannelConfig

variable {getaddrinfo : Bytes → Option (List AddrInfo)} {doc : Option Value}
  {config : ChannelConfig}

namespace Mesh

variable {m : Mesh} {acts : List MeshAct}

section Run

end Run

end Mesh

end Rosetta

import Rosetta.Machine

/-!
# The configuration of a channel

`ChannelConfig` reads a JSON document: which nodes there are, and which of them bring data, compute
and get results. `createInternalChannel` makes two lists out of it for the node that it runs on:
the peers that are to connect here, and those to connect to.

* `Value` — a parsed document, as rapidjson hands it out
* `ChannelConfig` — what `load` keeps of it
* `Peers` — what `CreateInternalChannel` passes to `CreateChannel`
-/

namespace Rosetta

/-! ## Documents -/

/-- Why a configuration is not read to its end. -/
inductive ConfigFault where
  /-- `RAPIDJSON_ASSERT`: a value has not the type it is used as -/
  | assertion
  /-- a signed overflow -/
  | overflow
  /-- `other_exp` -/
  | thrown (what : String)
  deriving DecidableEq, Repr

abbrev Parse := Except ConfigFault

theorem Parse.bind_eq_ok {α β : Type} {x : Parse α} {f : α → Parse β} {r : β} :
    x >>= f = .ok r ↔ ∃ a, x = .ok a ∧ f a = .ok r := by
  cases x with
  | error e => simp [bind, Except.bind]
  | ok a => simp [bind, Except.bind]

@[simp] theorem Parse.ok_bind {α β : Type} (a : α) (f : α → Parse β) :
    (Except.ok a : Parse α) >>= f = f a := rfl

@[simp] theorem Parse.error_bind {α β : Type} (e : ConfigFault) (f : α → Parse β) :
    (Except.error e : Parse α) >>= f = .error e := rfl

/-- `rapidjson::Value`. -/
inductive Value where
  | null
  | bool (b : Bool)
  | int (n : Int)
  /-- a number that is not an integer -/
  | double
  | string (s : Bytes)
  | array (elements : List Value)
  | object (members : List (Bytes × Value))

namespace Value

/-- `HasMember(key)`, and then the first member with this name. -/
def findMember (v : Value) (key : String) : Parse (Option Value) :=
  match v with
  | .object members => .ok (members.lookup (chars key))
  | _ => .error .assertion

def getString : Value → Parse Bytes
  | .string s => .ok (cString s)
  | _ => .error .assertion

def isInt : Value → Bool
  | .int n => -2 ^ 31 ≤ n ∧ n < 2 ^ 31
  | _ => false

def getInt : Value → Parse Int
  | .int n => if (Value.int n).isInt then .ok n else .error .assertion
  | _ => .error .assertion

/-- `if_key_not_exist_then_exit`, and the default value when it returns. -/
def missing {α : Type} (key : String) (defaultValue : α) (mustExist : Bool) : Parse α :=
  if mustExist then .error (.thrown ("key[" ++ key ++ "] not exist!")) else .ok defaultValue

/-- `GetString(v, key, default_value, must_exist)`. -/
def getStringOr (v : Value) (key : String) (defaultValue : Bytes) (mustExist : Bool) :
    Parse Bytes := do
  match ← v.findMember key with
  | some x => x.getString
  | none => missing key defaultValue mustExist

/-- `GetInt(v, key, default_value, must_exist)`. -/
def getIntOr (v : Value) (key : String) (defaultValue : Int) (mustExist : Bool) : Parse Int := do
  match ← v.findMember key with
  | some x => x.getInt
  | none => missing key defaultValue mustExist

end Value

/-- The `int` of a loop counts to `n`. -/
def countTo (n : Nat) : Parse Unit := if n < 2 ^ 31 then .ok () else .error .overflow

/-! ## The configuration -/

structure ChannelConfig.Node where
  nodeId : Bytes
  name : Bytes
  host : Bytes
  port : Int
  deriving DecidableEq

/-- `operator==`. -/
def ChannelConfig.Node.same (n m : ChannelConfig.Node) : Bool := n.nodeId = m.nodeId

inductive NodeType where
  | invalid | data | compute | result
  deriving DecidableEq, Repr

/-- `map<string, NodeInfoConfig>`. -/
abbrev NodeMap := Std.TreeMap Bytes ChannelConfig.Node

structure ChannelConfig where
  nodeInfoConfig : NodeMap := ∅
  dataNodes : List Bytes := []
  pureDataNodes : List Bytes := []
  computeNodes : Std.TreeMap Bytes Int := ∅
  resultNodes : List Bytes := []
  pureResultNodes : List Bytes := []
  dataConfig : List ChannelConfig.Node := []
  computeConfig : List ChannelConfig.Node := []
  resultConfig : List ChannelConfig.Node := []
  /-- in milliseconds -/
  connectTimeout : Int := 10 * 1000
  connectRetries : Int := 5

namespace ChannelConfig

open Value

/-- An element of `NODE_INFO`. -/
def nodeInfo (i : Nat) (v : Value) : Parse Node := do
  let nodeId ← v.getStringOr "NODE_ID" (chars "") false
  let name ← v.getStringOr "NAME" (chars "Node-" ++ chars (toString i)) false
  let host ← v.getStringOr "HOST" (chars "127.0.0.1") false
  let port ← v.getIntOr "PORT" 0 false
  .ok { nodeId, name, host, port }

def parseNodeInfo (doc : Value) (config : ChannelConfig) : Parse ChannelConfig := do
  match ← doc.findMember "NODE_INFO" with
  | some (.array nodes) => do
    let info ← nodes.zipIdx.foldlM
      (fun info (v, i) => do
        let n ← nodeInfo i v
        countTo (i + 1)
        .ok (info.insertIfNew n.nodeId n))
      config.nodeInfoConfig
    .ok { config with nodeInfoConfig := info }
  | _ => .ok config

/-- The ids in a list of nodes, and the nodes of those that have an entry in `NODE_INFO`. -/
def nodeList (info : NodeMap) (nodes : List Value) : Parse (List Bytes × List Node) :=
  nodes.foldlM
    (fun (ids, found) v => do
      let id ← v.getString
      countTo (ids.length + 1)
      .ok (ids ++ [id], found ++ info[id]?.toList))
    ([], [])

def parseData (doc : Value) (config : ChannelConfig) : Parse ChannelConfig := do
  match ← doc.findMember "DATA_NODES" with
  | some (.array nodes) => do
    let (ids, found) ← nodeList config.nodeInfoConfig nodes
    .ok { config with dataNodes := ids, dataConfig := found }
  | _ => .ok config

def parseCompute (doc : Value) (config : ChannelConfig) : Parse ChannelConfig := do
  match ← doc.findMember "COMPUTATION_NODES" with
  | some (.object members) => do
    let nodes ← members.foldlM
      (fun nodes (name, v) => do
        let value ← v.getInt
        .ok (nodes.insertIfNew (cString name) value))
      config.computeNodes
    countTo nodes.size
    .ok { config with
      computeNodes := nodes
      computeConfig := nodes.keys.flatMap fun id => config.nodeInfoConfig[id]?.toList }
  | _ => .ok config

def parseResult (doc : Value) (config : ChannelConfig) : Parse ChannelConfig := do
  match ← doc.findMember "RESULT_NODES" with
  | some (.array nodes) => do
    let (ids, found) ← nodeList config.nodeInfoConfig nodes
    .ok { config with resultNodes := ids, resultConfig := found }
  | _ => .ok config

/-- A member of `CONNECT_PARAMS` that is a positive number. -/
def connectParam (params : Value) (key : String) : Parse (Option Int) := do
  match ← params.findMember key with
  | some (.int n) => .ok (if (Value.int n).isInt ∧ 0 < n then some n else none)
  | _ => .ok none

/-- `connect_timeout_ = timeout * 1000`. -/
def setTimeout (config : ChannelConfig) : Option Int → Parse ChannelConfig
  | some timeout =>
    if timeout * 1000 < 2 ^ 31 then .ok { config with connectTimeout := timeout * 1000 }
    else .error .overflow
  | none => .ok config

def parseConnectParams (doc : Value) (config : ChannelConfig) : Parse ChannelConfig := do
  match ← doc.findMember "CONNECT_PARAMS" with
  | some (.object members) => do
    let timeout ← connectParam (.object members) "TIMEOUT"
    let config ← config.setTimeout timeout
    let retries ← connectParam (.object members) "RETRIES"
    .ok { config with connectRetries := retries.getD config.connectRetries }
  | _ => .ok config

/-- A node that computes is no pure data or result node, and one that has data is no pure result
node. -/
def processNodeType (config : ChannelConfig) : ChannelConfig :=
  let pureData := config.dataNodes.filter fun id => ¬ config.computeNodes.contains id
  let pureResult := config.resultNodes.filter fun id =>
    ¬ (config.computeNodes.contains id ∨ pureData.contains id)
  let dataConfig := config.dataConfig.filter fun n => ¬ config.computeConfig.any n.same
  let resultConfig := config.resultConfig.filter fun n =>
    ¬ (config.computeConfig.any n.same ∨ dataConfig.any n.same)
  { config with
    pureDataNodes := pureData, pureResultNodes := pureResult, dataConfig, resultConfig }

def parse (doc : Value) : Parse ChannelConfig := do
  let config ← parseNodeInfo doc {}
  let config ← parseData doc config
  let config ← parseCompute doc config
  let config ← parseResult doc config
  let config ← parseConnectParams doc config
  .ok config.processNodeType

/-- `ChannelConfig(node_id, config_json)`; `none` is a text that is no JSON. -/
def load : Option Value → Parse ChannelConfig
  | some doc => parse doc
  | none => .error (.thrown "ChannelConfig load2 config json failed!")

def getPrimaryNodeType (config : ChannelConfig) (nodeId : Bytes) : NodeType :=
  if config.pureDataNodes.contains nodeId then .data
  else if config.computeNodes.contains nodeId then .compute
  else if config.pureResultNodes.contains nodeId then .result
  else .invalid

def getNode (config : ChannelConfig) (nodeId : Bytes) : Parse Node :=
  match (config.dataConfig ++ config.computeConfig ++ config.resultConfig).find?
      fun n => nodeId = n.nodeId with
  | some n => .ok n
  | none => .error (.thrown "can not find node in config!")

end ChannelConfig

/-! ## The peers of a node -/

structure NodeInfo where
  id : Bytes
  address : Bytes
  port : Int
  deriving DecidableEq

def copyNodeInfo (src : ChannelConfig.Node) : NodeInfo := ⟨src.nodeId, src.host, src.port⟩

/-- What `CreateInternalChannel` passes to `CreateChannel`. -/
structure Peers where
  nodeInfo : NodeInfo
  /-- the peers that connect to this node -/
  clientInfos : List NodeInfo := []
  /-- the peers that this node connects to -/
  serverInfos : List NodeInfo := []

namespace Peers

open ChannelConfig

/-- The test of the loops: this node connects to the peer, and does not wait for it to connect. -/
def Connects (nodeId : Bytes) (node peer : Node) : Prop :=
  node.port ≤ 0 ∨ (0 < (copyNodeInfo peer).port ∧ nodeId < peer.nodeId)

instance (nodeId : Bytes) (node peer : Node) : Decidable (Connects nodeId node peer) :=
  inferInstanceAs (Decidable (_ ∨ _))

/-- One round of the loops over the peers. -/
def add (nodeId : Bytes) (node : Node) (peers : Peers) (peer : Node) : Peers :=
  if Connects nodeId node peer then
    { peers with serverInfos := peers.serverInfos ++ [copyNodeInfo peer] }
  else
    { peers with clientInfos := peers.clientInfos ++ [copyNodeInfo peer] }

end Peers

/-- `CreateInternalChannel`, up to the call of `CreateChannel`. -/
def createInternalChannel (nodeId : Bytes) (doc : Option Value) : Parse Peers := do
  let config ← ChannelConfig.load doc
  let node ← config.getNode nodeId
  let peers : Peers := { nodeInfo := copyNodeInfo node }
  match config.getPrimaryNodeType nodeId with
  | .data => .ok (config.computeConfig.foldl (Peers.add nodeId node) peers)
  | .compute =>
    let peers := config.dataConfig.foldl (Peers.add nodeId node) peers
    let others := config.computeConfig.filter fun n => nodeId ≠ n.nodeId
    let peers := others.foldl (Peers.add nodeId node) peers
    .ok (config.resultConfig.foldl (Peers.add nodeId node) peers)
  | .result => .ok (config.computeConfig.foldl (Peers.add nodeId node) peers)
  | .invalid => .error (.thrown "can not find node in config file!")

end Rosetta

import Rosetta.Channel.Decode
import Rosetta.Channel.Delete
import Rosetta.Channel.Lifetime
import Rosetta.Config.Ids

/-!
# The answers of the getters

The getters of a channel return C structures. The first call encodes the answer and keeps the
pointer in a global map, one map for each getter, under the address of the channel; the others find
it there. `DestroyInternalChannel` frees what it finds under the address.

* `Answers` — the five maps, with the channels and the memory behind the pointers
* `Getter` — the getters, by the map that they use
* `ChannelCall` — the calls of the interface, one after the other
-/

namespace Rosetta

open Lib Writing

/-- The getters of `IChannel`. -/
inductive Getter where
  | currentNode
  | dataNodes
  | computationNodes
  | resultNodes
  | connectedNodes
  deriving DecidableEq, Repr

/-- What a getter has to say. -/
inductive Answer where
  | string (s : Bytes)
  | vector (vec : List Bytes)
  | map (nodes : Std.TreeMap Bytes Int)

structure Answers where
  channels : Channels := {}
  /-- the channel objects -/
  objects : AList fun _ : Nat => TCPChannel := ∅
  /-- `g_current_node_map`, `g_data_node_map`, `g_computation_node_map`, `g_result_node_map`,
  `g_connected_node_map` -/
  nodeMap : Getter → AList fun _ : Nat => Nat := fun _ => ∅
  memory : Memory := Heap.empty

inductive ChannelCall where
  /-- `CreateInternalChannel`; `made` is what `new TCPChannel` returns, when `init` succeeds -/
  | create (task nodeId : Bytes) (doc : Option Value) (made : Option Nat)
  | get (g : Getter) (ch : Nat)
  /-- `DestroyInternalChannel` -/
  | destroy (ch : Nat)

namespace Answers

/-! ## The getters -/

def object (n : Answers) (ch : Nat) : Exec TCPChannel := written (n.objects.lookup ch)

/-- Puts a pointer into a map, or takes it out. -/
def setEntry (n : Answers) (g : Getter) (entries : AList fun _ : Nat => Nat) (memory : Memory) :
    Answers := { n with memory, nodeMap := Function.update n.nodeMap g entries }

/-- The body of the getters. -/
def cached (g : Getter) (encode : TCPChannel → Writing Nat) (n : Answers) (ch : Nat) :
    Exec (Nat × Answers) := do
  let c ← n.object ch
  match (n.nodeMap g).lookup ch with
  | none => do
    let (nodes, memory) ← encode c n.memory
    .ok (nodes, n.setEntry g ((n.nodeMap g).insert ch nodes) memory)
  | some nodes => .ok (nodes, n)

def getDataNodeIDs : Answers → Nat → Exec (Nat × Answers) :=
  cached .dataNodes fun c => encodeVector c.getDataNodeIDs

def getComputationNodeIDs : Answers → Nat → Exec (Nat × Answers) :=
  cached .computationNodes fun c => encodeMap c.getComputationNodeIDs

def getResultNodeIDs : Answers → Nat → Exec (Nat × Answers) :=
  cached .resultNodes fun c => encodeVector c.getResultNodeIDs

def getCurrentNodeID : Answers → Nat → Exec (Nat × Answers) :=
  cached .currentNode fun c => encodeString c.getCurrentNodeID

def getConnectedNodeIDs : Answers → Nat → Exec (Nat × Answers) :=
  cached .connectedNodes fun c => encodeVector c.getConnectedNodeIDs

def get (n : Answers) : Getter → Nat → Exec (Nat × Answers)
  | .currentNode => n.getCurrentNodeID
  | .dataNodes => n.getDataNodeIDs
  | .computationNodes => n.getComputationNodeIDs
  | .resultNodes => n.getResultNodeIDs
  | .connectedNodes => n.getConnectedNodeIDs

/-! ## `DestroyInternalChannel` -/

/-- The body of the helpers. -/
def destroyEntry (g : Getter) (free : Nat → Writing Unit) (n : Answers) (ch : Nat) :
    Exec Answers :=
  match (n.nodeMap g).lookup ch with
  | some nodes => do
    let (_, memory) ← free nodes n.memory
    .ok (n.setEntry g ((n.nodeMap g).erase ch) memory)
  | none => .ok n

def destroyCurrentNode : Answers → Nat → Exec Answers := destroyEntry .currentNode delete

def destroyDataNodes : Answers → Nat → Exec Answers := destroyEntry .dataNodes deleteVector

def destroyComputationNodes : Answers → Nat → Exec Answers :=
  destroyEntry .computationNodes deleteMap

def destroyResultNodes : Answers → Nat → Exec Answers := destroyEntry .resultNodes deleteVector

def destroyConnectedNodes : Answers → Nat → Exec Answers :=
  destroyEntry .connectedNodes deleteVector

/-- The calls of the helpers. -/
def destroyEntries (n : Answers) (ch : Nat) : Exec Answers := do
  let n ← destroyCurrentNode n ch
  let n ← destroyDataNodes n ch
  let n ← destroyComputationNodes n ch
  let n ← destroyResultNodes n ch
  destroyConnectedNodes n ch

def destroyInternalChannel (n : Answers) (ch : Nat) : Exec Answers := do
  let channels ← n.channels.exec (.destroy ch)
  let n ← destroyEntries { n with channels } ch
  let channels ← n.channels.exec (.deleted ch)
  .ok { n with channels, objects := n.objects.erase ch }

/-! ## `CreateInternalChannel` -/

/-- The object that is made for a document. -/
def newChannel (nodeId : Bytes) (doc : Option Value) : Parse TCPChannel := do
  let config ← ChannelConfig.load doc
  let peers ← createInternalChannel nodeId doc
  .ok (Rosetta.createChannel config peers)

/-- `CreateChannel`, from its check to its return. -/
def createChannel (n : Answers) (task : Bytes) (c : TCPChannel) (made : Option Nat) :
    Exec Answers := do
  let channels ← n.channels.exec (.create 0 task)
  let channels ← channels.exec (.check 0)
  match channels.creates 0, made with
  | .creating _, some ch =>
    -- `init` counts the peers with an `int`
    if c.connectedNodes.length < 2 ^ 31 then do
      let channels ← channels.exec (.initOk 0 ch)
      let channels ← channels.exec (.publish 0)
      .ok { n with channels, objects := n.objects.insert ch c }
    else .error .overflow
  | .creating _, none => do
    let channels ← channels.exec (.initFail 0)
    .ok { n with channels }
  -- the channel of the task was there
  | _, _ => .ok { n with channels }

def exec (n : Answers) : ChannelCall → Exec Answers
  | .create task nodeId doc made =>
    match newChannel nodeId doc with
    | .ok c => n.createChannel task c made
    | .error (.thrown _) => .ok n
    | .error .overflow => .error .overflow
    | .error .assertion => .error .outOfBounds
  | .get g ch => do
    let (_, n) ← n.get g ch
    .ok n
  | .destroy ch => n.destroyInternalChannel ch

def step (n : Answers) (a : ChannelCall) : Option Answers := (n.exec a).toOption

end Answers

/-! ## An answer in memory -/

/-- The getters of `io_channel_impl.cpp`. -/
def TCPChannel.answer (c : TCPChannel) : Getter → Answer
  | .currentNode => .string c.getCurrentNodeID
  | .dataNodes => .vector c.getDataNodeIDs
  | .computationNodes => .map c.getComputationNodeIDs
  | .resultNodes => .vector c.getResultNodeIDs
  | .connectedNodes => .vector c.getConnectedNodeIDs

/-- How an entry of the map is freed. -/
def Getter.free : Getter → Nat → Writing Unit
  | .currentNode => delete
  | .computationNodes => deleteMap
  | .dataNodes | .resultNodes | .connectedNodes => deleteVector

namespace Answer

variable {m m' : Memory} {p : Nat} {a : Answer} {fp : List Nat}

def encode : Answer → Writing Nat
  | .string s => encodeString s
  | .vector vec => encodeVector vec
  | .map nodes => encodeMap nodes

/-- No NUL, and not more than an `int` counts. -/
def Fits : Answer → Prop
  | .string s => 0 ∉ s
  | .vector vec => vec.length < 2 ^ 31 ∧ ∀ s ∈ vec, 0 ∉ s
  | .map nodes => nodes.size < 2 ^ 31 ∧ ∀ s ∈ nodes, 0 ∉ s

/-- The answer is at `p`, in these blocks. -/
def Stored (m : Memory) (p : Nat) : Answer → List Nat → Prop
  | .string s, fp => IsString m p s fp
  | .vector vec, fp => IsNodes IsString m p vec fp
  | .map nodes, fp => IsNodes IsPair m p nodes.toList fp

/-- What is at `p` decodes to the answer. -/
def Decodes (m : Memory) (p : Nat) : Answer → Prop
  | .string s => decodeString m p = .ok s
  | .vector vec => decodeVector m p = .ok vec
  | .map nodes => ∃ nodes', decodeMap m p = .ok nodes' ∧ nodes'.toList = nodes.toList

theorem Stored.frame (h : a.Stored m p fp) (hsame : ∀ b ∈ fp, m'.get b = m.get b) :
    a.Stored m' p fp := by
  cases a with
  | string s => exact local_isString h hsame
  | vector vec => exact local_isString.isNodes h hsame
  | map nodes => exact local_isPair.isNodes h hsame

theorem Stored.decodes (h : a.Stored m p fp) (hf : a.Fits) : a.Decodes m p := by
  cases a with
  | string s =>
    have hdecode : decodeString m p = .ok (cString s) := h.decode
    rwa [cString_of_not_mem hf] at hdecode
  | vector vec =>
    have hdecode : decodeVector m p = .ok (vec.map cString) := h.decodeVector
    rwa [map_cString hf.2] at hdecode
  | map nodes => exact ⟨_, h.decodeMap, toList_decoded hf.2⟩

theorem encode_ok (hf : a.Fits) (m : Memory) : ∃ m' fp, a.encode m = .ok (m.next, m') ∧
    Heap.Grows m m' fp ∧ a.Stored m' m.next fp := by
  cases a with
  | string s =>
    obtain ⟨m', hencode, hgrows, hs⟩ := encodeString_ok s m
    exact ⟨m', _, hencode, hgrows, hs⟩
  | vector vec => exact encodeVector_ok hf.1 m
  | map nodes => exact encodeMap_ok hf.1 m

end Answer

/-- A helper frees what the getter of the same map has encoded. -/
theorem Getter.free_ok {m : Memory} {p : Nat} {fp : List Nat} {c : TCPChannel} {g : Getter}
    (h : (c.answer g).Stored m p fp) (hnodup : fp.Nodup) :
    ∃ m', g.free p m = .ok ((), m') ∧ Heap.Shrinks m m' fp := by
  cases g with
  | currentNode =>
    obtain ⟨rfl, hp⟩ := h
    exact delete_ok hp
  | computationNodes => exact deleteMap_ok h hnodup
  | dataNodes => exact deleteVector_ok h hnodup
  | resultNodes => exact deleteVector_ok h hnodup
  | connectedNodes => exact deleteVector_ok h hnodup

namespace Answers

variable {n n' : Answers} {ch : Nat} {c : TCPChannel} {own : Getter × Nat → List Nat}

theorem get_eq (n : Answers) (g : Getter) (ch : Nat) :
    n.get g ch = cached g (fun c => (c.answer g).encode) n ch := by
  cases g <;> rfl

/-! ## The entries of the five maps -/

/-- What the map of a getter has for a channel. -/
def entry (n : Answers) (k : Getter × Nat) : Option Nat := (n.nodeMap k.1).lookup k.2

theorem entry_setEntry (n : Answers) (g : Getter) {ch : Nat} {entries : AList fun _ : Nat => Nat}
    {x : Option Nat} (hch : entries.lookup ch = x)
    (hother : ∀ ch', ch' ≠ ch → entries.lookup ch' = (n.nodeMap g).lookup ch') (m : Memory) :
    (n.setEntry g entries m).entry = Function.update n.entry (g, ch) x := by
  funext ⟨g', ch'⟩
  show (Function.update n.nodeMap g entries g').lookup ch' = _
  rcases eq_or_ne g' g with rfl | hg
  · rw [Function.update_self]
    rcases eq_or_ne ch' ch with rfl | hne
    · rw [Function.update_self, hch]
    · rw [Function.update_of_ne fun h => hne (Prod.mk.inj h).2, hother ch' hne]
      rfl
  · rw [Function.update_of_ne hg, Function.update_of_ne fun h => hg (Prod.mk.inj h).1]
    rfl

theorem entry_insert (n : Answers) (g : Getter) (ch p : Nat) (m : Memory) :
    (n.setEntry g ((n.nodeMap g).insert ch p) m).entry =
      Function.update n.entry (g, ch) (some p) :=
  entry_setEntry n g (AList.lookup_insert _) (fun _ hne => AList.lookup_insert_ne hne) m

theorem entry_erase (n : Answers) (g : Getter) (ch : Nat) (m : Memory) :
    (n.setEntry g ((n.nodeMap g).erase ch) m).entry = Function.update n.entry (g, ch) none :=
  entry_setEntry n g (AList.lookup_erase _ _) (fun _ hne => AList.lookup_erase_ne hne) m

/-- Every entry is of an object, and points to the answer of the object in blocks of its own. -/
structure Kept (n : Answers) (own : Getter × Nat → List Nat) : Prop where
  owned : n.memory.Owned own
  stored : ∀ k p, n.entry k = some p →
    ∃ c, n.objects.lookup k.2 = some c ∧ (c.answer k.1).Stored n.memory p (own k)
  nothing : ∀ k, n.entry k = none → own k = []
  fits : ∀ ch c, n.objects.lookup ch = some c → ∀ g, (c.answer g).Fits

/-- A getter finds its answer, or adds it. -/
theorem Kept.get (h : n.Kept own) (hc : n.objects.lookup ch = some c) (g : Getter) :
    ∃ p n' own', n.get g ch = .ok (p, n') ∧ n'.Kept own' ∧ n'.entry (g, ch) = some p ∧
      (∀ k q, n.entry k = some q → n'.entry k = some q) ∧ n'.objects = n.objects ∧
      n'.channels = n.channels := by
  have hobject : n.object ch = .ok c := by
    rw [object, hc]
    rfl
  rw [get_eq, cached, hobject, Exec.ok_bind]
  cases hentry : (n.nodeMap g).lookup ch with
  | some p => exact ⟨p, n, own, rfl, h, hentry, fun _ _ hk => hk, rfl, rfl⟩
  | none =>
    obtain ⟨m', fp, hencode, hgrows, hstored⟩ := Answer.encode_ok (h.fits ch c hc g) n.memory
    have hupdate := entry_insert n g ch n.memory.next m'
    refine ⟨n.memory.next, n.setEntry g ((n.nodeMap g).insert ch n.memory.next) m',
      Function.update own (g, ch) fp, ?_, ⟨?_, ?_, ?_, h.fits⟩, ?_, ?_, rfl, rfl⟩
    · simp only [hencode, Exec.ok_bind]
    · exact h.owned.grow (h.nothing (g, ch) hentry) hgrows
    · intro k p hk
      rw [hupdate] at hk
      rcases eq_or_ne k (g, ch) with rfl | hne
      · rw [Function.update_self] at hk
        obtain rfl := Option.some.inj hk
        exact ⟨c, hc, by rwa [Function.update_self]⟩
      · rw [Function.update_of_ne hne] at hk
        obtain ⟨c', hc', hold⟩ := h.stored k p hk
        refine ⟨c', hc', ?_⟩
        rw [Function.update_of_ne hne]
        exact hold.frame fun a ha => h.owned.get_of_grows hgrows ha
    · intro k hk
      rw [hupdate] at hk
      rcases eq_or_ne k (g, ch) with rfl | hne
      · rw [Function.update_self] at hk
        cases hk
      · rw [Function.update_of_ne hne] at hk ⊢
        exact h.nothing k hk
    · rw [hupdate, Function.update_self]
    · intro k q hk
      have hne : k ≠ (g, ch) := by
        rintro rfl
        rw [show n.entry (g, ch) = none from hentry] at hk
        cases hk
      rw [hupdate, Function.update_of_ne hne, hk]

/-- A helper frees the entry, if there is one. -/
theorem Kept.destroyEntry (h : n.Kept own) (g : Getter) (ch : Nat) :
    ∃ n' own', destroyEntry g g.free n ch = .ok n' ∧ n'.Kept own' ∧
      n'.entry = Function.update n.entry (g, ch) none ∧ n'.objects = n.objects ∧
      n'.channels = n.channels := by
  unfold Answers.destroyEntry
  cases hentry : (n.nodeMap g).lookup ch with
  | none =>
    have hsame : Function.update n.entry (g, ch) none = n.entry :=
      Function.update_eq_self_iff.mpr hentry.symm
    exact ⟨n, own, rfl, h, hsame.symm, rfl, rfl⟩
  | some p =>
    obtain ⟨c, hc, hstored⟩ := h.stored (g, ch) p hentry
    obtain ⟨m', hfree, hshrinks⟩ := Getter.free_ok hstored (h.owned.nodup (g, ch))
    have hupdate := entry_erase n g ch m'
    refine ⟨n.setEntry g ((n.nodeMap g).erase ch) m', Function.update own (g, ch) [], ?_,
      ⟨h.owned.shrink hshrinks, ?_, ?_, h.fits⟩, hupdate, rfl, rfl⟩
    · simp only [hfree, Exec.ok_bind]
    · intro k p hk
      rw [hupdate] at hk
      rcases eq_or_ne k (g, ch) with rfl | hne
      · rw [Function.update_self] at hk
        cases hk
      · rw [Function.update_of_ne hne] at hk ⊢
        obtain ⟨c', hc', hold⟩ := h.stored k p hk
        exact ⟨c', hc', hold.frame fun a ha => h.owned.get_of_shrinks hshrinks hne ha⟩
    · intro k hk
      rcases eq_or_ne k (g, ch) with rfl | hne
      · rw [Function.update_self]
      · rw [hupdate, Function.update_of_ne hne] at hk
        rw [Function.update_of_ne hne]
        exact h.nothing k hk

/-- No map has an entry for the channel any more, and all others are as they were. -/
theorem Kept.destroyEntries (h : n.Kept own) (ch : Nat) :
    ∃ n' own', n.destroyEntries ch = .ok n' ∧ n'.Kept own' ∧ (∀ g, n'.entry (g, ch) = none) ∧
      (∀ k, k.2 ≠ ch → n'.entry k = n.entry k) ∧ n'.objects = n.objects ∧
      n'.channels = n.channels := by
  obtain ⟨n₁, own₁, hcurrent, h₁, he₁, ho₁, hc₁⟩ := h.destroyEntry .currentNode ch
  obtain ⟨n₂, own₂, hdata, h₂, he₂, ho₂, hc₂⟩ := h₁.destroyEntry .dataNodes ch
  obtain ⟨n₃, own₃, hcompute, h₃, he₃, ho₃, hc₃⟩ := h₂.destroyEntry .computationNodes ch
  obtain ⟨n₄, own₄, hresult, h₄, he₄, ho₄, hc₄⟩ := h₃.destroyEntry .resultNodes ch
  obtain ⟨n₅, own₅, hconnected, h₅, he₅, ho₅, hc₅⟩ := h₄.destroyEntry .connectedNodes ch
  refine ⟨n₅, own₅, ?_, h₅, ?_, ?_, by rw [ho₅, ho₄, ho₃, ho₂, ho₁],
    by rw [hc₅, hc₄, hc₃, hc₂, hc₁]⟩
  · have hcurrent : destroyCurrentNode n ch = .ok n₁ := hcurrent
    have hdata : destroyDataNodes n₁ ch = .ok n₂ := hdata
    have hcompute : destroyComputationNodes n₂ ch = .ok n₃ := hcompute
    have hresult : destroyResultNodes n₃ ch = .ok n₄ := hresult
    rw [Answers.destroyEntries, hcurrent, Exec.ok_bind, hdata, Exec.ok_bind, hcompute,
      Exec.ok_bind, hresult, Exec.ok_bind]
    exact hconnected
  · intro g
    rw [he₅, he₄, he₃, he₂, he₁]
    cases g <;> simp
  · intro k hk
    have hne : ∀ g, k ≠ (g, ch) := by
      rintro g rfl
      exact hk rfl
    rw [he₅, he₄, he₃, he₂, he₁]
    simp only [Function.update_of_ne (hne _)]

/-! ## The channels -/

/-- In the pool: returned by `CreateInternalChannel`, and not destroyed. -/
def Live (n : Answers) (ch : Nat) : Prop := (n.channels.channel2task.lookup ch).isSome = true

/-- What holds between two calls. -/
structure Sound (n : Answers) : Prop where
  coherent : n.channels.Coherent
  pooled : ∀ ch, n.Live ch ↔ ∃ c, n.objects.lookup ch = some c
  kept : ∃ own, n.Kept own

theorem coherent_exec {m m' : Channels} {a : ChannelAct} (h : m.Coherent)
    (hs : m.exec a = .ok m') : m'.Coherent :=
  Channels.coherent_step m a m' h (Exec.toOption_eq_some.mpr hs)

/-- The pool has one channel more, or it is as it was. -/
theorem createChannel_ok (hn : n.channels.Coherent) {task : Bytes} {made : Option Nat}
    (h : n.createChannel task c made = .ok n') :
    n'.channels.Coherent ∧ n'.nodeMap = n.nodeMap ∧ n'.memory = n.memory ∧
      ((n'.channels.channel2task = n.channels.channel2task ∧ n'.objects = n.objects) ∨
        ∃ ch task', n.channels.channel2task.lookup ch = none ∧ c.connectedNodes.length < 2 ^ 31 ∧
          n'.channels.channel2task = n.channels.channel2task.insert ch task' ∧
          n'.objects = n.objects.insert ch c) := by
  obtain ⟨m₁, hcreate, hrest⟩ := Exec.bind_eq_ok.mp h
  obtain ⟨m₂, hcheck, hdo⟩ := Exec.bind_eq_ok.mp hrest
  have hn₂ := coherent_exec (coherent_exec hn hcreate) hcheck
  have hpool : m₂.channel2task = n.channels.channel2task := by
    obtain ⟨-, rfl⟩ := Channels.create_ok hcreate
    obtain ⟨task', -, -, ⟨ch, -, rfl⟩ | ⟨-, rfl⟩⟩ := Channels.check_ok hcheck
    · rfl
    · rfl
  cases hcall : m₂.creates 0 with
  | creating task' =>
    rw [hcall] at hdo
    cases made with
    | none =>
      obtain ⟨m₃, hfail, hdone⟩ := Exec.bind_eq_ok.mp hdo
      obtain rfl := Except.ok.inj hdone
      have hn₃ := coherent_exec hn₂ hfail
      obtain ⟨-, rfl⟩ := Channels.initFail_ok hfail
      exact ⟨hn₃, rfl, rfl, .inl ⟨hpool, rfl⟩⟩
    | some ch =>
      by_cases hlen : c.connectedNodes.length < 2 ^ 31
      · simp only [if_pos hlen] at hdo
        obtain ⟨m₃, hinit, hmake⟩ := Exec.bind_eq_ok.mp hdo
        obtain ⟨m₄, hpublish, hdone⟩ := Exec.bind_eq_ok.mp hmake
        obtain rfl := Except.ok.inj hdone
        have hn₄ := coherent_exec (coherent_exec hn₂ hinit) hpublish
        obtain ⟨task₃, -, hfresh, rfl⟩ := Channels.initOk_ok hinit
        obtain ⟨task₄, ch₄, hready, rfl⟩ := Channels.publish_ok hpublish
        simp only [Channels.setCall, Function.update_self, CreateCall.ready.injEq] at hready
        obtain ⟨rfl, rfl⟩ := hready
        have hnone := (hn₂.lookup_fresh hfresh).1
        refine ⟨hn₄, rfl, rfl, .inr ⟨ch, task₃, by rw [← hpool, hnone], hlen, ?_, rfl⟩⟩
        simp [hnone, ← hpool]
      · simp only [if_neg hlen] at hdo
        cases hdo
  | idle =>
    rw [hcall] at hdo
    obtain rfl := Except.ok.inj hdo
    exact ⟨hn₂, rfl, rfl, .inl ⟨hpool, rfl⟩⟩
  | waiting task' =>
    rw [hcall] at hdo
    obtain rfl := Except.ok.inj hdo
    exact ⟨hn₂, rfl, rfl, .inl ⟨hpool, rfl⟩⟩
  | ready task' ch =>
    rw [hcall] at hdo
    obtain rfl := Except.ok.inj hdo
    exact ⟨hn₂, rfl, rfl, .inl ⟨hpool, rfl⟩⟩

theorem newChannel_fits {nodeId : Bytes} {doc : Option Value} (h : newChannel nodeId doc = .ok c)
    (hlen : c.connectedNodes.length < 2 ^ 31) (g : Getter) : (c.answer g).Fits := by
  obtain ⟨config, hload, hrest⟩ := Parse.bind_eq_ok.mp h
  obtain ⟨peers, hpeers, hdone⟩ := Parse.bind_eq_ok.mp hrest
  obtain rfl := Except.ok.inj hdone
  have hp := ChannelConfig.plain_of_load hload
  obtain ⟨hcurrent, hconnected⟩ := createChannel_plain hload hpeers
  cases g with
  | currentNode => exact hcurrent
  | dataNodes => exact ⟨hp.dataLength, hp.data⟩
  | computationNodes => exact ⟨hp.computeSize, hp.compute⟩
  | resultNodes => exact ⟨hp.resultLength, hp.result⟩
  | connectedNodes => exact ⟨hlen, hconnected⟩

/-! ## What a call does -/

/-- All that a live channel has answered is still there. -/
structure Keeps (ch : Nat) (n n' : Answers) : Prop where
  object : ∀ c, n.objects.lookup ch = some c → n'.objects.lookup ch = some c
  entry : ∀ g p, n.entry (g, ch) = some p → n'.entry (g, ch) = some p

theorem Sound.createChannel (h : n.Sound) {task nodeId : Bytes} {doc : Option Value}
    {made : Option Nat} (hc : newChannel nodeId doc = .ok c)
    (hs : n.createChannel task c made = .ok n') : n'.Sound ∧ ∀ ch, Keeps ch n n' := by
  obtain ⟨own, hk⟩ := h.kept
  obtain ⟨hn, hmap, hmemory, hpool⟩ := createChannel_ok h.coherent hs
  have hentry : n'.entry = n.entry := by
    funext k
    rw [entry, hmap]
    rfl
  rcases hpool with ⟨hpool, hobjects⟩ | ⟨ch, task', hnone, hlen, hpool, hobjects⟩
  · refine ⟨⟨hn, fun ch => ?_, own, ?_⟩, fun ch => ⟨fun c hc => by rw [hobjects, hc],
      fun g p hp => by rw [hentry, hp]⟩⟩
    · rw [Live, hpool, hobjects]
      exact h.pooled ch
    · exact ⟨hmemory ▸ hk.owned, by rw [hentry, hobjects, hmemory]; exact hk.stored,
        by rw [hentry]; exact hk.nothing, by rw [hobjects]; exact hk.fits⟩
  · have hfresh : ∀ c, n.objects.lookup ch ≠ some c := by
      intro c' hc'
      have hlive : n.Live ch := (h.pooled ch).mpr ⟨c', hc'⟩
      rw [Live, hnone] at hlive
      cases hlive
    have hobject : ∀ ch' c', n.objects.lookup ch' = some c' → n'.objects.lookup ch' = some c' := by
      intro ch' c' hc'
      have hne : ch' ≠ ch := by
        rintro rfl
        exact hfresh c' hc'
      rw [hobjects, AList.lookup_insert_ne hne, hc']
    refine ⟨⟨hn, fun ch' => ?_, own, ?_⟩, fun ch' => ⟨hobject ch', fun g p hp => by
      rw [hentry, hp]⟩⟩
    · rw [Live, hpool, hobjects]
      rcases eq_or_ne ch' ch with rfl | hne
      · rw [AList.lookup_insert, AList.lookup_insert]
        exact iff_of_true rfl ⟨c, rfl⟩
      · rw [AList.lookup_insert_ne hne, AList.lookup_insert_ne hne]
        exact h.pooled ch'
    · refine ⟨hmemory ▸ hk.owned, ?_, by rw [hentry]; exact hk.nothing, ?_⟩
      · rw [hentry, hmemory]
        intro k p hp
        obtain ⟨c', hc', hstored⟩ := hk.stored k p hp
        exact ⟨c', hobject k.2 c' hc', hstored⟩
      · intro ch' c' hc' g
        rw [hobjects] at hc'
        rcases lookup_insert_eq_some.mp hc' with ⟨-, rfl⟩ | ⟨-, hold⟩
        · exact newChannel_fits hc hlen g
        · exact hk.fits ch' c' hold g

theorem Sound.get (h : n.Sound) (hc : n.objects.lookup ch = some c) (g : Getter) :
    ∃ p n', n.get g ch = .ok (p, n') ∧ n'.Sound ∧ n'.entry (g, ch) = some p ∧
      ∀ ch', Keeps ch' n n' := by
  obtain ⟨own, hk⟩ := h.kept
  obtain ⟨p, n', own', hget, hk', hp, hentry, hobjects, hchannels⟩ := hk.get hc g
  refine ⟨p, n', hget, ⟨by rw [hchannels]; exact h.coherent, fun ch' => ?_, own', hk'⟩, hp,
    fun ch' => ⟨fun c' hc' => by rw [hobjects, hc'], fun g' q hq => hentry _ q hq⟩⟩
  rw [Live, hchannels, hobjects]
  exact h.pooled ch'

theorem live_of_get {g : Getter} {r : Nat × Answers} (h : n.get g ch = .ok r) :
    ∃ c, n.objects.lookup ch = some c := by
  rw [get_eq] at h
  obtain ⟨c, hc, -⟩ := Exec.bind_eq_ok.mp h
  unfold object at hc
  cases hlookup : n.objects.lookup ch with
  | some c' => exact ⟨c', rfl⟩
  | none =>
    rw [hlookup] at hc
    cases hc

theorem Sound.destroy (h : n.Sound) (hlive : n.Live ch) :
    ∃ n', n.destroyInternalChannel ch = .ok n' ∧ n'.Sound ∧ ∀ ch', ch' ≠ ch → Keeps ch' n n' := by
  obtain ⟨own, hk⟩ := h.kept
  obtain ⟨task, htask⟩ := Option.isSome_iff_exists.mp hlive
  obtain ⟨m₁, hdestroy⟩ : ∃ m, n.channels.exec (.destroy ch) = .ok m := by
    simp only [Channels.exec, htask]
    exact ⟨_, rfl⟩
  have hn₁ := coherent_exec h.coherent hdestroy
  have hk₁ : Kept { n with channels := m₁ } own := ⟨hk.owned, hk.stored, hk.nothing, hk.fits⟩
  obtain ⟨n₂, own₂, hentries, hk₂, hnone, hothers, hobjects, hchannels⟩ := hk₁.destroyEntries ch
  obtain ⟨task', -, hm₁⟩ := Channels.destroy_ok hdestroy
  have hdeleting : n₂.channels.deleting.lookup ch = some task' := by
    rw [hchannels, hm₁]
    exact AList.lookup_insert _
  obtain ⟨m₃, hdeleted⟩ : ∃ m, n₂.channels.exec (.deleted ch) = .ok m := by
    simp only [Channels.exec, hdeleting]
    exact ⟨_, rfl⟩
  have hn₃ := coherent_exec (hchannels ▸ hn₁) hdeleted
  obtain ⟨-, -, hm₃⟩ := Channels.deleted_ok hdeleted
  have hpool : m₃.channel2task = n.channels.channel2task.erase ch := by rw [hm₃, hchannels, hm₁]
  have hobject : ∀ ch' c', (n₂.objects.erase ch).lookup ch' = some c' ↔
      ch' ≠ ch ∧ n.objects.lookup ch' = some c' := by
    intro ch' c'
    rw [lookup_erase_eq_some, hobjects]
  refine ⟨{ n₂ with channels := m₃, objects := n₂.objects.erase ch }, ?_, ⟨hn₃, ?_, own₂, ?_⟩, ?_⟩
  · rw [destroyInternalChannel, hdestroy, Exec.ok_bind, hentries, Exec.ok_bind, hdeleted]
    rfl
  · intro ch'
    rw [Live, hpool]
    rcases eq_or_ne ch' ch with rfl | hne
    · rw [AList.lookup_erase, AList.lookup_erase]
      exact iff_of_false Bool.false_ne_true (by simp)
    · rw [AList.lookup_erase_ne hne, AList.lookup_erase_ne hne, hobjects]
      exact h.pooled ch'
  · refine ⟨hk₂.owned, fun k p hp => ?_, hk₂.nothing, fun ch' c' hc' => ?_⟩
    · obtain ⟨c', hc', hstored⟩ := hk₂.stored k p hp
      have hne : k.2 ≠ ch := by
        intro he
        have hgone := hnone k.1
        rw [← he] at hgone
        cases hgone.symm.trans hp
      exact ⟨c', (AList.lookup_erase_ne hne).trans hc', hstored⟩
    · exact hk₂.fits ch' c' (lookup_erase_eq_some.mp hc').2
  · intro ch' hne
    refine ⟨fun c' hc' => (hobject ch' c').mpr ⟨hne, hc'⟩, fun g p hp => ?_⟩
    exact (hothers (g, ch') hne).trans hp

theorem keeps_refl (ch : Nat) (n : Answers) : Keeps ch n n := ⟨fun _ hc => hc, fun _ _ hp => hp⟩

/-- A call leaves all as it has to be, and what a channel has answered as long as it lives. -/
theorem sound_step (n : Answers) (a : ChannelCall) (n' : Answers) (h : n.Sound)
    (hs : n.step a = some n') : n'.Sound ∧ ∀ ch, a ≠ .destroy ch → Keeps ch n n' := by
  have hs : n.exec a = .ok n' := Exec.toOption_eq_some.mp hs
  cases a with
  | create task nodeId doc made =>
    cases hc : newChannel nodeId doc with
    | ok c =>
      simp only [exec, hc] at hs
      obtain ⟨hn', hkeeps⟩ := h.createChannel hc hs
      exact ⟨hn', fun ch _ => hkeeps ch⟩
    | error e =>
      cases e with
      | thrown what =>
        simp only [exec, hc] at hs
        obtain rfl := Except.ok.inj hs
        exact ⟨h, fun ch _ => keeps_refl ch n⟩
      | _ =>
        simp only [exec, hc] at hs
        cases hs
  | get g ch =>
    obtain ⟨⟨p, n₁⟩, hget, hdone⟩ := Exec.bind_eq_ok.mp hs
    obtain rfl := Except.ok.inj hdone
    obtain ⟨c, hc⟩ := live_of_get hget
    obtain ⟨p', n₂, hget', hn₂, -, hkeeps⟩ := h.get hc g
    rw [hget] at hget'
    obtain ⟨-, rfl⟩ := Prod.mk.inj (Except.ok.inj hget')
    exact ⟨hn₂, fun ch' _ => hkeeps ch'⟩
  | destroy ch =>
    obtain ⟨m, hdestroy, -⟩ := Exec.bind_eq_ok.mp hs
    obtain ⟨task, htask, -⟩ := Channels.destroy_ok hdestroy
    have hlive : n.Live ch := by
      rw [Live, htask]
      rfl
    obtain ⟨n₁, hdone, hn₁, hkeeps⟩ := h.destroy hlive
    obtain rfl := Except.ok.inj (hdone.symm.trans hs)
    refine ⟨hn₁, fun ch' ha => hkeeps ch' ?_⟩
    rintro rfl
    exact ha rfl

theorem sound_start : Sound {} := by
  refine ⟨Channels.coherent_start, by simp [Live], fun _ => [], ?_⟩
  exact ⟨Heap.Owned.empty, by simp [entry], fun _ _ => rfl, by simp⟩

/-! ## Whole runs -/

/-- Every getter answers with a pointer to the own answer of the channel, and whatever is called
then, but to destroy it, it goes on to do so with the same pointer. -/
def Serves (n : Answers) (ch : Nat) : Prop :=
  ∃ c, n.objects.lookup ch = some c ∧ ∀ g, ∃ p n', n.get g ch = .ok (p, n') ∧
    (c.answer g).Decodes n'.memory p ∧
    ∀ calls u, run step n' calls = some u → .destroy ch ∉ calls →
      ∃ u', u.get g ch = .ok (p, u') ∧ (c.answer g).Decodes u'.memory p

theorem Sound.decodes (h : n.Sound) (hc : n.objects.lookup ch = some c) {g : Getter} {p : Nat}
    (hp : n.entry (g, ch) = some p) : (c.answer g).Decodes n.memory p := by
  obtain ⟨own, hk⟩ := h.kept
  obtain ⟨c', hc', hstored⟩ := hk.stored (g, ch) p hp
  obtain rfl := Option.some.inj (hc'.symm.trans hc)
  exact hstored.decodes (hk.fits ch c' hc g)

theorem Sound.serves (h : n.Sound) (hlive : n.Live ch) : n.Serves ch := by
  obtain ⟨c, hc⟩ := (h.pooled ch).mp hlive
  refine ⟨c, hc, fun g => ?_⟩
  obtain ⟨p, n', hget, hn', hp, hkeeps⟩ := h.get hc g
  have hc' := (hkeeps ch).object c hc
  refine ⟨p, n', hget, hn'.decodes hc' hp, fun calls u hrun hcalls => ?_⟩
  have hother : ∀ a ∈ calls, a ≠ ChannelCall.destroy ch := by
    rintro a ha rfl
    exact hcalls ha
  obtain ⟨hu, hcu, hpu⟩ := run_invariant_of (P := fun _ a => a ≠ ChannelCall.destroy ch)
    (I := fun u : Answers => u.Sound ∧ u.objects.lookup ch = some c ∧ u.entry (g, ch) = some p)
    (fun s a t hs ha ht => by
      obtain ⟨ht, hst⟩ := sound_step s a t hs.1 ht
      exact ⟨ht, (hst ch ha).object c hs.2.1, (hst ch ha).entry g p hs.2.2⟩)
    ⟨hn', hc', hp⟩ (allSteps_of_forall hother n') hrun
  obtain ⟨p', u', hget', hu', hp', hkeeps'⟩ := hu.get hcu g
  obtain rfl := Option.some.inj (((hkeeps' ch).entry g p hpu).symm.trans hp')
  exact ⟨u', hget', hu'.decodes ((hkeeps' ch).object c hcu) hp'⟩

/-- Without a channel there is nothing left. -/
theorem Sound.empty (h : n.Sound) (hnone : ∀ ch, ¬ n.Live ch) :
    (∀ g, (n.nodeMap g).entries = []) ∧ ∀ a, n.memory.get a = none := by
  obtain ⟨own, hk⟩ := h.kept
  have hentry : ∀ k, n.entry k = none := by
    intro k
    refine Option.eq_none_iff_forall_ne_some.mpr fun p hp => ?_
    obtain ⟨c, hc, -⟩ := hk.stored k p hp
    exact hnone k.2 ((h.pooled k.2).mpr ⟨c, hc⟩)
  constructor
  · intro g
    refine List.eq_nil_iff_forall_not_mem.mpr fun e he => ?_
    have hp : n.entry (g, e.1) = some e.2 := AList.mem_lookup_iff.mpr he
    cases (hentry (g, e.1)).symm.trans hp
  · intro a
    refine Option.not_isSome_iff_eq_none.mp fun ha => ?_
    obtain ⟨k, hmem⟩ := (hk.owned.live a).mp ha
    rw [hk.nothing k (hentry k)] at hmem
    cases hmem

/--
**No answer outlives its channel.** Whatever was called, the getters of a live channel return what
is in its own configuration, and the same pointer as long as it lives. It can be destroyed, and
there is no result when a block is freed that is not there: nothing is freed twice. Without a live
channel the maps are empty, and all memory is given back.
-/
theorem answers_own {calls : List ChannelCall} (hrun : run step {} calls = some n) :
    (∀ ch, n.Live ch → n.Serves ch ∧ ∃ n', n.exec (.destroy ch) = .ok n') ∧
      ((∀ ch, ¬ n.Live ch) → (∀ g, (n.nodeMap g).entries = []) ∧ ∀ a, n.memory.get a = none) := by
  have h : n.Sound := run_invariant (fun s a t hs ht => (sound_step s a t hs ht).1) sound_start hrun
  refine ⟨fun ch hlive => ⟨h.serves hlive, ?_⟩, h.empty⟩
  obtain ⟨n', hdestroy, -, -⟩ := h.destroy hlive
  exact ⟨n', hdestroy⟩

/-- A channel answers, and is destroyed; the next one has its address, and other nodes. -/
theorem answers_own_small : ∃ calls n, run step {} calls = some n ∧ n.Live 8 ∧
    n.memory.freed.length = 8 ∧ n.Serves 8 ∧ ∃ n', n.exec (.destroy 8) = .ok n' := by
  obtain ⟨calls, hview⟩ : ∃ calls : List ChannelCall, (run step {} calls).map
      (fun n => ((n.channels.channel2task.lookup 8).isSome, n.memory.freed.length)) =
        some (true, 8) :=
    ⟨(fun doc : String → Value =>
        [.create [116] (chars "b") (some (doc "a")) (some 8), .get .dataNodes 8, .get .dataNodes 8,
          .get .computationNodes 8, .get .currentNode 8, .destroy 8,
          .create [116] (chars "b") (some (doc "c")) (some 8), .get .dataNodes 8])
      fun data => .object [
        (chars "NODE_INFO", .array [
          .object [(chars "NODE_ID", .string (chars "a"))],
          .object [(chars "NODE_ID", .string (chars "b"))]]),
        (chars "DATA_NODES", .array [.string (chars data)]),
        (chars "COMPUTATION_NODES", .object [(chars "b", .int 0)])], by decide +kernel⟩
  obtain ⟨n, hrun, hn⟩ := Option.map_eq_some_iff.mp hview
  obtain ⟨hlive, hfreed⟩ := Prod.mk.inj hn
  exact ⟨calls, n, hrun, hlive, hfreed, (answers_own hrun).1 8 hlive⟩

end Answers

end Rosetta

import Mathlib.Algebra.Group.Pi.Basic
import Rosetta.Connection.Delivered
import Rosetta.Lib.Process

/-!
# Programs on any number of nodes

The threads of the nodes use their channels: `BasicIO::send` and `BasicIO::recv` look the other node
up in `connection_map` and go on with the connection that they find. All connections are between
them, each with its two directions, its workers and its sockets.

* `Network` — what the threads still have to do, and the directions of all connections
* `abstract` — the same threads, with a queue for each direction and message id (`ProcNet`)
* `matches_send`, `matches_recv` — a call does to the directions what it does to the queues
-/

namespace Rosetta

open Lib CycleBuffer

/-- What does not change while the threads run. -/
structure Deployment (ν τ κ : Type) where
  /-- the node of a thread -/
  home : τ → ν
  /-- `connection_map` of each node -/
  connectionMap : ν → ν → Option κ

structure Network (ν τ κ ρ : Type) where
  /-- the calls that a thread has before it, by the id of the other node and of the message -/
  procs : τ → Proc (ν × Bytes) UInt8 ρ
  /-- the direction of a connection away from a node -/
  dirs : κ × ν → Direction

inductive NetworkAct (ν τ κ : Type) where
  /-- the next call of a thread -/
  | call (t : τ)
  /-- a step of a worker or of a socket -/
  | conn (l : κ × ν) (a : DirAct)

namespace Network

variable {ν τ κ ρ : Type} [DecidableEq ν] [DecidableEq τ] [DecidableEq κ]

def setDir (n : Network ν τ κ ρ) (l : κ × ν) (d : Direction) : Network ν τ κ ρ :=
  { n with dirs := Function.update n.dirs l d }

def setProc (n : Network ν τ κ ρ) (t : τ) (p : Proc (ν × Bytes) UInt8 ρ) : Network ν τ κ ρ :=
  { n with procs := Function.update n.procs t p }

/-- `BasicIO::send` at the node `a`. -/
def send (w : Deployment ν τ κ) (n : Network ν τ κ ρ) (a nodeId : ν) (id data : Bytes) :
    Exec (Network ν τ κ ρ) :=
  match w.connectionMap a nodeId with
  | some c => do
    let d ← (n.dirs (c, a)).exec (.send id data)
    .ok (n.setDir (c, a) d)
  -- a null pointer
  | none => .error .outOfBounds

/-- `BasicIO::recv` at the node `a`. -/
def recv (w : Deployment ν τ κ) (n : Network ν τ κ ρ) (a nodeId : ν) (id : Bytes)
    (length : Nat) : Exec (Bytes × Network ν τ κ ρ) :=
  match w.connectionMap a nodeId with
  | some c => do
    let d := n.dirs (c, nodeId)
    let (_, data, r) ← d.rcv.recv { id, length }
    .ok (data, n.setDir (c, nodeId) { d with rcv := r, received := d.received ++ [(id, data)] })
  | none => .error .outOfBounds

def exec (w : Deployment ν τ κ) (n : Network ν τ κ ρ) :
    NetworkAct ν τ κ → Exec (Network ν τ κ ρ)
  | .call t =>
    match n.procs t with
    | .done _ => .error .blocked
    | .send (nodeId, id) data next => do
      let n' ← n.send w (w.home t) nodeId id data
      .ok (n'.setProc t next)
    | .recv (nodeId, id) length next => do
      let (data, n') ← n.recv w (w.home t) nodeId id length
      .ok (n'.setProc t (next data))
  | .conn l a =>
    if a.isInternal then do
      let d ← (n.dirs l).exec a
      .ok (n.setDir l d)
    else
      .error .blocked

def step (w : Deployment ν τ κ) (n : Network ν τ κ ρ) (a : NetworkAct ν τ κ) :
    Option (Network ν τ κ ρ) := (n.exec w a).toOption

/-- The connections are new. -/
def Fresh (n : Network ν τ κ ρ) : Prop := ∀ l, Direction.new = .ok (n.dirs l)

/-- The frames can be read back, and no `recv` asks for nothing: that one would wait until something
has come with its id. -/
def Sound (n : Network ν τ κ ρ) : Prop :=
  ∀ t, (n.procs t).All (fun key data => (DirAct.send key.2 data).Sendable)
    fun _ length => 0 < length

end Network

/-! ## A queue for each direction and message id -/

namespace Deployment

variable {ν τ κ : Type} [DecidableEq ν] [DecidableEq κ]

/-- A queue is a direction of a connection with the id of a message. The tally counts what was sent
over each direction. -/
def wiring (w : Deployment ν τ κ) :
    Wiring τ (ν × Bytes) ((κ × ν) × Bytes) UInt8 (κ × ν → Nat) where
  out t key := (w.connectionMap (w.home t) key.1).map fun c => ((c, w.home t), key.2)
  inn t key := (w.connectionMap (w.home t) key.1).map fun c => ((c, key.1), key.2)
  cost q data := Pi.single q.1 (frameLen q.2 data)

theorem cost_self (w : Deployment ν τ κ) (l : κ × ν) (id data : Bytes) :
    w.wiring.cost (l, id) data l = frameLen id data := Pi.single_eq_same _ _

theorem cost_ne (w : Deployment ν τ κ) {l l' : κ × ν} (h : l' ≠ l) (id data : Bytes) :
    w.wiring.cost (l, id) data l' = 0 := Pi.single_eq_of_ne h _

end Deployment

namespace Network

variable {ν τ κ ρ : Type} [DecidableEq ν] [DecidableEq τ] [DecidableEq κ]

/-- The threads with empty queues. -/
def abstract (n : Network ν τ κ ρ) :
    ProcNet τ (ν × Bytes) ((κ × ν) × Bytes) UInt8 ρ (κ × ν → Nat) where
  procs := n.procs
  queues _ := []
  tally := 0

/-- What is in the queue of an id was sent with it, and has not been received. -/
structure Queued (d : Direction) (queue : Bytes → Bytes) (size : Nat) : Prop where
  flow : ∃ stored hand pend, d.Flow stored hand pend
  queue : ∀ id, dataFor id d.sent = dataFor id d.received ++ queue id
  size : size = d.sentSize

structure Matches (n : Network ν τ κ ρ)
    (m : ProcNet τ (ν × Bytes) ((κ × ν) × Bytes) UInt8 ρ (κ × ν → Nat)) : Prop where
  procs : n.procs = m.procs
  dirs : ∀ l, Queued (n.dirs l) (fun id => m.queues (l, id)) (m.tally l)

variable {w : Deployment ν τ κ} {n n' : Network ν τ κ ρ}
  {m m' : ProcNet τ (ν × Bytes) ((κ × ν) × Bytes) UInt8 ρ (κ × ν → Nat)}

/-! ### One direction -/

section Queued

variable {d d' : Direction} {queue : Bytes → Bytes} {size : Nat}

theorem queued_of_fresh (h : Direction.new = .ok d) : Queued d (fun _ => []) 0 := by
  have hfresh := Direction.fresh_new h
  refine ⟨⟨[], [], [], Direction.flow_new h⟩, ?_, ?_⟩
  · intro id
    rw [hfresh.sent, hfresh.received]
    rfl
  · rw [Direction.sentSize, hfresh.sent]
    rfl

theorem Queued.send (h : Queued d queue size) {id data : Bytes}
    (ha : (DirAct.send id data).Sendable) (hd : d.exec (.send id data) = .ok d') :
    Queued d' (Function.update queue id (queue id ++ data)) (size + frameLen id data) := by
  have hflow := Direction.flow_step d (.send id data) d' h.flow ha (Exec.toOption_eq_some.mpr hd)
  obtain ⟨s, -, hd⟩ := Exec.bind_eq_ok.mp hd
  obtain rfl := Except.ok.inj hd
  refine ⟨hflow, ?_, ?_⟩
  · intro id'
    show dataFor id' (d.sent ++ [(id, data)]) = dataFor id' d.received ++ _
    by_cases hid : id' = id
    · subst hid
      rw [dataFor_concat_self, h.queue, Function.update_self, List.append_assoc]
    · rw [dataFor_concat_ne (fun he => hid he.symm), h.queue, Function.update_of_ne hid]
  · show _ = ((d.sent ++ [(id, data)]).map fun m => frameLen m.1 m.2).sum
    rw [List.map_append, List.sum_append, h.size]
    simp [Direction.sentSize]

/-- A call with no deadline on a connection that was not connected returns when it has all that it
asks for. -/
theorem length_of_recv {r r' : RecvHalf} (hm : BoxInv r.mapbuffer) {id data : Bytes} {length : Nat}
    {ret : Int} (h : r.recv { id, length } = .ok (ret, data, r')) : data.length = length := by
  have hstate : ¬ (ConnState.invalid = .connected ∧ r.state ≠ .connected) := fun he => nomatch he.1
  have hforever : (-1 : Int) < 0 := by decide
  have htime : ¬ (1000 * 1000000 : Int) < 0 := by decide
  simp only [RecvHalf.recv, if_neg hstate, if_pos hforever, if_neg htime] at h
  split at h
  · next b hb =>
    split at h
    · next hcan =>
      have hlen : length ≤ b.size := of_decide_eq_true hcan
      rw [read_eq (hm _ b hb) hlen, Exec.ok_bind] at h
      obtain ⟨-, h⟩ := Prod.mk.inj (Except.ok.inj h)
      obtain ⟨rfl, -⟩ := Prod.mk.inj h
      rw [List.length_take, length_contents]
      omega
    · cases h
  · cases h

theorem Queued.recv (h : Queued d queue size) {id data : Bytes} {length : Nat} {ret : Int}
    {r : RecvHalf} (hr : d.rcv.recv { id, length } = .ok (ret, data, r)) :
    length ≤ (queue id).length ∧ data = (queue id).take length ∧
      Queued { d with rcv := r, received := d.received ++ [(id, data)] }
        (Function.update queue id ((queue id).drop length)) size := by
  obtain ⟨stored, hand, pend, hflow⟩ := h.flow
  have hlen := length_of_recv hflow.boxInv hr
  -- the box is the first part of the queue, and the data are the first part of the box
  obtain ⟨rest, hrest⟩ : ∃ rest, queue id = data ++ rest := by
    have hbox := (RecvHalf.recv_ok hflow.boxInv hr).2.1
    have hfirst := hflow.initial id
    rw [h.queue, List.prefix_append_right_inj, hbox] at hfirst
    obtain ⟨rest, hrest⟩ := (List.prefix_append _ _).trans hfirst
    exact ⟨rest, hrest.symm⟩
  have htake : (queue id).take length = data := by rw [hrest, ← hlen, List.take_left]
  have hdrop : (queue id).drop length = rest := by rw [hrest, ← hlen, List.drop_left]
  have hexec : d.exec (.recv { id, length }) = .ok { d with
      rcv := r, received := d.received ++ [(id, data)] } := by
    rw [Direction.exec, hr]
    rfl
  refine ⟨?_, htake.symm, ⟨stored, hand, pend, hflow.recv hexec⟩, ?_, h.size⟩
  · rw [hrest, List.length_append]
    omega
  · intro id'
    show dataFor id' d.sent = dataFor id' (d.received ++ [(id, data)]) ++ _
    by_cases hid : id' = id
    · subst hid
      rw [dataFor_concat_self, Function.update_self, hdrop, h.queue, hrest, List.append_assoc]
    · rw [dataFor_concat_ne (fun he => hid he.symm), Function.update_of_ne hid, h.queue]

/-- Where nothing moves any more, what is in the queue waits for `recv`. -/
theorem Queued.box_of_quiet (h : Queued d queue size) (hrun : d.Running) (hsize : size ≤ 2 ^ 53)
    (hquiet : d.Quiet) (id : Bytes) : box d.rcv.mapbuffer id = queue id := by
  obtain ⟨stored, hand, pend, hflow⟩ := h.flow
  obtain ⟨rfl, rfl⟩ := hflow.nothing_in_flight hrun (h.size ▸ hsize) hquiet
  have hall := hflow.received_eq_sent id
  rw [h.queue] at hall
  exact List.append_cancel_left hall

theorem Queued.internal (h : Queued d queue size) {a : DirAct} (ha : a.isInternal = true)
    (hd : d.exec a = .ok d') : Queued d' queue size := by
  have hsendable : a.Sendable := by
    cases a with
    | send id data => cases ha
    | _ => trivial
  have hflow := Direction.flow_step d a d' h.flow hsendable (Exec.toOption_eq_some.mpr hd)
  obtain ⟨hsent, hreceived⟩ := Direction.logs_of_internal ha hd
  refine ⟨hflow, ?_, ?_⟩
  · intro id
    rw [hsent, hreceived, h.queue]
  · rw [Direction.sentSize, hsent]
    exact h.size

end Queued

/-! ### All directions -/

omit [DecidableEq ν] [DecidableEq τ] [DecidableEq κ] in
theorem matches_abstract (h : n.Fresh) : Matches n n.abstract :=
  ⟨rfl, fun l => queued_of_fresh (h l)⟩

/-- A call that changes one direction is a step of the queues. -/
theorem Matches.call (h : Matches n m) {t : τ} {p : Proc (ν × Bytes) UInt8 ρ} {l : κ × ν}
    {d : Direction} (hprocs : m'.procs = Function.update m.procs t p)
    (hself : Queued d (fun id => m'.queues (l, id)) (m'.tally l))
    (hother : ∀ l', l' ≠ l → (∀ id, m'.queues (l', id) = m.queues (l', id)) ∧
      m'.tally l' = m.tally l') :
    Matches ((n.setDir l d).setProc t p) m' := by
  refine ⟨?_, fun l' => ?_⟩
  · rw [hprocs, ← h.procs]
    rfl
  · by_cases hl : l' = l
    · subst hl
      simpa only [setDir, setProc, Function.update_self] using hself
    · obtain ⟨hq, ht⟩ := hother l' hl
      have hsame : ((n.setDir l d).setProc t p).dirs l' = n.dirs l' := Function.update_of_ne hl _ _
      rw [hsame, ht, funext hq]
      exact h.dirs l'

/-- The queues of one direction, when one of them is changed. -/
theorem queues_update_self (queues : (κ × ν) × Bytes → Bytes) (l : κ × ν) (id x : Bytes) :
    (fun id' => Function.update queues (l, id) x (l, id'))
      = Function.update (fun id' => queues (l, id')) id x := by
  funext id'
  by_cases hid : id' = id
  · rw [hid, Function.update_self, Function.update_self]
  · rw [Function.update_of_ne hid, Function.update_of_ne fun he => hid (Prod.mk.inj he).2]

theorem queues_update_ne (queues : (κ × ν) × Bytes → Bytes) {l l' : κ × ν} (h : l' ≠ l)
    (id id' x : Bytes) : Function.update queues (l, id) x (l', id') = queues (l', id') :=
  Function.update_of_ne (fun he => h (Prod.mk.inj he).1) _ _

theorem matches_send (h : Matches n m) {t : τ} {id data : Bytes}
    {next : Proc (ν × Bytes) UInt8 ρ} {c : κ} {d : Direction}
    (ha : (DirAct.send id data).Sendable)
    (hd : (n.dirs (c, w.home t)).exec (.send id data) = .ok d) :
    Matches ((n.setDir (c, w.home t) d).setProc t next)
      (m.put t ((c, w.home t), id) data (w.wiring.cost ((c, w.home t), id) data) next) := by
  refine h.call rfl ?_ ?_
  · have hq := (h.dirs (c, w.home t)).send ha hd
    rw [← queues_update_self] at hq
    have htally : (m.tally + w.wiring.cost ((c, w.home t), id) data) (c, w.home t)
        = m.tally (c, w.home t) + frameLen id data := by
      rw [Pi.add_apply, w.cost_self]
    simpa only [ProcNet.put, htally] using hq
  · intro l' hl
    refine ⟨fun id' => queues_update_ne _ hl _ _ _, ?_⟩
    show (m.tally + w.wiring.cost ((c, w.home t), id) data) l' = m.tally l'
    rw [Pi.add_apply, w.cost_ne hl, Nat.add_zero]

theorem matches_recv (h : Matches n m) {t : τ} {nodeId : ν} {id data : Bytes} {length : Nat}
    {next : List UInt8 → Proc (ν × Bytes) UInt8 ρ} {c : κ} {ret : Int} {r : RecvHalf}
    (hr : (n.dirs (c, nodeId)).rcv.recv { id, length } = .ok (ret, data, r)) :
    length ≤ (m.queues ((c, nodeId), id)).length ∧
      Matches ((n.setDir (c, nodeId) { n.dirs (c, nodeId) with
          rcv := r, received := (n.dirs (c, nodeId)).received ++ [(id, data)] }).setProc t
            (next data))
        (m.take t ((c, nodeId), id) length
          (next ((m.queues ((c, nodeId), id)).take length))) := by
  obtain ⟨hlen, hdata, hq⟩ := (h.dirs (c, nodeId)).recv hr
  refine ⟨hlen, h.call ?_ ?_ fun l' hl => ⟨fun id' => queues_update_ne _ hl _ _ _, rfl⟩⟩
  · rw [hdata]
    rfl
  · rw [← queues_update_self] at hq
    exact hq

omit [DecidableEq τ] in
/-- A change of one direction that its queues do not show. -/
theorem Matches.setDir (h : Matches n m) {l : κ × ν} {d : Direction}
    (hd : Queued d (fun id => m.queues (l, id)) (m.tally l)) : Matches (n.setDir l d) m := by
  refine ⟨h.procs, fun l' => ?_⟩
  by_cases hl : l' = l
  · subst hl
    simpa only [Network.setDir, Function.update_self] using hd
  · simpa only [Network.setDir, Function.update_of_ne hl] using h.dirs l'

end Network

end Rosetta

import Rosetta.Channel.MsgId
import Rosetta.Connection.Flow

/-!
# Channels on a shared connection

The channels of all tasks between two nodes use one `Connection`. `Streams` is one direction of it
with the calls that use it: `TCPChannel::Send` and `TCPChannel::Recv` of any task, and the lock
bytes of `Connection::start` and `Connection::stop`.

A channel hands nothing but the wire id to the connection. The task is not part of it, so channels
that use one wire id share one queue (`Labelled.fifo`).
-/

namespace Rosetta

open Lib CycleBuffer

/-- Who uses a wire id. -/
inductive Origin where
  | user (task id : Bytes)
  | lock (task : Bytes)
  deriving DecidableEq

namespace Origin

def wireId : Origin → Exec Bytes
  | .user _ id => getString id
  | .lock task => .ok (lockId task)

/-- The wire id, when it can be computed. -/
def wire (o : Origin) : Bytes :=
  match o.wireId with
  | .ok w => w
  | .error _ => []

theorem wire_eq {o : Origin} {w : Bytes} (h : o.wireId = .ok w) : o.wire = w := by
  rw [wire, h]

end Origin

structure Streams where
  dir : Direction
  sent : List (Origin × Bytes) := []
  received : List (Origin × Bytes) := []

inductive ChanAct where
  /-- `Send(node_id, id, data, length)` on the channel of `task` -/
  | send (task id data : Bytes)
  /-- `Recv(node_id, id, data, length, timeout)` on the channel of `task` -/
  | recv (task : Bytes) (call : RecvCall)
  /-- `Connection::start` sends the lock byte -/
  | start (task : Bytes)
  /-- `Connection::stop` receives it -/
  | stop (task : Bytes)
  /-- a step of a worker or of the socket -/
  | conn (a : DirAct)

namespace Streams

def new : Exec Streams := do
  let d ← Direction.new
  .ok { dir := d }

def put (s : Streams) (o : Origin) (data : Bytes) : Exec Streams := do
  let w ← o.wireId
  let d ← s.dir.exec (.send w data)
  .ok { s with dir := d, sent := s.sent ++ [(o, data)] }

def get (s : Streams) (o : Origin) (call : RecvCall) : Exec Streams := do
  let w ← o.wireId
  let (_, data, r) ← s.dir.rcv.recv { call with id := w }
  .ok { s with
    dir := { s.dir with rcv := r, received := s.dir.received ++ [(w, data)] }
    received := s.received ++ [(o, data)] }

def exec (s : Streams) : ChanAct → Exec Streams
  | .send task id data => s.put (.user task id) data
  | .recv task call => s.get (.user task call.id) call
  | .start task => s.put (.lock task) lockMsg
  | .stop task => s.get (.lock task) { id := lockId task, length := 1 }
  | .conn a =>
    if a.isInternal then do
      let d ← s.dir.exec a
      .ok { s with dir := d }
    else
      .error .blocked

def step (s : Streams) (a : ChanAct) : Option Streams := (s.exec a).toOption

/-! ## The connection sees the wire ids -/

/-- The logs of the connection are those of the channels under the wire ids. -/
structure Labelled (s : Streams) : Prop where
  flow : ∃ stored hand pend, s.dir.Flow stored hand pend
  sent : s.dir.sent = s.sent.map fun m => (m.1.wire, m.2)
  received : s.dir.received = s.received.map fun m => (m.1.wire, m.2)

variable {s s' : Streams}

theorem labelled_new (h : Streams.new = .ok s) : Labelled s := by
  obtain ⟨d, hd, h⟩ := Exec.bind_eq_ok.mp h
  obtain rfl := Except.ok.inj h
  have hflow := Direction.flow_new hd
  obtain ⟨snd, hsnd, hd⟩ := Exec.bind_eq_ok.mp hd
  obtain ⟨rcv, hrcv, hd⟩ := Exec.bind_eq_ok.mp hd
  obtain rfl := Except.ok.inj hd
  exact ⟨⟨[], [], [], hflow⟩, rfl, rfl⟩

theorem logs_new (h : Streams.new = .ok s) : s.sent = [] ∧ s.received = [] := by
  obtain ⟨d, -, h⟩ := Exec.bind_eq_ok.mp h
  obtain rfl := Except.ok.inj h
  exact ⟨rfl, rfl⟩

theorem put_ok (h : Labelled s) {o : Origin} {data : Bytes} (hid : o.wire.length ≤ 254)
    (hne : o.wire ≠ [] ∨ data ≠ []) (hs : s.put o data = .ok s') :
    Labelled s' ∧ s'.sent = s.sent ++ [(o, data)] ∧ s'.received = s.received := by
  obtain ⟨w, hw, hs⟩ := Exec.bind_eq_ok.mp hs
  obtain ⟨d, hd, hs⟩ := Exec.bind_eq_ok.mp hs
  obtain rfl := Except.ok.inj hs
  obtain rfl := Origin.wire_eq hw
  obtain ⟨stored, hand, pend, hflow⟩ := h.flow
  obtain ⟨f, -, -, hflow'⟩ := hflow.send hid hne hd
  obtain ⟨snd, hsnd, hd⟩ := Exec.bind_eq_ok.mp hd
  obtain rfl := Except.ok.inj hd
  refine ⟨⟨⟨stored, hand, pend ++ [f], hflow'⟩, ?_, h.received⟩, rfl, rfl⟩
  rw [List.map_append, ← h.sent]
  rfl

theorem get_ok (h : Labelled s) {o : Origin} {call : RecvCall} (hs : s.get o call = .ok s') :
    ∃ data, Labelled s' ∧ s'.sent = s.sent ∧ s'.received = s.received ++ [(o, data)] := by
  obtain ⟨w, hw, hs⟩ := Exec.bind_eq_ok.mp hs
  obtain ⟨⟨ret, data, r⟩, hr, hs⟩ := Exec.bind_eq_ok.mp hs
  obtain rfl := Except.ok.inj hs
  obtain rfl := Origin.wire_eq hw
  obtain ⟨stored, hand, pend, hflow⟩ := h.flow
  have hexec : s.dir.exec (.recv { call with id := o.wire }) = .ok { s.dir with
      rcv := r, received := s.dir.received ++ [(o.wire, data)] } := by
    rw [Direction.exec, hr]
    rfl
  refine ⟨data, ⟨⟨stored, hand, pend, hflow.recv hexec⟩, h.sent, ?_⟩, rfl, rfl⟩
  rw [List.map_append, ← h.received]
  rfl

theorem conn_ok (h : Labelled s) {a : DirAct} (hs : s.exec (.conn a) = .ok s') :
    Labelled s' ∧ s'.sent = s.sent ∧ s'.received = s.received := by
  rw [exec] at hs
  split at hs
  · next hint =>
    obtain ⟨d, hd, hs⟩ := Exec.bind_eq_ok.mp hs
    obtain rfl := Except.ok.inj hs
    have hsendable : a.Sendable := by
      cases a with
      | send id data => cases hint
      | _ => trivial
    have hflow := Direction.flow_step s.dir a d h.flow hsendable
      (Exec.toOption_eq_some.mpr hd)
    obtain ⟨hsent, hreceived⟩ := Direction.logs_of_internal hint hd
    exact ⟨⟨hflow, hsent.trans h.sent, hreceived.trans h.received⟩, rfl, rfl⟩
  · cases hs

/-- The bytes received under a wire id were the first sent under it. -/
theorem Labelled.fifo (h : Labelled s) (w : Bytes) :
    dataWhere (fun o => o.wire = w) s.received ++ box s.dir.rcv.mapbuffer w
      <+: dataWhere (fun o => o.wire = w) s.sent := by
  obtain ⟨stored, hand, pend, hflow⟩ := h.flow
  have hfifo := hflow.initial w
  rwa [h.sent, h.received, dataFor_map Origin.wire, dataFor_map Origin.wire] at hfifo

end Streams

end Rosetta

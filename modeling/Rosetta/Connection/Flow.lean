import Rosetta.Connection.Direction
import Rosetta.Connection.Halves

/-!
# Every id is a queue of its own

The frames that were sent are at each moment in three places, oldest first:

* `stored` — in `mapbuffer_`, or already received
* `hand` — read by `loop_recv` and not yet stored; at most one frame
* `pend` — on their way: the rest of `buffer_`, the bytes in the socket, what `loop_send` has taken,
  and `send_buffer_`

`Flow` says this of a direction, and each action keeps it; most of them only move bytes (`Moved`).
So what `recv` has returned for an id, with what waits under the id, is always an initial piece of
what was sent with it (`recv_fifo`).
-/

namespace Rosetta

open Lib CycleBuffer

/-- The id and the data, as the logs keep them. -/
def Frame.message (f : Frame) : Bytes × Bytes := (f.id, f.data)

theorem Frame.length_data_le (f : Frame) : f.data.length ≤ maxAlloc := by
  have h := f.fits
  unfold frameLen at h
  omega

namespace Direction

/-- Not yet in `buffer_`, oldest first. -/
def inFlight (d : Direction) : Bytes :=
  d.wire ++ (d.snd.loop.held.flatten ++ d.snd.sendBuffer.contents)

variable {d d' : Direction}

/-! ## Bytes that move -/

/-- The bytes go on towards `buffer_`, and none gets lost. -/
structure Moved (d d' : Direction) : Prop where
  pipe : d'.rcv.buffer.contents ++ d'.inFlight = d.rcv.buffer.contents ++ d.inFlight
  held : d'.rcv.loop.held = d.rcv.loop.held
  mapbuffer : d'.rcv.mapbuffer = d.rcv.mapbuffer
  sent : d'.sent = d.sent
  received : d'.received = d.received
  sendInv : Inv d'.snd.sendBuffer
  recvInv : Inv d'.rcv.buffer

/-- A loop starts or stops, and has nothing in its hands. -/
theorem moved_loops (hsnd : Inv d.snd.sendBuffer) (hrcv : Inv d.rcv.buffer) {l : Loop Bytes}
    {l' : Loop (Bytes × Bytes)} (hl : l.held = d.snd.loop.held) (hl' : l'.held = d.rcv.loop.held) :
    Moved d { d with snd := { d.snd with loop := l }, rcv := { d.rcv with loop := l' } } := by
  refine ⟨?_, hl', rfl, rfl, rfl, hsnd, hrcv⟩
  simp only [inFlight, hl]

theorem moved_of_deliver (hsnd : Inv d.snd.sendBuffer) (hrcv : Inv d.rcv.buffer) {k : Nat}
    (hd : d.exec (.deliver k) = .ok d') : Moved d d' := by
  rw [exec] at hd
  split at hd
  · obtain ⟨u, hk, hd⟩ := Exec.bind_eq_ok.mp hd
    obtain ⟨r, hr, hd⟩ := Exec.bind_eq_ok.mp hd
    obtain rfl := Except.ok.inj hd
    have hk : k ≤ maxAlloc := newChar_le hk
    have hlen : (d.wire.take k).length ≤ maxAlloc := by
      rw [List.length_take]
      omega
    obtain ⟨hinv, hc, hr⟩ := RecvHalf.write_ok hrcv hlen hr
    rw [hr]
    refine ⟨?_, rfl, rfl, rfl, rfl, hsnd, hinv⟩
    show r.buffer.contents ++ (d.wire.drop k ++ _) = _ ++ (d.wire ++ _)
    rw [hc, List.append_assoc, ← List.append_assoc (d.wire.take k), List.take_append_drop]
  · cases hd

/-- **The loops and the socket lose no byte**; `take` and `store` are about frames. -/
theorem moved_of_exec (hsnd : Inv d.snd.sendBuffer) (hrcv : Inv d.rcv.buffer) {a : DirAct}
    (ha : a.moves = true) (hd : d.exec a = .ok d') : Moved d d' := by
  cases a with
  | send id data => cases ha
  | take => cases ha
  | store => cases ha
  | recv call => cases ha
  | sendStart task =>
    obtain ⟨l, hl, hd⟩ := Exec.bind_eq_ok.mp hd
    obtain rfl := Except.ok.inj hd
    obtain ⟨hidle, rfl⟩ := Loop.start_ok hl
    exact moved_loops hsnd hrcv (by rw [hidle]; rfl) rfl
  | sendStop =>
    obtain ⟨l, hl, hd⟩ := Exec.bind_eq_ok.mp hd
    obtain rfl := Except.ok.inj hd
    obtain ⟨⟨t, hwait⟩, rfl⟩ := Loop.stop_ok hl
    exact moved_loops hsnd hrcv (by rw [hwait]; rfl) rfl
  | drain =>
    obtain ⟨s, hs, hd⟩ := Exec.bind_eq_ok.mp hd
    obtain rfl := Except.ok.inj hd
    obtain ⟨task, hwait, hbusy, hinv, hc⟩ := SendHalf.loopSendTake_ok hsnd hs
    refine ⟨?_, rfl, rfl, rfl, rfl, hinv, hrcv⟩
    simp [inFlight, hwait, hbusy, hc, Loop.held]
  | flush =>
    obtain ⟨⟨data, s⟩, hs, hd⟩ := Exec.bind_eq_ok.mp hd
    obtain rfl := Except.ok.inj hd
    obtain ⟨task, hbusy, rfl⟩ := SendHalf.loopSendWrite_ok hs
    refine ⟨?_, rfl, rfl, rfl, rfl, hsnd, hrcv⟩
    simp [inFlight, hbusy, Loop.held]
  | deliver k => exact moved_of_deliver hsnd hrcv hd
  | recvStart task =>
    obtain ⟨l, hl, hd⟩ := Exec.bind_eq_ok.mp hd
    obtain rfl := Except.ok.inj hd
    obtain ⟨hidle, rfl⟩ := Loop.start_ok hl
    exact moved_loops hsnd hrcv rfl (by rw [hidle]; rfl)
  | recvStop =>
    obtain ⟨l, hl, hd⟩ := Exec.bind_eq_ok.mp hd
    obtain rfl := Except.ok.inj hd
    obtain ⟨⟨t, hwait⟩, rfl⟩ := Loop.stop_ok hl
    exact moved_loops hsnd hrcv rfl (by rw [hwait]; rfl)

/-- Nothing was sent, and no loop runs. -/
structure Fresh (d : Direction) : Prop where
  pipe : d.rcv.buffer.contents ++ d.inFlight = []
  snd : d.snd.loop = .idle
  rcv : d.rcv.loop = .idle
  mapbuffer : d.rcv.mapbuffer = ∅
  sent : d.sent = []
  received : d.received = []
  sendInv : Inv d.snd.sendBuffer
  recvInv : Inv d.rcv.buffer

theorem fresh_new (h : Direction.new = .ok d) : Fresh d := by
  obtain ⟨s, hs, h⟩ := Exec.bind_eq_ok.mp h
  obtain ⟨r, hr, h⟩ := Exec.bind_eq_ok.mp h
  obtain rfl := Except.ok.inj h
  obtain ⟨hsi, hsc, hsl⟩ := SendHalf.new_ok hs
  obtain ⟨hri, hrc, hrm, hrl⟩ := RecvHalf.new_ok hr
  exact ⟨by simp [inFlight, hrc, hsl, hsc, Loop.held], hsl, hrl, hrm, rfl, rfl, hsi, hri⟩

/-! ## The frames of a direction -/

structure Flow (d : Direction) (stored hand pend : List Frame) : Prop where
  sent : d.sent = (stored ++ hand ++ pend).map Frame.message
  held : d.rcv.loop.held = hand.map Frame.message
  pipe : d.rcv.buffer.contents ++ d.inFlight = Frame.framing.stream pend
  boxes : ∀ id, dataFor id d.received ++ box d.rcv.mapbuffer id
    = dataFor id (stored.map Frame.message)
  sendInv : Inv d.snd.sendBuffer
  recvInv : Inv d.rcv.buffer
  boxInv : BoxInv d.rcv.mapbuffer

variable {stored hand pend : List Frame}

theorem flow_new (h : Direction.new = .ok d) : Flow d [] [] [] := by
  have hfresh := fresh_new h
  refine ⟨hfresh.sent, ?_, hfresh.pipe, ?_, hfresh.sendInv, hfresh.recvInv, ?_⟩
  · rw [hfresh.rcv]
    rfl
  · intro id
    rw [hfresh.received, hfresh.mapbuffer]
    rfl
  · rw [hfresh.mapbuffer]
    exact boxInv_empty

/-! ## What one action does to the frames -/

theorem Flow.send (h : Flow d stored hand pend) {id data : Bytes} (hid : id.length ≤ 254)
    (hne : id ≠ [] ∨ data ≠ []) (hd : d.exec (.send id data) = .ok d') :
    ∃ f : Frame, f.id = id ∧ f.data = data ∧ Flow d' stored hand (pend ++ [f]) := by
  obtain ⟨s, hs, hd⟩ := Exec.bind_eq_ok.mp hd
  obtain rfl := Except.ok.inj hd
  obtain ⟨hfits, hinv, hc, hloop⟩ := SendHalf.send_ok h.sendInv hs
  have hlast : Frame.framing.stream [⟨id, data, hid, hne, hfits⟩] = frameBytes id data :=
    List.append_nil _
  refine ⟨⟨id, data, hid, hne, hfits⟩, rfl, rfl, ?_, h.held, ?_, h.boxes, hinv, h.recvInv,
    h.boxInv⟩
  · rw [← List.append_assoc, List.map_append, ← h.sent]
    rfl
  · rw [Framing.stream_append, ← h.pipe, hlast]
    simp only [inFlight, hloop, hc, List.append_assoc]

theorem Flow.moved (h : Flow d stored hand pend) (hm : Moved d d') : Flow d' stored hand pend := by
  refine ⟨hm.sent.trans h.sent, hm.held.trans h.held, hm.pipe.trans h.pipe, ?_, hm.sendInv,
    hm.recvInv, ?_⟩
  · intro id
    rw [hm.received, hm.mapbuffer]
    exact h.boxes id
  · rw [hm.mapbuffer]
    exact h.boxInv

theorem Flow.take (h : Flow d stored hand pend) (hd : d.exec .take = .ok d') :
    ∃ f pend', pend = f :: pend' ∧ hand = [] ∧ Flow d' stored [f] pend' := by
  obtain ⟨r, hr, hd⟩ := Exec.bind_eq_ok.mp hd
  obtain rfl := Except.ok.inj hd
  obtain ⟨task, f, pend', hwait, rfl, hbusy, hinv, hpipe, hr⟩ :=
    RecvHalf.loopRecvTake_ok h.recvInv h.pipe hr
  have hheld := h.held
  rw [hwait] at hheld
  have hhand : hand = [] := List.map_eq_nil_iff.mp hheld.symm
  refine ⟨f, pend', rfl, hhand, ?_⟩
  rw [hr]
  refine ⟨?_, ?_, hpipe, h.boxes, h.sendInv, hinv, h.boxInv⟩
  · have hsent := h.sent
    rw [hhand] at hsent
    simpa using hsent
  · show r.loop.held = _
    rw [hbusy]
    rfl

theorem Flow.store (h : Flow d stored hand pend) (hd : d.exec .store = .ok d') :
    ∃ f, hand = [f] ∧ Flow d' (stored ++ [f]) [] pend := by
  obtain ⟨r, hr, hd⟩ := Exec.bind_eq_ok.mp hd
  obtain rfl := Except.ok.inj hd
  obtain ⟨f, hhand, task, hbusy⟩ : ∃ f, hand = [f] ∧ ∃ task, d.rcv.loop = .busy task f.message := by
    obtain ⟨task, id, data, -, hl, -, -⟩ := RecvHalf.loopRecvStore_store hr
    have hheld := h.held
    rw [hl] at hheld
    obtain ⟨f, hand', rfl, hf, hnil⟩ := List.map_eq_cons_iff.mp hheld.symm
    obtain rfl := List.map_eq_nil_iff.mp hnil
    exact ⟨f, rfl, task, by rw [hf, hl]⟩
  obtain ⟨hinv, hself, hother, hr⟩ :=
    RecvHalf.loopRecvStore_ok h.boxInv hbusy f.length_data_le hr
  refine ⟨f, hhand, ?_⟩
  rw [hr]
  refine ⟨?_, rfl, h.pipe, ?_, h.sendInv, h.recvInv, hinv⟩
  · have hsent := h.sent
    rw [hhand] at hsent
    simpa using hsent
  · intro id
    show dataFor id d.received ++ box r.mapbuffer id = _
    rw [List.map_append, dataFor_append, ← h.boxes]
    by_cases hid : id = f.id
    · subst hid
      rw [hself, List.append_assoc]
      exact congrArg _ (congrArg _ (dataFor_single_self f.id f.data).symm)
    · have hnil : dataFor id ([f].map Frame.message) = [] :=
        dataFor_single_ne (fun he => hid he.symm) f.data
      rw [hother id hid, hnil, List.append_nil]

theorem Flow.recv (h : Flow d stored hand pend) {call : RecvCall}
    (hd : d.exec (.recv call) = .ok d') : Flow d' stored hand pend := by
  obtain ⟨⟨ret, data, r⟩, hr, hd⟩ := Exec.bind_eq_ok.mp hd
  obtain rfl := Except.ok.inj hd
  obtain ⟨hinv, hself, hother, hr⟩ := RecvHalf.recv_ok h.boxInv hr
  rw [hr]
  refine ⟨h.sent, h.held, h.pipe, ?_, h.sendInv, h.recvInv, hinv⟩
  intro id
  show dataFor id (d.received ++ [(call.id, data)]) ++ box r.mapbuffer id = _
  rw [← h.boxes, dataFor_append]
  by_cases hid : call.id = id
  · rw [← hid, dataFor_single_self, hself, List.append_assoc]
  · rw [dataFor_single_ne hid, List.append_nil, hother id (fun he => hid he.symm)]

/-! ## Runs -/

/-- **Every action keeps the frames in order.** -/
theorem flow_step (d : Direction) (a : DirAct) (d' : Direction)
    (h : ∃ stored hand pend, Flow d stored hand pend) (ha : a.Sendable)
    (hd : d.step a = some d') : ∃ stored hand pend, Flow d' stored hand pend := by
  obtain ⟨stored, hand, pend, h⟩ := h
  have hd : d.exec a = .ok d' := Exec.toOption_eq_some.mp hd
  cases a with
  | send id data =>
    obtain ⟨f, -, -, hf⟩ := h.send ha.1 ha.2 hd
    exact ⟨stored, hand, pend ++ [f], hf⟩
  | take =>
    obtain ⟨f, pend', -, -, hf⟩ := h.take hd
    exact ⟨stored, [f], pend', hf⟩
  | store =>
    obtain ⟨f, -, hf⟩ := h.store hd
    exact ⟨stored ++ [f], [], pend, hf⟩
  | recv call => exact ⟨stored, hand, pend, h.recv hd⟩
  | sendStart | sendStop | drain | flush | deliver | recvStart | recvStop =>
    exact ⟨stored, hand, pend, h.moved (moved_of_exec h.sendInv h.recvInv rfl hd)⟩

/-- Workers and sockets pass nothing to `send` and get nothing from `recv`. -/
theorem logs_of_internal {a : DirAct} (ha : a.isInternal = true) (hd : d.exec a = .ok d') :
    d'.sent = d.sent ∧ d'.received = d.received := by
  cases a with
  | send id data => cases ha
  | recv call => cases ha
  | deliver k =>
    rw [exec] at hd
    split at hd
    · obtain ⟨u, -, hd⟩ := Exec.bind_eq_ok.mp hd
      obtain ⟨r, -, hd⟩ := Exec.bind_eq_ok.mp hd
      obtain rfl := Except.ok.inj hd
      exact ⟨rfl, rfl⟩
    · cases hd
  | sendStart _ | sendStop | drain | flush | recvStart _ | recvStop | take | store =>
    obtain ⟨x, -, hd⟩ := Exec.bind_eq_ok.mp hd
    obtain rfl := Except.ok.inj hd
    exact ⟨rfl, rfl⟩

theorem Flow.initial (h : Flow d stored hand pend) (id : Bytes) :
    dataFor id d.received ++ box d.rcv.mapbuffer id <+: dataFor id d.sent := by
  rw [h.boxes, h.sent, List.append_assoc, List.map_append]
  exact dataFor_prefix (List.prefix_append _ _) id

/--
**First in, first out for each id.**

After any run of one direction of a fresh connection, what `recv` has returned for an id and what
waits under it are the first bytes that were sent with the id.
-/
theorem recv_fifo {d₀ : Direction} {acts : List DirAct} (hnew : Direction.new = .ok d₀)
    (hacts : ∀ a ∈ acts, a.Sendable) (hrun : run step d₀ acts = some d) (id : Bytes) :
    dataFor id d.received ++ box d.rcv.mapbuffer id <+: dataFor id d.sent := by
  have hflow : ∃ stored hand pend, Flow d stored hand pend :=
    run_invariant_of flow_step ⟨[], [], [], flow_new hnew⟩
      (allSteps_of_forall hacts d₀) hrun
  obtain ⟨stored, hand, pend, h⟩ := hflow
  exact h.initial id

/-- Two ids, chunks that cut the first frame, a hand-over of both loops, and a `recv` that leaves
a byte behind. -/
theorem recv_fifo_small : ∃ d₀ acts d, Direction.new = .ok d₀ ∧ (∀ a ∈ acts, DirAct.Sendable a) ∧
    run step d₀ acts = some d ∧ d.received = [([97], [1])] ∧ box d.rcv.mapbuffer [97] = [2] ∧
    dataFor [97] d.received ++ box d.rcv.mapbuffer [97] <+: dataFor [97] d.sent := by
  obtain ⟨acts, hacts, d₀, hnew, hview⟩ : ∃ acts : List DirAct, (∀ a ∈ acts, a.Sendable) ∧
      ∃ d₀, Direction.new = .ok d₀ ∧ (run step d₀ acts).map
        (fun d => (d.received, box d.rcv.mapbuffer [97])) = some ([([97], [1])], [2]) :=
    ⟨[.sendStart [115], .recvStart [116], .send [97] [1, 2], .drain, .send [98] [3], .flush,
      .sendStop, .sendStart [116], .drain, .flush, .deliver 5, .deliver 10, .take, .store,
      .recvStop, .recvStart [115], .deliver 2, .recv ⟨[97], 1, -1, .invalid, 0⟩],
      by decide, _, rfl, by decide⟩
  obtain ⟨d, hrun, hd⟩ := Option.map_eq_some_iff.mp hview
  obtain ⟨hreceived, hbox⟩ := Prod.mk.inj hd
  exact ⟨d₀, acts, d, hnew, hacts, hrun, hreceived, hbox, recv_fifo hnew hacts hrun [97]⟩

end Direction

end Rosetta

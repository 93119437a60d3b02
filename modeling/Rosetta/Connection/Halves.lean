import Rosetta.Connection.Basic
import Rosetta.Frame.RoundTrip

/-!
# What the critical sections of a connection do

One lemma for each critical section: when it returns, which buffer has lost and which has gained
which bytes.
-/

namespace Rosetta

open Lib CycleBuffer

/-! ## `mapbuffer_` -/

/-- The bytes that wait under `id`. -/
def box (m : Mapbuffer) (id : Bytes) : Bytes :=
  match m.lookup id with
  | some b => b.contents
  | none => []

/-- Every ring in the map is in order. -/
def BoxInv (m : Mapbuffer) : Prop := ∀ id b, m.lookup id = some b → Inv b

theorem box_of_lookup {m : Mapbuffer} {id : Bytes} {b : CycleBuffer} (h : m.lookup id = some b) :
    box m id = b.contents := by
  rw [box, h]

theorem boxInv_empty : BoxInv ∅ := by
  intro id b h
  rw [AList.lookup_empty] at h
  cases h

theorem box_insert_self (m : Mapbuffer) (id : Bytes) (b : CycleBuffer) :
    box (m.insert id b) id = b.contents := by
  rw [box, AList.lookup_insert]

theorem box_insert_ne (m : Mapbuffer) {id id' : Bytes} (h : id' ≠ id) (b : CycleBuffer) :
    box (m.insert id b) id' = box m id' := by
  rw [box, box, AList.lookup_insert_ne h]

theorem BoxInv.insert {m : Mapbuffer} (h : BoxInv m) (id : Bytes) {b : CycleBuffer} (hi : Inv b) :
    BoxInv (m.insert id b) := by
  intro id' b' hb'
  by_cases hid : id' = id
  · rw [hid, AList.lookup_insert] at hb'
    obtain rfl := Option.some.inj hb'
    exact hi
  · rw [AList.lookup_insert_ne hid] at hb'
    exact h id' b' hb'

/-! ## The loops -/

namespace Loop

variable {β : Type} {l l' : Loop β} {task : Bytes}

theorem start_ok (h : l.start task = .ok l') : l = .idle ∧ l' = .wait task := by
  cases l with
  | idle => exact ⟨rfl, (Except.ok.inj h).symm⟩
  | wait t => cases h
  | busy t x => cases h

theorem stop_ok (h : l.stop = .ok l') : (∃ t, l = .wait t) ∧ l' = .idle := by
  cases l with
  | idle => cases h
  | wait t => exact ⟨⟨t, rfl⟩, (Except.ok.inj h).symm⟩
  | busy t x => cases h

end Loop

/-! ## The sending half -/

namespace SendHalf

variable {s s' : SendHalf}

theorem new_ok (h : SendHalf.new = .ok s) :
    Inv s.sendBuffer ∧ s.sendBuffer.contents = [] ∧ s.loop = .idle := by
  obtain ⟨b, hb, hs⟩ := Exec.bind_eq_ok.mp h
  obtain rfl := Except.ok.inj hs
  obtain ⟨hi, hc⟩ := inv_new (by decide) hb
  exact ⟨hi, hc, rfl⟩

theorem putIntoSendBuffer_ok (hi : Inv s.sendBuffer) {data : Bytes} (hdata : data.length ≤ maxAlloc)
    (h : s.putIntoSendBuffer data = .ok s') :
    Inv s'.sendBuffer ∧ s'.sendBuffer.contents = s.sendBuffer.contents ++ data ∧
      s'.loop = s.loop := by
  obtain ⟨b, hb, hs⟩ := Exec.bind_eq_ok.mp h
  obtain rfl := Except.ok.inj hs
  obtain ⟨hinv, hc⟩ := write_ok hi hdata hb
  exact ⟨hinv, hc, rfl⟩

/-- `send` appends one frame. -/
theorem send_ok (hi : Inv s.sendBuffer) {id data : Bytes} (h : s.send id data = .ok s') :
    frameLen id data ≤ maxAlloc ∧ Inv s'.sendBuffer ∧
      s'.sendBuffer.contents = s.sendBuffer.contents ++ frameBytes id data ∧ s'.loop = s.loop := by
  obtain ⟨buf, hbuf, hput⟩ := Exec.bind_eq_ok.mp h
  obtain ⟨rfl, hfits⟩ := simpleBuffer_eq_ok hbuf
  have hlen : (frameBytes id data).length ≤ maxAlloc := by rwa [length_frameBytes]
  exact ⟨hfits, putIntoSendBuffer_ok hi hlen hput⟩

/-- `loop_send` takes everything. -/
theorem loopSendTake_ok (hi : Inv s.sendBuffer) (h : s.loopSendTake = .ok s') :
    ∃ task, s.loop = .wait task ∧ s'.loop = .busy task s.sendBuffer.contents ∧
      Inv s'.sendBuffer ∧ s'.sendBuffer.contents = [] := by
  unfold loopSendTake at h
  split at h
  · next task hloop =>
    split at h
    · obtain ⟨u, -, h⟩ := Exec.bind_eq_ok.mp h
      rw [read_eq hi (Nat.le_refl _), Exec.ok_bind] at h
      obtain rfl := Except.ok.inj h
      have hall : s.sendBuffer.contents.take s.sendBuffer.size = s.sendBuffer.contents :=
        List.take_of_length_le (by rw [length_contents])
      have hnone : s.sendBuffer.contents.drop s.sendBuffer.size = [] :=
        List.drop_of_length_le (by rw [length_contents])
      refine ⟨task, hloop, ?_, hi.removed (Nat.le_refl _), ?_⟩
      · rw [hall]
      · rw [contents_removed hi (Nat.le_refl _), hnone]
    · cases h
  · cases h

theorem loopSendWrite_ok {data : Bytes} (h : s.loopSendWrite = .ok (data, s')) :
    ∃ task, s.loop = .busy task data ∧ s' = { s with loop := .wait task } := by
  unfold loopSendWrite at h
  split at h
  · next task x hloop =>
    obtain ⟨rfl, rfl⟩ := Prod.mk.inj (Except.ok.inj h)
    exact ⟨task, hloop, rfl⟩
  · cases h

end SendHalf

/-! ## The receiving half -/

namespace RecvHalf

variable {r r' : RecvHalf}

theorem new_ok (h : RecvHalf.new = .ok r) :
    Inv r.buffer ∧ r.buffer.contents = [] ∧ r.mapbuffer = ∅ ∧ r.loop = .idle := by
  obtain ⟨b, hb, hr⟩ := Exec.bind_eq_ok.mp h
  obtain rfl := Except.ok.inj hr
  obtain ⟨hi, hc⟩ := inv_new (by decide) hb
  exact ⟨hi, hc, rfl, rfl⟩

theorem write_ok (hi : Inv r.buffer) {data : Bytes} (hdata : data.length ≤ maxAlloc)
    (h : r.write data = .ok r') :
    Inv r'.buffer ∧ r'.buffer.contents = r.buffer.contents ++ data ∧
      r' = { r with buffer := r'.buffer } := by
  obtain ⟨b, hb, hr⟩ := Exec.bind_eq_ok.mp h
  obtain rfl := Except.ok.inj hr
  obtain ⟨hinv, hc⟩ := CycleBuffer.write_ok hi hdata hb
  exact ⟨hinv, hc, rfl⟩

/-- `loop_recv` has seen enough bytes and reads. -/
theorem loopRecvTake_read (h : r.loopRecvTake = .ok r') :
    ∃ task f, r.loop = .wait task ∧ r.buffer.canRead = .ok true ∧ r.buffer.readFrame = .ok f ∧
      r' = { r with buffer := f.buf, loop := .busy task (f.id, f.data) } := by
  unfold loopRecvTake at h
  split at h
  · next task hloop =>
    obtain ⟨readable, hread, h⟩ := Exec.bind_eq_ok.mp h
    split at h
    · next hreadable =>
      obtain ⟨f, hf, h⟩ := Exec.bind_eq_ok.mp h
      exact ⟨task, f, hloop, hreadable ▸ hread, hf, (Except.ok.inj h).symm⟩
    · cases h
  · cases h

/-- `loop_recv` has a message in its hand and stores it. -/
theorem loopRecvStore_store (h : r.loopRecvStore = .ok r') :
    ∃ task id data m, r.loop = .busy task (id, data) ∧ store r.mapbuffer id data = .ok m ∧
      r' = { r with mapbuffer := m, loop := .wait task } := by
  unfold loopRecvStore at h
  split at h
  · next task id data hloop =>
    obtain ⟨m, hm, h⟩ := Exec.bind_eq_ok.mp h
    exact ⟨task, id, data, m, hloop, hm, (Except.ok.inj h).symm⟩
  · cases h

/-- What `can_read()` has looked at. -/
theorem canRead_eq_true (hi : Inv r.buffer) (hread : r.buffer.canRead = .ok true) :
    9 < r.buffer.size ∧ headLen r.buffer.contents ≤ r.buffer.size := by
  rw [canRead_eq hi] at hread
  exact of_decide_eq_true (Except.ok.inj hread)

/-- When `buffer_` holds the first bytes of a stream of frames, `loop_recv` reads the first frame. -/
theorem loopRecvTake_ok (hi : Inv r.buffer) {rest : Bytes} {fs : List Frame}
    (hstream : r.buffer.contents ++ rest = Frame.framing.stream fs)
    (h : r.loopRecvTake = .ok r') :
    ∃ task f fs', r.loop = .wait task ∧ fs = f :: fs' ∧ r'.loop = .busy task (f.id, f.data) ∧
      Inv r'.buffer ∧ r'.buffer.contents ++ rest = Frame.framing.stream fs' ∧
      r' = { r with buffer := r'.buffer, loop := r'.loop } := by
  obtain ⟨task, x, hloop, hread, hx, rfl⟩ := loopRecvTake_read h
  obtain ⟨h9, hlen⟩ := canRead_eq_true hi hread
  have hcomplete : Frame.framing.Complete r.buffer.contents := by
    refine ⟨?_, ?_⟩
    · show 8 ≤ r.buffer.contents.length
      rw [length_contents]
      omega
    · show headLen r.buffer.contents ≤ r.buffer.contents.length
      rwa [length_contents]
  obtain ⟨f, fs', rfl, hsplit, hflen, hrest⟩ := Frame.framing.exists_cons hstream hcomplete
  have hle := len_le_size_of_frame (f := f) hsplit
  have hdrop := contents_removed_frame hi (f := f) hsplit
  rw [readFrame_of_bytes hi (f := f) hsplit] at hx
  obtain rfl := Except.ok.inj hx
  refine ⟨task, f, fs', hloop, rfl, rfl, hi.removed hle, ?_, rfl⟩
  rw [hdrop]
  exact hrest

/-- The data of a frame go behind what already waits under its id. -/
theorem store_ok {m m' : Mapbuffer} (hm : BoxInv m) {id data : Bytes}
    (hdata : data.length ≤ maxAlloc) (h : store m id data = .ok m') :
    BoxInv m' ∧ box m' id = box m id ++ data ∧ ∀ id', id' ≠ id → box m' id' = box m id' := by
  obtain ⟨b, hb, h⟩ := Exec.bind_eq_ok.mp h
  obtain ⟨b', hb', h⟩ := Exec.bind_eq_ok.mp h
  obtain rfl := Except.ok.inj h
  have hold : Inv b ∧ b.contents = box m id := by
    unfold ringFor at hb
    cases hl : m.lookup id with
    | some b₀ =>
      rw [hl] at hb
      obtain rfl := Except.ok.inj hb
      exact ⟨hm id b₀ hl, (box_of_lookup hl).symm⟩
    | none =>
      rw [hl] at hb
      obtain ⟨hinv, hc⟩ := inv_new (by decide) hb
      exact ⟨hinv, by rw [hc, box, hl]⟩
  obtain ⟨hinv, hc⟩ := CycleBuffer.write_ok hold.1 hdata hb'
  refine ⟨hm.insert id hinv, ?_, ?_⟩
  · rw [box_insert_self, hc, hold.2]
  · intro id' hne
    exact box_insert_ne m hne b'

theorem loopRecvStore_ok (hm : BoxInv r.mapbuffer) {task id data : Bytes}
    (hloop : r.loop = .busy task (id, data)) (hdata : data.length ≤ maxAlloc)
    (h : r.loopRecvStore = .ok r') :
    BoxInv r'.mapbuffer ∧ box r'.mapbuffer id = box r.mapbuffer id ++ data ∧
      (∀ id', id' ≠ id → box r'.mapbuffer id' = box r.mapbuffer id') ∧
      r' = { r with mapbuffer := r'.mapbuffer, loop := .wait task } := by
  rw [loopRecvStore, hloop] at h
  obtain ⟨m, hstore, h⟩ := Exec.bind_eq_ok.mp h
  obtain rfl := Except.ok.inj h
  obtain ⟨hinv, hself, hother⟩ := store_ok hm hdata hstore
  exact ⟨hinv, hself, hother, rfl⟩

/-- `recv` takes the bytes it returns from the front of what waits under the id. -/
theorem recv_ok (hm : BoxInv r.mapbuffer) {call : RecvCall} {ret : Int} {data : Bytes}
    (h : r.recv call = .ok (ret, data, r')) :
    BoxInv r'.mapbuffer ∧ box r.mapbuffer call.id = data ++ box r'.mapbuffer call.id ∧
      (∀ id', id' ≠ call.id → box r'.mapbuffer id' = box r.mapbuffer id') ∧
      r' = { r with mapbuffer := r'.mapbuffer } := by
  simp only [recv] at h
  generalize (if call.timeout < 0 then 1000 * 1000000 else call.timeout) = timeout at h
  split at h
  · -- the connection was lost before the call looked for data
    obtain ⟨-, h⟩ := Prod.mk.inj (Except.ok.inj h)
    obtain ⟨rfl, rfl⟩ := Prod.mk.inj h
    exact ⟨hm, rfl, fun _ _ => rfl, rfl⟩
  · split at h
    · obtain ⟨-, h⟩ := Prod.mk.inj (Except.ok.inj h)
      obtain ⟨rfl, rfl⟩ := Prod.mk.inj h
      exact ⟨hm, rfl, fun _ _ => rfl, rfl⟩
    · split at h
      · next b hb =>
        split at h
        · next hcan =>
          have hi := hm _ b hb
          have hlen : call.length ≤ b.size := of_decide_eq_true hcan
          rw [read_eq hi hlen, Exec.ok_bind] at h
          obtain ⟨-, h⟩ := Prod.mk.inj (Except.ok.inj h)
          obtain ⟨rfl, rfl⟩ := Prod.mk.inj h
          refine ⟨hm.insert _ (hi.removed hlen), ?_, ?_, rfl⟩
          · rw [box_of_lookup hb, box_insert_self, contents_removed hi hlen,
              List.take_append_drop]
          · intro id' hne
            exact box_insert_ne _ hne _
        · cases h
      · cases h

end RecvHalf

end Rosetta

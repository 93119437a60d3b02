import Rosetta.Connection.Halves
import Rosetta.Lib.KeyedLog
import Rosetta.Lib.Run
import Rosetta.Lib.Waiting
import Rosetta.Pool.Basic

/-!
# How `recv` ends

`recv` looks at `state_` and at the time once, before it waits. The wait has no limit, its predicate
looks only at the data, and `close` does not notify. So a call that waits for bytes which do not
come waits for ever, also when its time is up or the connection is closed.

* `RecvAt`, `Receivers` — the calls of `recv` on a connection, and what they wait for
* `Answers` — what is promised of the calls
* `InTime` — the steps that leave no call waiting in vain
-/

namespace Rosetta

open Lib CycleBuffer

/-- `timeout`, when the loop begins. -/
def RecvCall.limit (c : RecvCall) : Int := if c.timeout < 0 then 1000 * 1000000 else c.timeout

/-- What `recv` returns before it waits. -/
def RecvCall.error (c : RecvCall) (state : ConnState) : Option Int :=
  if c.tmpstate = .connected ∧ state ≠ .connected then some E_UNCONNECTED
  else if c.limit < c.elapsed then some E_TIMEOUT
  else none

/-- The predicate of the wait and the read behind it, in one critical section. -/
def takeFor (m : Mapbuffer) (c : RecvCall) : Exec (Option (Bytes × Mapbuffer)) :=
  match m.lookup c.id with
  | some b =>
    if b.canReadLen c.length then do
      let (data, b') ← b.read c.length
      .ok (some (data, m.insert c.id b'))
    else .ok none
  | none => .ok none

/-- A `recv` that does not wait runs the two parts one after the other. -/
theorem recv_eq (r : RecvHalf) (c : RecvCall) :
    r.recv c = match c.error r.state with
      | some e => .ok (e, [], r)
      | none => takeFor r.mapbuffer c >>= fun
        | some (data, m) => .ok (data.length, data, { r with mapbuffer := m })
        | none => .error .blocked := by
  unfold RecvHalf.recv RecvCall.error takeFor RecvCall.limit
  by_cases hstate : c.tmpstate = .connected ∧ r.state ≠ .connected
  · simp only [if_pos hstate]
  · by_cases htime : (if c.timeout < 0 then 1000 * 1000000 else c.timeout) < c.elapsed
    · simp only [if_neg hstate, if_pos htime]
    · simp only [if_neg hstate, if_neg htime]
      cases r.mapbuffer.lookup c.id with
      | none => rfl
      | some b =>
        by_cases hcan : b.canReadLen c.length = true
        · simp only [if_pos hcan]
          cases b.read c.length with
          | ok p => rfl
          | error e => rfl
        · simp only [if_neg hcan]
          rfl

/-- Where a call of `recv` is. -/
inductive RecvAt where
  /-- before the tests -/
  | entered (c : RecvCall)
  | waiting (c : RecvCall) (w : Waiting)
  | returned (c : RecvCall) (ret : Int)

namespace RecvAt

def entering : RecvAt → Option RecvCall
  | .entered c => some c
  | _ => none

def waits : RecvAt → Option RecvCall
  | .waiting c _ => some c
  | _ => none

/-- Time passes. -/
def later (ms : Nat) : RecvAt → RecvAt
  | .entered c => .entered { c with elapsed := c.elapsed + ms }
  | .waiting c w => .waiting { c with elapsed := c.elapsed + ms } w
  | .returned c ret => .returned c ret

/-- A notification, which reaches the thread if it sleeps. -/
def notify : RecvAt → RecvAt
  | .waiting c w => .waiting c w.notify
  | x => x

@[simp] theorem waits_notify (x : RecvAt) : x.notify.waits = x.waits := by cases x <;> rfl

theorem waits_later (ms : Nat) (x : RecvAt) : (x.later ms).waits =
    x.waits.map fun c => { c with elapsed := c.elapsed + ms } := by
  cases x <;> rfl

/-- `log` is what the call `k` has read. -/
def Settled (k : Nat) (log : List (Nat × Bytes × Bytes)) : RecvAt → Prop
  | .returned c ret =>
    (ret = c.length ∧ ∃ data, log = [(k, c.id, data)] ∧ data.length = c.length) ∨
      (ret < 0 ∧ log = [])
  | _ => log = []

theorem Settled.notify {k : Nat} {log : List (Nat × Bytes × Bytes)} {x : RecvAt}
    (h : x.Settled k log) : x.notify.Settled k log := by
  cases x with
  | entered | waiting | returned => exact h

theorem Settled.later {k : Nat} {log : List (Nat × Bytes × Bytes)} {x : RecvAt}
    (h : x.Settled k log) (ms : Nat) : (x.later ms).Settled k log := by
  cases x with
  | entered | waiting | returned => exact h

end RecvAt

structure Receivers where
  state : ConnState := .invalid
  mapbuffer : Mapbuffer := ∅
  calls : List RecvAt := []
  /-- id and data of each frame that was stored -/
  stored : List (Bytes × Bytes) := []
  /-- what was read, by which call and under which id -/
  consumed : List (Nat × Bytes × Bytes) := []

inductive RecvsAct where
  /-- `loop_recv` puts a frame into `mapbuffer_` and notifies -/
  | store (id data : Bytes)
  /-- a call reads `state_` and the time -/
  | call (c : RecvCall)
  /-- the tests before the wait -/
  | tests (k : Nat)
  /-- the critical section of the wait -/
  | test (k : Nat)
  /-- a spurious wake-up -/
  | wake (k : Nat)
  | tick (ms : Nat)
  /-- a handshake ends -/
  | handshake
  | closeBegin
  | closeEnd

namespace Receivers

def setCall (s : Receivers) (k : Nat) (x : RecvAt) : Receivers := { s with calls := s.calls.set k x }

def step (s : Receivers) : RecvsAct → Option Receivers
  | .store id data =>
    -- the frame is in memory
    if data.length ≤ maxAlloc then
      match RecvHalf.store s.mapbuffer id data with
      | .ok m => some { s with
          mapbuffer := m
          calls := s.calls.map RecvAt.notify
          stored := s.stored ++ [(id, data)] }
      | .error _ => none
    else none
  | .call c =>
    some { s with calls := s.calls ++ [.entered { c with tmpstate := s.state, elapsed := 0 }] }
  | .tests k =>
    match s.calls[k]? with
    | some (.entered c) =>
      match c.error s.state with
      | some e => some (s.setCall k (.returned c e))
      | none => some (s.setCall k (.waiting c .awake))
    | _ => none
  | .test k =>
    match s.calls[k]? with
    | some (.waiting c w) =>
      if w = .asleep then none
      else
        match takeFor s.mapbuffer c with
        | .ok (some (data, m)) =>
          some { s with
            mapbuffer := m
            calls := (s.calls.set k (.returned c data.length)).map RecvAt.notify
            consumed := s.consumed ++ [(k, c.id, data)] }
        | .ok none => some (s.setCall k (.waiting c .asleep))
        | .error _ => none
    | _ => none
  | .wake k =>
    match s.calls[k]? with
    | some (.waiting c .asleep) => some (s.setCall k (.waiting c .awake))
    | _ => none
  | .tick ms => some { s with calls := s.calls.map (RecvAt.later ms) }
  | .handshake => if s.state.isClosed then none else some { s with state := .connected }
  | .closeBegin => if s.state = .closed then none else some { s with state := .closing }
  | .closeEnd => if s.state = .closing then some { s with state := .closed } else none

/-- There are fewer bytes than the call wants. -/
def Missing (s : Receivers) (c : RecvCall) : Prop := (box s.mapbuffer c.id).length < c.length

instance (s : Receivers) : DecidablePred s.Missing := fun _ => inferInstanceAs (Decidable (_ < _))

/-- What the call `k` has read. -/
def consumedBy (s : Receivers) (k : Nat) : List (Nat × Bytes × Bytes) :=
  s.consumed.filter fun e => e.1 = k

/-! ## The promise -/

/-- The call that waits can return an error now, and leaves the bytes where they are. -/
def CanGiveUp (s : Receivers) (k : Nat) : Prop :=
  ∃ a s' c ret, s.step a = some s' ∧ s'.calls[k]? = some (.returned c ret) ∧
    (ret = E_TIMEOUT ∨ ret = E_UNCONNECTED) ∧ s'.mapbuffer = s.mapbuffer

structure Answers (s : Receivers) : Prop where
  /-- the bytes under an id are consumed in their order -/
  stream : ∀ id, dataFor id s.stored =
    dataFor id (s.consumed.map Prod.snd) ++ box s.mapbuffer id
  /-- a call returns its length and has consumed as much, or an error and has consumed nothing -/
  outcome : ∀ k c ret, s.calls[k]? = some (.returned c ret) →
    (ret = c.length ∧ ∃ data, s.consumedBy k = [(k, c.id, data)] ∧ data.length = c.length) ∨
      (ret < 0 ∧ s.consumedBy k = [])
  /-- a call does not wait in vain -/
  gives_up : ∀ k c w, s.calls[k]? = some (.waiting c w) → s.Missing c →
    c.limit < c.elapsed ∨ s.state.isClosed = true → s.CanGiveUp k

/-! ## The condition -/

/-- The bytes that the call `k` takes are not taken away from a call that is late. -/
def Spares (s : Receivers) (k : Nat) (c : RecvCall) : Prop :=
  ∀ y ∈ s.calls.eraseIdx k, ∀ d ∈ y.waits, d.id = c.id →
    (box s.mapbuffer c.id).length < c.length + d.length →
      d.elapsed ≤ d.limit ∧ s.state.isClosed = false

instance (s : Receivers) (k : Nat) (c : RecvCall) : Decidable (s.Spares k c) :=
  inferInstanceAs (Decidable (∀ y ∈ s.calls.eraseIdx k, ∀ d ∈ y.waits, d.id = c.id →
    (box s.mapbuffer c.id).length < c.length + d.length →
      d.elapsed ≤ d.limit ∧ s.state.isClosed = false))

/-- No step lets a call wait in vain: its time is not up and the connection is not closed while bytes
are missing, and none are taken away from it afterwards. -/
def InTime (s : Receivers) : RecvsAct → Prop
  | .tests k => ∀ x ∈ s.calls[k]?, ∀ c ∈ x.entering, c.error s.state = none → s.Missing c →
      s.state.isClosed = false
  | .test k => ∀ x ∈ s.calls[k]?, ∀ c ∈ x.waits, ¬ s.Missing c → s.Spares k c
  | .tick ms => ∀ x ∈ s.calls, ∀ c ∈ x.waits, s.Missing c → c.elapsed + ms ≤ c.limit
  | .closeBegin => ∀ x ∈ s.calls, ∀ c ∈ x.waits, ¬ s.Missing c
  | _ => True

instance (s : Receivers) : DecidablePred s.InTime
  | .tests k => inferInstanceAs (Decidable (∀ x ∈ s.calls[k]?, ∀ c ∈ x.entering,
      c.error s.state = none → s.Missing c → s.state.isClosed = false))
  | .test k => inferInstanceAs (Decidable (∀ x ∈ s.calls[k]?, ∀ c ∈ x.waits, ¬ s.Missing c →
      s.Spares k c))
  | .tick ms => inferInstanceAs (Decidable (∀ x ∈ s.calls, ∀ c ∈ x.waits,
      s.Missing c → c.elapsed + ms ≤ c.limit))
  | .closeBegin => inferInstanceAs (Decidable (∀ x ∈ s.calls, ∀ c ∈ x.waits, ¬ s.Missing c))
  | .store _ _ | .call _ | .wake _ | .handshake | .closeEnd => isTrue trivial

/-! ## The steps -/

/-- What a step is when it is possible, and what it has found. -/
inductive Does (s : Receivers) : RecvsAct → Receivers → Prop
  | store {id data : Bytes} {m : Mapbuffer} (hdata : data.length ≤ maxAlloc)
    (hm : RecvHalf.store s.mapbuffer id data = .ok m) :
    Does s (.store id data) { s with
      mapbuffer := m
      calls := s.calls.map RecvAt.notify
      stored := s.stored ++ [(id, data)] }
  | call (c : RecvCall) : Does s (.call c)
      { s with calls := s.calls ++ [.entered { c with tmpstate := s.state, elapsed := 0 }] }
  | fail {k : Nat} {c : RecvCall} {e : Int} (hx : s.calls[k]? = some (.entered c))
    (he : c.error s.state = some e) : Does s (.tests k) (s.setCall k (.returned c e))
  | wait {k : Nat} {c : RecvCall} (hx : s.calls[k]? = some (.entered c))
    (he : c.error s.state = none) : Does s (.tests k) (s.setCall k (.waiting c .awake))
  | take {k : Nat} {c : RecvCall} {w : Waiting} {data : Bytes} {m : Mapbuffer}
    (hx : s.calls[k]? = some (.waiting c w)) (htake : takeFor s.mapbuffer c = .ok (some (data, m))) :
    Does s (.test k) { s with
      mapbuffer := m
      calls := (s.calls.set k (.returned c data.length)).map RecvAt.notify
      consumed := s.consumed ++ [(k, c.id, data)] }
  | sleep {k : Nat} {c : RecvCall} {w : Waiting} (hx : s.calls[k]? = some (.waiting c w))
    (htake : takeFor s.mapbuffer c = .ok none) :
    Does s (.test k) (s.setCall k (.waiting c .asleep))
  | wake {k : Nat} {c : RecvCall} (hx : s.calls[k]? = some (.waiting c .asleep)) :
    Does s (.wake k) (s.setCall k (.waiting c .awake))
  | tick (ms : Nat) : Does s (.tick ms) { s with calls := s.calls.map (RecvAt.later ms) }
  | handshake (hopen : s.state.isClosed = false) : Does s .handshake { s with state := .connected }
  | closeBegin (hopen : s.state ≠ .closed) : Does s .closeBegin { s with state := .closing }
  | closeEnd (hclosing : s.state = .closing) : Does s .closeEnd { s with state := .closed }

variable {s s' : Receivers} {a : RecvsAct}

theorem does_of_step (h : s.step a = some s') : s.Does a s' := by
  cases a with
  | store id data =>
    simp only [step] at h
    split at h
    · next hdata =>
      split at h
      · next m hm =>
        cases h
        exact .store hdata hm
      · cases h
    · cases h
  | call c =>
    cases h
    exact .call c
  | tests k =>
    simp only [step] at h
    split at h
    · next c hx =>
      split at h
      · next e he =>
        cases h
        exact .fail hx he
      · next he =>
        cases h
        exact .wait hx he
    · cases h
  | test k =>
    simp only [step] at h
    split at h
    · next c w hx =>
      split at h
      · cases h
      · split at h
        · next data m htake =>
          cases h
          exact .take hx htake
        · next htake =>
          cases h
          exact .sleep hx htake
        · cases h
    · cases h
  | wake k =>
    simp only [step] at h
    split at h
    · next c hx =>
      cases h
      exact .wake hx
    · cases h
  | tick ms =>
    cases h
    exact .tick ms
  | handshake =>
    simp only [step] at h
    split at h
    · cases h
    · next hopen =>
      cases h
      exact .handshake (Bool.eq_false_iff.mpr hopen)
  | closeBegin =>
    simp only [step] at h
    split at h
    · cases h
    · next hopen =>
      cases h
      exact .closeBegin hopen
  | closeEnd =>
    simp only [step, Option.ite_none_right_eq_some, Option.some.injEq] at h
    obtain ⟨hclosing, rfl⟩ := h
    exact .closeEnd hclosing

/-- A read takes as many bytes as the call wants from the front of what waits under its id. -/
theorem takeFor_some {m m' : Mapbuffer} (hm : BoxInv m) {c : RecvCall} {data : Bytes}
    (h : takeFor m c = .ok (some (data, m'))) :
    data.length = c.length ∧ box m c.id = data ++ box m' c.id ∧
      (∀ id, id ≠ c.id → box m' id = box m id) ∧ BoxInv m' := by
  unfold takeFor at h
  split at h
  · next b hb =>
    split at h
    · next hcan =>
      have hi := hm _ b hb
      have hlen : c.length ≤ b.size := of_decide_eq_true hcan
      rw [read_eq hi hlen, Exec.ok_bind] at h
      obtain ⟨rfl, rfl⟩ := Prod.mk.inj (Option.some.inj (Except.ok.inj h))
      refine ⟨?_, ?_, fun id hne => box_insert_ne _ hne _, hm.insert _ (hi.removed hlen)⟩
      · rw [List.length_take, length_contents]
        omega
      · rw [box_of_lookup hb, box_insert_self, contents_removed hi hlen, List.take_append_drop]
    · cases h
  · cases h

/-- A call that does not read finds too little, or nothing at all. -/
theorem takeFor_none {m : Mapbuffer} (hm : BoxInv m) {c : RecvCall} (h : takeFor m c = .ok none) :
    (box m c.id).length < c.length ∨ box m c.id = [] := by
  unfold takeFor at h
  split at h
  · next b hb =>
    split at h
    · next hcan =>
      rw [read_eq (hm _ b hb) (of_decide_eq_true hcan), Exec.ok_bind] at h
      cases h
    · next hcan =>
      left
      rw [box_of_lookup hb, length_contents]
      exact Nat.not_le.mp fun hle => hcan (decide_eq_true hle)
  · next hnone =>
    right
    rw [box, hnone]

theorem error_neg {c : RecvCall} {state : ConnState} {e : Int} (h : c.error state = some e) :
    e < 0 := by
  unfold RecvCall.error at h
  split at h
  · obtain rfl := Option.some.inj h
    decide
  · split at h
    · obtain rfl := Option.some.inj h
      decide
    · cases h

/-! ## What always holds -/

structure Kept (s : Receivers) : Prop where
  boxes : BoxInv s.mapbuffer
  stream : ∀ id, dataFor id s.stored =
    dataFor id (s.consumed.map Prod.snd) ++ box s.mapbuffer id
  settled : ∀ (k : Nat) (x : RecvAt), s.calls[k]? = some x → x.Settled k (s.consumedBy k)
  known : ∀ e ∈ s.consumed, e.1 < s.calls.length

theorem kept_start : Kept {} :=
  ⟨boxInv_empty, fun _ => rfl, fun _ _ h => by simp at h, fun _ h => by cases h⟩

theorem getElem?_setCall {j k : Nat} {x y : RecvAt} (h : (s.setCall k x).calls[j]? = some y) :
    (j = k ∧ y = x) ∨ (j ≠ k ∧ s.calls[j]? = some y) := by
  simp only [Receivers.setCall, List.getElem?_set] at h
  split at h
  · next hkj =>
    split at h
    · exact .inl ⟨hkj.symm, (Option.some.inj h).symm⟩
    · cases h
  · next hkj => exact .inr ⟨Ne.symm hkj, h⟩

/-- One call goes on, and reads nothing. -/
theorem Kept.setCall (h : s.Kept) {k : Nat} {x : RecvAt} (hx : x.Settled k (s.consumedBy k)) :
    (s.setCall k x).Kept := by
  refine ⟨h.boxes, h.stream, ?_, ?_⟩
  · intro j y hy
    rcases getElem?_setCall hy with ⟨rfl, rfl⟩ | ⟨-, hold⟩
    · exact hx
    · exact h.settled j y hold
  · intro e he
    simpa [Receivers.setCall] using h.known e he

theorem Kept.take (h : s.Kept) {k : Nat} {c : RecvCall} {w : Waiting} {data : Bytes} {m : Mapbuffer}
    (hx : s.calls[k]? = some (.waiting c w))
    (htake : takeFor s.mapbuffer c = .ok (some (data, m))) : Kept { s with
      mapbuffer := m
      calls := (s.calls.set k (.returned c data.length)).map RecvAt.notify
      consumed := s.consumed ++ [(k, c.id, data)] } := by
  obtain ⟨hlen, hbox, hother, hboxes⟩ := takeFor_some h.boxes htake
  have hlt : k < s.calls.length := (List.getElem?_eq_some_iff.mp hx).1
  have hnone : s.consumedBy k = [] := h.settled k _ hx
  refine ⟨hboxes, ?_, ?_, ?_⟩
  · intro id
    rw [h.stream id, List.map_append, List.map_singleton]
    by_cases hid : id = c.id
    · subst hid
      rw [dataFor_concat_self, hbox, List.append_assoc]
    · rw [dataFor_concat_ne (Ne.symm hid), hother id hid]
  · intro j y hy
    have hy : ((s.calls.set k (.returned c data.length)).map RecvAt.notify)[j]? = some y := hy
    rw [List.getElem?_map] at hy
    obtain ⟨y₀, hy₀, rfl⟩ := Option.map_eq_some_iff.mp hy
    refine RecvAt.Settled.notify ?_
    rw [List.getElem?_set] at hy₀
    by_cases hkj : k = j
    · subst hkj
      rw [if_pos rfl, if_pos hlt] at hy₀
      obtain rfl := Option.some.inj hy₀
      refine .inl ⟨by rw [hlen], data, ?_, hlen⟩
      have hfilter : s.consumed.filter (fun e => e.1 = k) = [] := hnone
      simp [consumedBy, List.filter_append, hfilter]
    · rw [if_neg hkj] at hy₀
      have hold := h.settled j y₀ hy₀
      have hsame : Receivers.consumedBy { s with
          mapbuffer := m
          calls := (s.calls.set k (.returned c data.length)).map RecvAt.notify
          consumed := s.consumed ++ [(k, c.id, data)] } j = s.consumedBy j := by
        simp [consumedBy, hkj]
      rw [hsame]
      exact hold
  · intro e he
    simp only [List.length_map, List.length_set]
    rcases List.mem_append.mp he with he | he
    · exact h.known e he
    · obtain rfl := List.mem_singleton.mp he
      exact hlt

theorem kept_step (h : s.Kept) (hstep : s.step a = some s') : s'.Kept := by
  cases does_of_step hstep with
  | @store id data m hdata hm =>
    obtain ⟨hboxes, hself, hother⟩ := RecvHalf.store_ok h.boxes hdata hm
    refine ⟨hboxes, ?_, ?_, ?_⟩
    · intro id'
      by_cases hid : id' = id
      · subst hid
        simp only [dataFor_concat_self, hself, h.stream id', List.append_assoc]
      · simp only [dataFor_concat_ne (Ne.symm hid), hother id' hid, h.stream id']
    · intro j y hy
      simp only [List.getElem?_map] at hy
      obtain ⟨y₀, hy₀, rfl⟩ := Option.map_eq_some_iff.mp hy
      exact (h.settled j y₀ hy₀).notify
    · intro e he
      simpa using h.known e he
  | call c =>
    refine ⟨h.boxes, h.stream, ?_, ?_⟩
    · intro j y hy
      simp only [List.getElem?_append] at hy
      split at hy
      · exact h.settled j y hy
      · next hge =>
        obtain rfl := List.mem_singleton.mp (List.mem_of_getElem? hy)
        -- nothing was read by a call that is new
        refine List.filter_eq_nil_iff.mpr fun e he => ?_
        have hlt := h.known e he
        simp only [decide_eq_true_eq]
        omega
    · intro e he
      have hlt := h.known e he
      simp only [List.length_append, List.length_singleton]
      omega
  | fail hx he => exact h.setCall (.inr ⟨error_neg he, h.settled _ _ hx⟩)
  | take hx htake => exact h.take hx htake
  | wait hx | sleep hx | wake hx =>
    have hold := h.settled _ _ hx
    exact h.setCall hold
  | tick ms =>
    refine ⟨h.boxes, h.stream, ?_, ?_⟩
    · intro j y hy
      simp only [List.getElem?_map] at hy
      obtain ⟨y₀, hy₀, rfl⟩ := Option.map_eq_some_iff.mp hy
      exact (h.settled j y₀ hy₀).later ms
    · intro e he
      simpa using h.known e he
  | handshake | closeBegin | closeEnd => exact ⟨h.boxes, h.stream, h.settled, h.known⟩

/-! ## Waiting in vain -/

/-- A call that waits for missing bytes has time left, and the connection is not closed. -/
def Hopeful (s : Receivers) : Prop :=
  ∀ x ∈ s.calls, ∀ c ∈ x.waits, s.Missing c → c.elapsed ≤ c.limit ∧ s.state.isClosed = false

/-- From the wait there is no way to an error. -/
theorem not_canGiveUp {k : Nat} {c : RecvCall} {w : Waiting}
    (hx : s.calls[k]? = some (.waiting c w)) : ¬ s.CanGiveUp k := by
  rintro ⟨a, s', c', ret, hstep, hret, hcode, -⟩
  have hneg : ret < 0 := by
    rcases hcode with rfl | rfl <;> decide
  have hlt : k < s.calls.length := (List.getElem?_eq_some_iff.mp hx).1
  cases does_of_step hstep with
  | store => simp [hx, RecvAt.notify] at hret
  | call c => simp [List.getElem?_append_left hlt, hx] at hret
  | @fail j d e hd =>
    have hne : j ≠ k := by
      rintro rfl
      simp [hx] at hd
    simp [Receivers.setCall, List.getElem?_set_ne hne, hx] at hret
  | @wait j d hd =>
    have hne : j ≠ k := by
      rintro rfl
      simp [hx] at hd
    simp [Receivers.setCall, List.getElem?_set_ne hne, hx] at hret
  | @take j d v data m hd htake =>
    by_cases hjk : j = k
    · subst hjk
      have hread : (c' = d ∧ ret = data.length) := by
        simpa [hlt, RecvAt.notify, eq_comm] using hret
      omega
    · simp [List.getElem?_set_ne hjk, hx, RecvAt.notify] at hret
  | @sleep j d v hd =>
    by_cases hjk : j = k
    · subst hjk
      simp [Receivers.setCall, List.getElem?_set_self hlt] at hret
    · simp [Receivers.setCall, List.getElem?_set_ne hjk, hx] at hret
  | @wake j d hd =>
    by_cases hjk : j = k
    · subst hjk
      simp [Receivers.setCall, List.getElem?_set_self hlt] at hret
    · simp [Receivers.setCall, List.getElem?_set_ne hjk, hx] at hret
  | tick ms => simp [hx, RecvAt.later] at hret
  | handshake | closeBegin | closeEnd => simp [hx] at hret

theorem Kept.answers_iff (h : s.Kept) : s.Answers ↔ s.Hopeful := by
  constructor
  · intro hanswers x hx c hc hmissing
    obtain ⟨k, hk⟩ := List.mem_iff_getElem?.mp hx
    cases x with
    | waiting c' w =>
      obtain rfl := Option.some.inj hc
      by_contra hnot
      refine not_canGiveUp hk (hanswers.gives_up k c' w hk hmissing ?_)
      by_cases hlate : c'.limit < c'.elapsed
      · exact .inl hlate
      · exact .inr (Bool.eq_true_of_not_eq_false fun hopen => hnot ⟨Int.not_lt.mp hlate, hopen⟩)
    | entered | returned => cases hc
  · intro hhope
    refine ⟨h.stream, fun k c ret hk => h.settled k _ hk, fun k c w hk hmissing hlate => ?_⟩
    obtain ⟨htime, hopen⟩ := hhope _ (List.mem_of_getElem? hk) c rfl hmissing
    rcases hlate with hlate | hclosed
    · omega
    · simp [hopen] at hclosed

/-- One call goes on, and wants no other bytes than it did. -/
theorem hopeful_setCall {k : Nat} {x y : RecvAt} (h : s.Hopeful) (hx : s.calls[k]? = some x)
    (hy : ∀ c ∈ y.waits, x.waits = some c) : (s.setCall k y).Hopeful := by
  intro z hz c hc hmissing
  obtain ⟨j, hj⟩ := List.mem_iff_getElem?.mp hz
  rcases getElem?_setCall hj with ⟨rfl, rfl⟩ | ⟨-, hold⟩
  · exact h x (List.mem_of_getElem? hx) c (hy c hc) hmissing
  · exact h z (List.mem_of_getElem? hold) c hc hmissing

/-- A call begins to wait. -/
theorem hopeful_wait {k : Nat} {c : RecvCall} (h : s.Hopeful) (hx : s.calls[k]? = some (.entered c))
    (he : c.error s.state = none) :
    (s.setCall k (.waiting c .awake)).Hopeful ↔ s.InTime (.tests k) := by
  have htime : c.elapsed ≤ c.limit := by
    unfold RecvCall.error at he
    split at he
    · cases he
    · split at he
      · cases he
      · next hlt => exact Int.not_lt.mp hlt
  have hlt : k < s.calls.length := (List.getElem?_eq_some_iff.mp hx).1
  constructor
  · intro hhope x hx' d hd _ hmissing
    obtain rfl := Option.some.inj (hx.symm.trans hx')
    obtain rfl := Option.some.inj hd
    refine (hhope (.waiting c .awake) ?_ c rfl hmissing).2
    exact List.mem_iff_getElem?.mpr ⟨k, by simp [Receivers.setCall, hlt]⟩
  · intro hin z hz d hd hmissing
    obtain ⟨j, hj⟩ := List.mem_iff_getElem?.mp hz
    rcases getElem?_setCall hj with ⟨rfl, rfl⟩ | ⟨-, hold⟩
    · obtain rfl := Option.some.inj hd
      exact ⟨htime, hin _ hx c rfl he hmissing⟩
    · exact h z (List.mem_of_getElem? hold) d hd hmissing

/-- A call reads, and leaves less to the others. -/
theorem hopeful_take (hk : s.Kept) (h : s.Hopeful) {k : Nat} {c : RecvCall} {w : Waiting}
    {data : Bytes} {m : Mapbuffer} (hx : s.calls[k]? = some (.waiting c w))
    (htake : takeFor s.mapbuffer c = .ok (some (data, m))) :
    Hopeful { s with
      mapbuffer := m
      calls := (s.calls.set k (.returned c data.length)).map RecvAt.notify
      consumed := s.consumed ++ [(k, c.id, data)] } ↔ s.InTime (.test k) := by
  obtain ⟨hlen, hbox, hother, -⟩ := takeFor_some hk.boxes htake
  have hlength : (box s.mapbuffer c.id).length = c.length + (box m c.id).length := by
    rw [hbox, List.length_append, hlen]
  constructor
  · intro hhope x hx' d hd _ y hy e he hid hshort
    obtain rfl := Option.some.inj (hx.symm.trans hx')
    obtain rfl := Option.some.inj hd
    obtain ⟨j, hjk, hj⟩ := List.mem_eraseIdx_iff_getElem?.mp hy
    refine hhope y.notify ?_ e (by rw [RecvAt.waits_notify]; exact he) ?_
    · refine List.mem_map.mpr ⟨y, List.mem_iff_getElem?.mpr ⟨j, ?_⟩, rfl⟩
      rw [List.getElem?_set_ne (Ne.symm hjk), hj]
    · show (box m e.id).length < e.length
      rw [hid]
      omega
  · intro hin z hz e he hmissing
    obtain ⟨y, hy, rfl⟩ := List.mem_map.mp hz
    rw [RecvAt.waits_notify] at he
    obtain ⟨j, hj⟩ := List.mem_iff_getElem?.mp hy
    have hmissing : (box m e.id).length < e.length := hmissing
    rcases getElem?_setCall hj with ⟨-, rfl⟩ | ⟨hjk, hold⟩
    · cases he
    · by_cases hid : e.id = c.id
      · refine hin _ hx c rfl ?_ y (List.mem_eraseIdx_iff_getElem?.mpr ⟨j, hjk, hold⟩) e he hid ?_
        · unfold Missing
          omega
        · rw [hid] at hmissing
          omega
      · refine h y (List.mem_of_getElem? hold) e he ?_
        rw [hother e.id hid] at hmissing
        exact hmissing

/-- A call that finds too little goes back to sleep. -/
theorem inTime_of_sleep (hk : s.Kept) (h : s.Hopeful) {k : Nat} {c : RecvCall} {w : Waiting}
    (hx : s.calls[k]? = some (.waiting c w)) (htake : takeFor s.mapbuffer c = .ok none) :
    s.InTime (.test k) := by
  intro x hx' d hd henough y hy e he hid hshort
  obtain rfl := Option.some.inj (hx.symm.trans hx')
  obtain rfl := Option.some.inj hd
  rcases takeFor_none hk.boxes htake with hless | hempty
  · exact absurd hless henough
  · have hzero : c.length = 0 := by
      unfold Missing at henough
      rw [hempty, List.length_nil] at henough
      omega
    refine h y (List.mem_of_mem_eraseIdx hy) e he ?_
    unfold Missing
    rw [hid]
    omega

/-- **What one step decides.** -/
theorem hopeful_step (hk : s.Kept) (h : s.Hopeful) (hstep : s.step a = some s') :
    s'.Hopeful ↔ s.InTime a := by
  cases does_of_step hstep with
  | @store id data m hdata hm =>
    refine iff_of_true (fun z hz c hc hmissing => ?_) trivial
    obtain ⟨-, hself, hother⟩ := RecvHalf.store_ok hk.boxes hdata hm
    obtain ⟨y, hy, rfl⟩ := List.mem_map.mp hz
    rw [RecvAt.waits_notify] at hc
    refine h y hy c hc ?_
    have hmissing : (box m c.id).length < c.length := hmissing
    unfold Missing
    by_cases hid : c.id = id
    · rw [hid, hself, List.length_append] at hmissing
      rw [hid]
      omega
    · rwa [hother c.id hid] at hmissing
  | call c =>
    refine iff_of_true (fun z hz d hd hmissing => ?_) trivial
    rcases List.mem_append.mp hz with hz | hz
    · exact h z hz d hd hmissing
    · obtain rfl := List.mem_singleton.mp hz
      cases hd
  | @fail k c e hx he =>
    refine iff_of_true (hopeful_setCall h hx (by simp [RecvAt.waits])) ?_
    intro x hx' d hd hnone
    obtain rfl := Option.some.inj (hx.symm.trans hx')
    obtain rfl := Option.some.inj hd
    rw [he] at hnone
    cases hnone
  | wait hx he => exact hopeful_wait h hx he
  | take hx htake => exact hopeful_take hk h hx htake
  | sleep hx htake =>
    exact iff_of_true (hopeful_setCall h hx (by simp [RecvAt.waits]))
      (inTime_of_sleep hk h hx htake)
  | wake hx => exact iff_of_true (hopeful_setCall h hx (by simp [RecvAt.waits])) trivial
  | tick ms =>
    constructor
    · intro hhope x hx c hc hmissing
      refine (hhope (x.later ms) (List.mem_map_of_mem hx) { c with elapsed := c.elapsed + ms } ?_
        hmissing).1
      rw [RecvAt.waits_later, Option.mem_def.mp hc]
      rfl
    · intro hin z hz d hd hmissing
      obtain ⟨y, hy, rfl⟩ := List.mem_map.mp hz
      rw [RecvAt.waits_later] at hd
      obtain ⟨c, hc, rfl⟩ := Option.map_eq_some_iff.mp hd
      exact ⟨hin y hy c hc hmissing, (h y hy c hc hmissing).2⟩
  | handshake hopen =>
    refine iff_of_true (fun z hz c hc hmissing => ?_) trivial
    exact ⟨(h z hz c hc hmissing).1, rfl⟩
  | closeBegin hopen =>
    constructor
    · intro hhope x hx c hc hmissing
      have hclosed := (hhope x hx c hc hmissing).2
      cases hclosed
    · intro hin x hx c hc hmissing
      exact absurd hmissing (hin x hx c hc)
  | closeEnd hclosing =>
    refine iff_of_true (fun z hz c hc hmissing => ?_) trivial
    have hopen := (h z hz c hc hmissing).2
    rw [hclosing] at hopen
    cases hopen

/-- **`recv` keeps its promise in a run exactly when no step lets a call wait in vain**, whatever
arrives, and whoever else reads. -/
theorem answers_iff_inTime {acts : List RecvsAct} (hrun : run step {} acts = some s) :
    AllSteps step InTime {} acts ↔
      ∀ pre post t, acts = pre ++ post → run step {} pre = some t → t.Answers := by
  have hkept : ∀ {pre t}, run step {} pre = some t → t.Kept := fun h =>
    run_invariant (fun _ _ _ => kept_step) kept_start h
  have hall : AllSteps step (fun _ _ => True) {} acts :=
    allSteps_of_forall (Q := fun _ => True) (fun _ _ => trivial) ({} : Receivers)
  rw [allSteps_iff_states (J := Kept) (G := Hopeful) (fun _ _ _ => kept_step)
    (fun _ _ _ hk _ h hstep => hopeful_step hk h hstep) kept_start (fun _ hx => by cases hx) hall
    hrun]
  constructor
  · intro h pre post t hacts ht
    exact (hkept ht).answers_iff.mpr (h pre post t hacts ht)
  · intro h pre post t hacts ht
    exact (hkept ht).answers_iff.mp (h pre post t hacts ht)

/-- Two calls wait for three bytes of an id, one after the other. When the second deadline passes and
the connection is closed, nobody waits any more. -/
theorem answers_iff_inTime_small : ∃ acts s, AllSteps step InTime {} acts ∧
    run step {} acts = some s ∧ s.state = .closed ∧
    s.consumed = [(0, [7], [1, 2]), (1, [7], [3])] ∧
    ∀ pre post t, acts = pre ++ post → run step {} pre = some t → t.Answers := by
  let acts : List RecvsAct := [.call { id := [7], length := 2, timeout := 5 }, .tests 0, .test 0,
    .store [7] [1, 2, 3], .call { id := [7], length := 1, timeout := 9 }, .tests 1, .test 0, .test 1,
    .tick 10, .closeBegin, .closeEnd]
  obtain ⟨s, hrun, hstate, hconsumed⟩ : ∃ s, run step {} acts = some s ∧ s.state = .closed ∧
      s.consumed = [(0, [7], [1, 2]), (1, [7], [3])] := ⟨_, rfl, rfl, rfl⟩
  have hintime : AllSteps step InTime {} acts := by decide
  exact ⟨acts, s, hintime, hrun, hstate, hconsumed, (answers_iff_inTime hrun).mp hintime⟩

/-- A call waits for a byte. Its time passes, or the connection is closed, and it has no step but to
wait on. -/
theorem not_answers : ∃ c : RecvCall,
    (∃ acts s, run step {} acts = some s ∧ s.calls[0]? = some (.waiting c .asleep) ∧
      s.Missing c ∧ c.limit < c.elapsed ∧ ¬ s.Answers) ∧
    ∃ acts s c', run step {} acts = some s ∧ s.calls[0]? = some (.waiting c' .asleep) ∧
      s.Missing c' ∧ s.state = .closed ∧ ¬ s.Answers := by
  let c : RecvCall := { id := [7], length := 1, timeout := 5 }
  refine ⟨{ c with elapsed := 6 }, ⟨[.call c, .tests 0, .test 0, .tick 6], _, rfl, rfl, by decide,
    by decide, fun h => ?_⟩, [.call c, .tests 0, .test 0, .closeBegin, .closeEnd], _, c, rfl, rfl,
    by decide, rfl, fun h => ?_⟩
  · exact not_canGiveUp rfl (h.gives_up 0 { c with elapsed := 6 } .asleep rfl (by decide)
      (.inl (by decide)))
  · exact not_canGiveUp rfl (h.gives_up 0 c .asleep rfl (by decide) (.inr rfl))

end Receivers

end Rosetta

import Rosetta.Connection.Halves

/-!
# What is in `buffer_`

`messages` cuts a stretch of bytes the way `loop_recv` will do it. `Arrived` says that the first
byte under an id has been read from the socket: it is in a frame that is complete in `buffer_`, in
the hand of `loop_recv`, or in `mapbuffer_`.
-/

namespace Rosetta

open Lib CycleBuffer

/-- The messages at the front of a stretch of bytes, `fuel` at most. -/
def queued : Nat → Bytes → List (Bytes × Bytes)
  | 0, _ => []
  | fuel + 1, q =>
    if HasFrame q then
      match splitFrame (headLen q) (q.take (headLen q)) with
      | .ok m => m :: queued fuel (q.drop (headLen q))
      | .error _ => []
    else []

def messages (q : Bytes) : List (Bytes × Bytes) := queued q.length q

/-- A frame is longer than nine bytes, so this is enough fuel. -/
theorem queued_of_le {fuel fuel' : Nat} {q : Bytes} (h : q.length ≤ fuel) (h' : q.length ≤ fuel') :
    queued fuel q = queued fuel' q := by
  -- nothing is cut off an empty stretch
  have hnone : ∀ {k : Nat} {q : Bytes}, q.length = 0 → queued k q = [] := by
    intro k q hq
    cases k with
    | zero => rfl
    | succ k => exact if_neg fun hf => absurd hf.2 (by have := hf.1; omega)
  induction fuel generalizing fuel' q with
  | zero => rw [hnone (by omega), hnone (by omega)]
  | succ fuel ih =>
    cases fuel' with
    | zero => rw [hnone (by omega), hnone (by omega)]
    | succ fuel' =>
      by_cases hf : HasFrame q
      · have hlen : (q.drop (headLen q)).length ≤ fuel ∧ (q.drop (headLen q)).length ≤ fuel' := by
          have hpos := hf.1
          rw [List.length_drop]
          omega
        simp only [queued, ih hlen.1 hlen.2]
      · simp only [queued, hf, if_false]

theorem messages_of_ok {q : Bytes} {m : Bytes × Bytes} (hf : HasFrame q)
    (hm : splitFrame (headLen q) (q.take (headLen q)) = .ok m) :
    messages q = m :: messages (q.drop (headLen q)) := by
  have hpos := hf.1
  have hle := hf.2
  obtain ⟨k, hk⟩ : ∃ k, q.length = k + 1 := ⟨q.length - 1, by omega⟩
  have hrest : queued k (q.drop (headLen q)) = messages (q.drop (headLen q)) :=
    queued_of_le (by rw [List.length_drop]; omega) (Nat.le_refl _)
  simp only [messages, hk, queued, hf, if_true, hm, hrest]

theorem messages_of_not {q : Bytes} (hf : ¬ HasFrame q) : messages q = [] := by
  unfold messages
  cases q.length with
  | zero => rfl
  | succ k => exact if_neg hf

/-! ## Bytes that come behind -/

theorem headLen_append {q : Bytes} (h : 8 ≤ q.length) (rest : Bytes) :
    headLen (q ++ rest) = headLen q := by
  rw [headLen, headLen, List.take_append_of_le_length h]

theorem hasFrame_append {q : Bytes} (h : HasFrame q) (rest : Bytes) : HasFrame (q ++ rest) := by
  obtain ⟨hpos, hle⟩ := h
  rw [HasFrame, headLen_append (by omega)]
  exact ⟨hpos, hle.trans (by simp)⟩

theorem mem_queued_append {fuel : Nat} {q : Bytes} {m : Bytes × Bytes} (h : m ∈ queued fuel q)
    (rest : Bytes) : m ∈ queued fuel (q ++ rest) := by
  induction fuel generalizing q with
  | zero => cases h
  | succ fuel ih =>
    by_cases hf : HasFrame q
    · have hf' := hasFrame_append hf rest
      have hlen : 8 ≤ q.length := by
        have := hf.1
        have := hf.2
        omega
      simp only [queued, hf, hf', if_true, headLen_append hlen,
        List.take_append_of_le_length hf.2, List.drop_append_of_le_length hf.2] at h ⊢
      split at h
      · next m' _ =>
        rcases List.mem_cons.mp h with rfl | h
        · exact List.mem_cons_self
        · exact List.mem_cons_of_mem _ (ih h)
      · cases h
    · simp [queued, hf] at h

/-- **What is complete stays**, whatever comes behind it. -/
theorem mem_messages_append {q : Bytes} {m : Bytes × Bytes} (h : m ∈ messages q) (rest : Bytes) :
    m ∈ messages (q ++ rest) := by
  have hlen : q.length ≤ (q ++ rest).length := by simp
  have hm : m ∈ queued (q ++ rest).length q := queued_of_le (Nat.le_refl _) hlen ▸ h
  exact mem_queued_append hm rest

/-! ## The receiving half -/

namespace RecvHalf

variable {r r' : RecvHalf} {id : Bytes}

/-- The buffers are in order, and what `loop_recv` has in its hand is in memory. -/
structure Sound (r : RecvHalf) : Prop where
  buffer : Inv r.buffer
  mapbuffer : BoxInv r.mapbuffer
  held : ∀ m ∈ r.loop.held, m.2.length ≤ maxAlloc

/-- A byte under the id was read from the socket, and no call of `recv` has taken it. -/
def Arrived (r : RecvHalf) (id : Bytes) : Prop :=
  (∃ m ∈ messages r.buffer.contents, m.1 = id ∧ m.2 ≠ []) ∨
  (∃ m ∈ r.loop.held, m.1 = id ∧ m.2 ≠ []) ∨ box r.mapbuffer id ≠ []

instance (r : RecvHalf) (id : Bytes) : Decidable (r.Arrived id) :=
  inferInstanceAs (Decidable (_ ∨ _ ∨ _))

theorem sound_new (h : RecvHalf.new = .ok r) : r.Sound := by
  obtain ⟨hi, -, hm, hloop⟩ := new_ok h
  refine ⟨hi, hm ▸ boxInv_empty, ?_⟩
  rw [hloop]
  exact fun m hmem => absurd hmem List.not_mem_nil

theorem Sound.write (h : r.Sound) {data : Bytes} (hdata : data.length ≤ maxAlloc)
    (hw : r.write data = .ok r') : r'.Sound ∧ ∀ id, r.Arrived id → r'.Arrived id := by
  obtain ⟨hi, hc, hr⟩ := write_ok h.buffer hdata hw
  rw [hr]
  refine ⟨⟨hi, h.mapbuffer, h.held⟩, ?_⟩
  rintro id (⟨m, hm, hid⟩ | harrived)
  · refine .inl ⟨m, ?_, hid⟩
    rw [hc]
    exact mem_messages_append hm data
  · exact .inr harrived

/-- `loop_recv` takes the first frame that is complete, or it has an empty message in its hand. -/
theorem loopRecvTake_cases (hi : Inv r.buffer) (h : r.loopRecvTake = .ok r') :
    ∃ task m, r.loop = .wait task ∧ Inv r'.buffer ∧ m.2.length ≤ maxAlloc ∧
      r' = { r with buffer := r'.buffer, loop := .busy task m } ∧
      (messages r.buffer.contents = m :: messages r'.buffer.contents ∨
        messages r.buffer.contents = []) := by
  obtain ⟨task, f, hloop, -, hf, rfl⟩ := loopRecvTake_read h
  by_cases hframe : HasFrame r.buffer.contents
  · have hle : headLen r.buffer.contents ≤ r.buffer.size := by
      rw [← length_contents]
      exact hframe.2
    have hmax : r.buffer.size ≤ maxAlloc := hi.size_le.trans hi.n_le
    have htake : (r.buffer.contents.take (headLen r.buffer.contents)).length =
        headLen r.buffer.contents := List.length_take_of_le hframe.2
    rw [readFrame_of_frame hi hframe] at hf
    obtain ⟨m, hm, hf⟩ := Exec.bind_eq_ok.mp hf
    obtain rfl := Except.ok.inj hf
    refine ⟨task, m, hloop, hi.removed hle, ?_, rfl, .inl ?_⟩
    · by_cases hs : Splits (headLen r.buffer.contents)
          (r.buffer.contents.take (headLen r.buffer.contents))
      · rw [splitFrame_of_splits htake hframe.1 (hle.trans hmax) hs] at hm
        obtain rfl := Except.ok.inj hm
        rw [List.length_drop, htake]
        omega
      · obtain ⟨e, he⟩ := splitFrame_of_not htake hframe.1 hs
        rw [he] at hm
        cases hm
    · rw [messages_of_ok hframe hm, contents_removed hi hle]
  · rw [readFrame_of_not hi hframe] at hf
    obtain rfl := Except.ok.inj hf
    exact ⟨task, ([], []), hloop, hi, Nat.zero_le _, rfl, .inr (messages_of_not hframe)⟩

theorem Sound.loopRecvTake (h : r.Sound) (hr : r.loopRecvTake = .ok r') :
    r'.Sound ∧ ∀ id, r.Arrived id → r'.Arrived id := by
  obtain ⟨task, m, hloop, hi, hlen, hr, hmessages⟩ := loopRecvTake_cases h.buffer hr
  have hheld : r'.loop.held = [m] := by
    rw [hr]
    rfl
  constructor
  · refine ⟨hi, hr ▸ h.mapbuffer, fun m' hm' => ?_⟩
    rw [hheld] at hm'
    exact List.mem_singleton.mp hm' ▸ hlen
  · rintro id (⟨m', hm', hid⟩ | ⟨m', hm', -⟩ | hbox)
    · -- the first message goes into the hand, the others stay
      rcases hmessages with hmessages | hmessages
      · rw [hmessages] at hm'
        rcases List.mem_cons.mp hm' with rfl | hm'
        · exact .inr (.inl ⟨m', by rw [hheld]; exact List.mem_singleton_self _, hid⟩)
        · exact .inl ⟨m', hm', hid⟩
      · rw [hmessages] at hm'
        cases hm'
    · rw [hloop] at hm'
      cases hm'
    · refine .inr (.inr ?_)
      rw [hr]
      exact hbox

theorem Sound.loopRecvStore (h : r.Sound) (hr : r.loopRecvStore = .ok r') :
    r'.Sound ∧ ∀ id, r.Arrived id → r'.Arrived id := by
  obtain ⟨task, id₁, data, -, hloop, -, -⟩ := loopRecvStore_store hr
  have hheld : r.loop.held = [(id₁, data)] := by
    rw [hloop]
    rfl
  have hlen : data.length ≤ maxAlloc := h.held (id₁, data) (by simp [hheld])
  obtain ⟨hinv, hself, hother, hr⟩ := loopRecvStore_ok h.mapbuffer hloop hlen hr
  have hbox : ∀ id, box r.mapbuffer id ≠ [] → box r'.mapbuffer id ≠ [] := by
    intro id hne
    by_cases hid : id = id₁
    · subst hid
      simp [hself, hne]
    · rwa [hother id hid]
  constructor
  · rw [hr]
    exact ⟨h.buffer, hinv, fun m hm => absurd hm List.not_mem_nil⟩
  · rintro id (hqueued | ⟨m, hm, rfl, hne⟩ | hne)
    · refine .inl ?_
      rw [hr]
      exact hqueued
    · rw [hheld] at hm
      obtain rfl := List.mem_singleton.mp hm
      refine .inr (.inr ?_)
      rw [hself]
      simp [hne]
    · exact .inr (.inr (hbox id hne))

/-- A call of `recv` takes nothing that waits under another id. -/
theorem Sound.recv (h : r.Sound) {call : RecvCall} {x : Int × Bytes}
    (hr : r.recv call = .ok (x.1, x.2, r')) :
    r'.Sound ∧ ∀ id, id ≠ call.id → r.Arrived id → r'.Arrived id := by
  obtain ⟨hinv, -, hother, hr⟩ := recv_ok h.mapbuffer hr
  constructor
  · rw [hr]
    exact ⟨h.buffer, hinv, h.held⟩
  · rintro id hid (hqueued | hheld | hne)
    · rw [hr]
      exact .inl hqueued
    · rw [hr]
      exact .inr (.inl hheld)
    · refine .inr (.inr ?_)
      rwa [hother id hid]

/-- A loop that is started or ends has nothing in its hand. -/
theorem Sound.setLoop (h : r.Sound) {l : Loop (Bytes × Bytes)} (hold : r.loop.held = [])
    (hnew : l.held = []) :
    Sound { r with loop := l } ∧ ∀ id, r.Arrived id → Arrived { r with loop := l } id := by
  constructor
  · exact ⟨h.buffer, h.mapbuffer, by simp [hnew]⟩
  · rintro id (hqueued | ⟨m, hm, -⟩ | hne)
    · exact .inl hqueued
    · simp [hold] at hm
    · exact .inr (.inr hne)

end RecvHalf

end Rosetta

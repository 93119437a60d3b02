import Rosetta.CycleBuffer.Refine
import Rosetta.Lib.Run
import Rosetta.Lib.Waiting

/-!
# The epoll thread writes, `loop_recv` reads

`Connection::write` puts what has arrived into `buffer_` without `buffer_mtx_`: `cycle_buffer::write`
takes the mutex of the ring three times, and only the notification behind it takes `buffer_mtx_`.
`loop_recv` tests and reads the ring with `buffer_mtx_` locked.

* `WriterAt`, `ReaderAt` — where the two threads are
* `RecvPath` — the ring with both of them, and what has gone in and out
* `Sound` — the invariant
-/

namespace Rosetta

open Lib CycleBuffer

/-- Where `Connection::write` is. -/
inductive WriterAt where
  | idle
  /-- `realloc` is done -/
  | grown (data : Bytes)
  /-- the wait for space is over -/
  | spaced (data : Bytes)
  /-- the bytes are in the ring, and `notify_all` is due -/
  | copied
  deriving DecidableEq

/-- Where `loop_recv` is. -/
inductive ReaderAt where
  | waiting (w : Waiting)
  /-- the predicate is false, and the thread has not yet given `buffer_mtx_` back -/
  | drowsy
  /-- the predicate is true; `read` looks at the size without the mutex of the ring -/
  | checking
  /-- `read` goes on with the mutex -/
  | reading
  | holding (id data : Bytes)
  | ended
  deriving DecidableEq

/-- The chunk that is on its way into the ring. -/
def WriterAt.chunk : WriterAt → Option Bytes
  | .grown data | .spaced data => some data
  | .idle | .copied => none

namespace ReaderAt

/-- `loop_recv` holds `buffer_mtx_`. -/
def locks : ReaderAt → Bool
  | .drowsy | .checking | .reading => true
  | .waiting _ | .holding _ _ | .ended => false

/-- Asleep, or about to. -/
def Sleepy (r : ReaderAt) : Prop := r = .waiting .asleep ∨ r = .drowsy

/-- A notification, which reaches the thread if it sleeps. -/
def notify : ReaderAt → ReaderAt
  | .waiting w => .waiting w.notify
  | r => r

end ReaderAt

/-- `read(id, data, node_id)`, from the lock on. -/
def CycleBuffer.readLocked (b : CycleBuffer) : Exec FrameRead := do
  let (len, tmp) ← b.fetchFrame
  if 9 < tmp.length then do
    let (id, data) ← splitFrame len tmp
    .ok ⟨tmp.length, id, data, { b with
      rPos := add64 b.rPos len % b.n, remainSpace := add64 b.remainSpace len }⟩
  else
    .ok ⟨0, [], [], b⟩

theorem CycleBuffer.readFrame_eq_readLocked {b : CycleBuffer} (h : 9 < b.size) :
    b.readFrame = b.readLocked := if_pos h

structure RecvPath where
  buffer : CycleBuffer
  writer : WriterAt := .idle
  reader : ReaderAt := .waiting .awake
  /-- the stop flag of the task -/
  stop : Bool := false
  /-- what was put into `mapbuffer_` -/
  stored : List (Bytes × Bytes) := []
  /-- the chunks that were put into the ring -/
  appended : List Bytes := []
  /-- the bytes that each `read` has taken -/
  removed : List Bytes := []

inductive RecvPathAct where
  /-- the critical section of `realloc`, in `write` of a chunk -/
  | realloc (data : Bytes)
  | space
  | copy
  | notify
  /-- the predicate of the wait in `loop_recv` -/
  | test
  | sleep
  | check
  | read
  /-- the critical section on `mapbuffer_mtx_` -/
  | store
  /-- a spurious wake-up -/
  | wake
  | setStop
  /-- the `notify_all` of `do_stop` -/
  | stopNotify

namespace RecvPath

def step (s : RecvPath) : RecvPathAct → Option RecvPath
  | .realloc data =>
    -- the chunk is in memory
    if s.writer = .idle ∧ data.length ≤ maxAlloc then
      match s.buffer.realloc data.length with
      | .ok b => some { s with buffer := b, writer := .grown data }
      | .error _ => none
    else none
  | .space =>
    match s.writer with
    | .grown data =>
      if data.length ≤ s.buffer.remainSpace then some { s with writer := .spaced data } else none
    | _ => none
  | .copy =>
    match s.writer with
    | .spaced data =>
      match s.buffer.writeCopy data with
      | .ok b => some { s with buffer := b, writer := .copied, appended := s.appended ++ [data] }
      | .error _ => none
    | _ => none
  | .notify =>
    if s.writer = .copied ∧ s.reader.locks = false then
      some { s with writer := .idle, reader := s.reader.notify }
    else none
  | .test =>
    match s.reader with
    | .waiting w =>
      if w = .asleep then none
      else if s.stop then some { s with reader := .ended }
      else
        match s.buffer.canRead with
        | .ok r => some { s with reader := if r then .checking else .drowsy }
        | .error _ => none
    | _ => none
  | .sleep => if s.reader = .drowsy then some { s with reader := .waiting .asleep } else none
  | .check =>
    if s.reader = .checking then
      some { s with reader := if 9 < s.buffer.size then .reading else .holding [] [] }
    else none
  | .read =>
    if s.reader = .reading then
      match s.buffer.readLocked with
      | .ok r =>
        some { s with
          buffer := r.buf
          reader := .holding r.id r.data
          removed := if r.ret = 0 then s.removed else s.removed ++ [s.buffer.contents.take r.ret] }
      | .error _ => none
    else none
  | .store =>
    match s.reader with
    | .holding id data =>
      some { s with reader := .waiting .awake, stored := s.stored ++ [(id, data)] }
    | _ => none
  | .wake =>
    if s.reader = .waiting .asleep then some { s with reader := .waiting .awake } else none
  | .setStop => some { s with stop := true }
  | .stopNotify => if s.reader.locks = false then some { s with reader := s.reader.notify } else none

/-! ## The invariant -/

/-- Exactly one frame. -/
def IsFrame (f : Bytes) : Prop := 9 < f.length ∧ headLen f = f.length

/-- `can_read()`. -/
def Readable (b : CycleBuffer) : Prop := 9 < b.size ∧ headLen b.contents ≤ b.size

instance (b : CycleBuffer) : Decidable (Readable b) := inferInstanceAs (Decidable (_ ∧ _))

theorem canRead_readable {b : CycleBuffer} (hi : Inv b) :
    b.canRead = .ok (decide (Readable b)) := canRead_eq hi

structure Sound (s : RecvPath) : Prop where
  ring : Inv s.buffer
  queue : s.removed.flatten ++ s.buffer.contents = s.appended.flatten
  frames : ∀ f ∈ s.removed, IsFrame f
  room : ∀ data, s.writer.chunk = some data → data.length ≤ s.buffer.remainSpace
  reads : s.reader = .checking ∨ s.reader = .reading → 9 < s.buffer.size
  heard : Heard s.reader.Sleepy (Readable s.buffer) (s.writer = .copied)

variable {s s' : RecvPath}

/-- The writer goes on and the ring stays the same queue. -/
theorem Sound.writerTo (h : s.Sound) {b : CycleBuffer} {w : WriterAt} (hring : Inv b)
    (hcontents : b.contents = s.buffer.contents)
    (hroom : ∀ data, w.chunk = some data → data.length ≤ b.remainSpace)
    (hdue : s.writer ≠ .copied) : Sound { s with buffer := b, writer := w } := by
  have hsize : b.size = s.buffer.size := by
    rw [← length_contents, hcontents, length_contents]
  have hsame : Readable b → Readable s.buffer := by
    unfold Readable
    rw [hsize, hcontents]
    exact id
  refine ⟨hring, ?_, h.frames, hroom, ?_, ?_⟩
  · rw [hcontents]
    exact h.queue
  · rw [hsize]
    exact h.reads
  · exact h.heard.step .inl (fun hr => .inl (hsame hr)) fun hd => absurd hd hdue

/-- The reader goes on and leaves the ring alone. -/
theorem Sound.readerTo (h : s.Sound) {r : ReaderAt}
    (hreads : r = .checking ∨ r = .reading → 9 < s.buffer.size)
    (hsleep : r.Sleepy → s.reader.Sleepy ∨ ¬ Readable s.buffer) : Sound { s with reader := r } where
  ring := h.ring
  queue := h.queue
  frames := h.frames
  room := h.room
  reads := hreads
  heard := h.heard.step hsleep .inl .inl

/-- A notification, if the reader does not hold the mutex. -/
theorem Sound.notified (h : s.Sound) (hfree : s.reader.locks = false) {w : WriterAt}
    (hroom : w.chunk = none ∨ w = s.writer) :
    Sound { s with writer := w, reader := s.reader.notify } where
  ring := h.ring
  queue := h.queue
  frames := h.frames
  room data hdata := by
    rcases hroom with hnone | rfl
    · rw [hnone] at hdata
      cases hdata
    · exact h.room data hdata
  reads hr := by
    refine h.reads ?_
    cases hs : s.reader with
    | waiting v => simp [hs, ReaderAt.notify] at hr
    | checking => exact .inl rfl
    | reading => exact .inr rfl
    | drowsy | holding _ _ | ended => simp [hs, ReaderAt.notify] at hr
  heard hsleepy := by
    cases hs : s.reader with
    | drowsy => simp [hs, ReaderAt.locks] at hfree
    | waiting v => simp [hs, ReaderAt.notify, ReaderAt.Sleepy] at hsleepy
    | checking | reading | holding _ _ | ended =>
      simp [hs, ReaderAt.notify, ReaderAt.Sleepy] at hsleepy

/-- The bytes of a frame at the head of the ring are one frame. -/
theorem isFrame_take {q : Bytes} (h : HasFrame q) : IsFrame (q.take (headLen q)) := by
  obtain ⟨h9, hle⟩ := h
  have hlen : (q.take (headLen q)).length = headLen q := by
    rw [List.length_take]
    omega
  refine ⟨by omega, ?_⟩
  rw [hlen]
  unfold headLen
  rw [List.take_take, min_eq_left (by unfold headLen at h9; omega)]

/-- `read` takes the frame at the head, or leaves the ring alone. -/
theorem readLocked_cases {b : CycleBuffer} {r : FrameRead} (hi : Inv b) (h9 : 9 < b.size)
    (h : b.readLocked = .ok r) :
    (r.ret = 0 ∧ r.buf = b) ∨
      (HasFrame b.contents ∧ r.ret = headLen b.contents ∧ r.buf = b.removed (headLen b.contents)) := by
  rw [← readFrame_eq_readLocked h9] at h
  by_cases hframe : HasFrame b.contents
  · right
    rw [readFrame_of_frame hi hframe] at h
    obtain ⟨p, -, hr⟩ := Exec.bind_eq_ok.mp h
    obtain rfl := Except.ok.inj hr
    exact ⟨hframe, rfl, rfl⟩
  · left
    rw [readFrame_of_not hi hframe] at h
    obtain rfl := Except.ok.inj h
    exact ⟨rfl, rfl⟩

theorem Sound.read (h : s.Sound) (hreading : s.reader = .reading) {r : FrameRead}
    (hread : s.buffer.readLocked = .ok r) : Sound { s with
      buffer := r.buf
      reader := .holding r.id r.data
      removed := if r.ret = 0 then s.removed else s.removed ++ [s.buffer.contents.take r.ret] } := by
  have h9 := h.reads (.inr hreading)
  rcases readLocked_cases h.ring h9 hread with ⟨hret, hbuf⟩ | ⟨hframe, hret, hbuf⟩
  · rw [if_pos hret, hbuf]
    exact h.readerTo (by simp) (by simp [ReaderAt.Sleepy])
  · have hle : headLen s.buffer.contents ≤ s.buffer.size := by
      rw [← length_contents]
      exact hframe.2
    have hpos := hframe.1
    rw [if_neg (by omega), hbuf, hret]
    refine ⟨h.ring.removed hle, ?_, ?_, ?_, by simp, ?_⟩
    · simp only [List.flatten_append, List.flatten_cons, List.flatten_nil, List.append_nil,
        contents_removed h.ring hle, List.append_assoc, List.take_append_drop]
      exact h.queue
    · intro f hf
      rcases List.mem_append.mp hf with hf | hf
      · exact h.frames f hf
      · obtain rfl := List.mem_singleton.mp hf
        exact isFrame_take hframe
    · intro data hdata
      have hroom := h.room data hdata
      simp only [CycleBuffer.removed]
      omega
    · intro hsleepy
      simp [ReaderAt.Sleepy] at hsleepy

theorem Sound.copy (h : s.Sound) {data : Bytes} (hwriter : s.writer = .spaced data)
    {b : CycleBuffer} (hb : s.buffer.writeCopy data = .ok b) : Sound { s with
      buffer := b, writer := .copied, appended := s.appended ++ [data] } := by
  have hroom := h.room data (by rw [hwriter]; rfl)
  obtain ⟨b', hb', hring, hcontents, -⟩ := writeCopy_eq h.ring data hroom
  obtain rfl := Except.ok.inj (hb'.symm.trans hb)
  refine ⟨hring, ?_, h.frames, by simp [WriterAt.chunk], fun hr => ?_, fun _ _ => rfl⟩
  · simp only [hcontents, ← List.append_assoc, h.queue, List.flatten_append, List.flatten_cons,
      List.flatten_nil, List.append_nil]
  · have hold := h.reads hr
    rw [← length_contents, hcontents, List.length_append, length_contents]
    omega

theorem Sound.realloc (h : s.Sound) {data : Bytes} (hidle : s.writer = .idle)
    (hdata : data.length ≤ maxAlloc) {b : CycleBuffer}
    (hb : s.buffer.realloc data.length = .ok b) :
    Sound { s with buffer := b, writer := .grown data } := by
  obtain ⟨hring, hcontents, hroom⟩ := realloc_ok h.ring hdata hb
  refine h.writerTo hring hcontents (fun d hd => ?_) (by simp [hidle])
  rwa [← Option.some.inj hd]

/-- **One step** of one of the threads. -/
theorem sound_step {a : RecvPathAct} (h : s.Sound) (hstep : s.step a = some s') : s'.Sound := by
  cases a with
  | realloc data =>
    simp only [step] at hstep
    split at hstep
    · next hguard =>
      split at hstep
      · next b hb =>
        obtain rfl := Option.some.inj hstep
        exact h.realloc hguard.1 hguard.2 hb
      · cases hstep
    · cases hstep
  | space =>
    simp only [step] at hstep
    split at hstep
    · next data hwriter =>
      split at hstep
      · next hroom =>
        obtain rfl := Option.some.inj hstep
        refine h.writerTo h.ring rfl (fun d hd => ?_) (by simp [hwriter])
        rwa [← Option.some.inj hd]
      · cases hstep
    · cases hstep
  | copy =>
    simp only [step] at hstep
    split at hstep
    · next data hwriter =>
      split at hstep
      · next b hb =>
        obtain rfl := Option.some.inj hstep
        exact h.copy hwriter hb
      · cases hstep
    · cases hstep
  | notify =>
    simp only [step, Option.ite_none_right_eq_some, Option.some.injEq] at hstep
    obtain ⟨⟨-, hfree⟩, rfl⟩ := hstep
    exact h.notified hfree (.inl rfl)
  | test =>
    simp only [step] at hstep
    split at hstep
    · next w hw =>
      split at hstep
      · cases hstep
      · split at hstep
        · obtain rfl := Option.some.inj hstep
          exact h.readerTo (by simp) (by simp [ReaderAt.Sleepy])
        · rw [canRead_readable h.ring] at hstep
          obtain rfl := Option.some.inj hstep
          by_cases hr : Readable s.buffer
          · rw [if_pos (decide_eq_true hr)]
            exact h.readerTo (fun _ => hr.1) (by simp [ReaderAt.Sleepy])
          · rw [if_neg (fun hdec => hr (of_decide_eq_true hdec))]
            exact h.readerTo (by simp) fun _ => .inr hr
    · cases hstep
  | sleep =>
    simp only [step, Option.ite_none_right_eq_some, Option.some.injEq] at hstep
    obtain ⟨hdrowsy, rfl⟩ := hstep
    exact h.readerTo (by simp) fun _ => .inl (.inr hdrowsy)
  | check =>
    simp only [step, Option.ite_none_right_eq_some, Option.some.injEq] at hstep
    obtain ⟨hchecking, rfl⟩ := hstep
    have h9 := h.reads (.inl hchecking)
    rw [if_pos h9]
    exact h.readerTo (fun _ => h9) (by simp [ReaderAt.Sleepy])
  | read =>
    simp only [step] at hstep
    split at hstep
    · next hreading =>
      split at hstep
      · next r hr =>
        obtain rfl := Option.some.inj hstep
        exact h.read hreading hr
      · cases hstep
    · cases hstep
  | store =>
    simp only [step] at hstep
    split at hstep
    · next id data _ =>
      obtain rfl := Option.some.inj hstep
      have hawake := h.readerTo (r := .waiting .awake) (by simp) (by simp [ReaderAt.Sleepy])
      exact ⟨hawake.1, hawake.2, hawake.3, hawake.4, hawake.5, hawake.6⟩
    · cases hstep
  | wake =>
    simp only [step, Option.ite_none_right_eq_some, Option.some.injEq] at hstep
    obtain ⟨-, rfl⟩ := hstep
    exact h.readerTo (by simp) (by simp [ReaderAt.Sleepy])
  | setStop =>
    cases hstep
    exact ⟨h.1, h.2, h.3, h.4, h.5, h.6⟩
  | stopNotify =>
    simp only [step, Option.ite_none_right_eq_some, Option.some.injEq] at hstep
    obtain ⟨hfree, rfl⟩ := hstep
    exact h.notified hfree (.inr rfl)

theorem sound_start {n : Nat} (hn : 1 ≤ n) {b : CycleBuffer} (hnew : new n = .ok b) :
    Sound { buffer := b } := by
  obtain ⟨hring, hempty⟩ := inv_new hn hnew
  refine ⟨hring, ?_, by simp, by simp [WriterAt.chunk], by simp, ?_⟩
  · simp [hempty]
  · intro hsleepy
    simp [ReaderAt.Sleepy] at hsleepy

/-! ## What arrives -/

end RecvPath

end Rosetta

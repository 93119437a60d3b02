import Rosetta.Connection.Queued
import Rosetta.Lib.Run
import Rosetta.Link.Locks
import Rosetta.Server.Steps

/-!
# Who reads for a server that stops

`TCPServer::stop` first waits for the end of its `loop_main`, then calls `Connection::stop`, which
waits for the lock byte of the peer. The byte has to be read from the socket, and that is done by
whoever runs the epoll loop.

`never_starved` says when there is somebody, or nothing left to read. `not_never_starved` is the
node with a single task.
-/

namespace Rosetta

open Lib CycleBuffer

namespace ServerConn

/-- The lock byte of every task that has still to receive it was read from the socket. -/
def Fed (x : ServerConn) : Prop :=
  ∀ e ∈ x.phases.entries, e.2.owed = 1 → x.rcv.Arrived (lockId e.1)

instance (x : ServerConn) : Decidable x.Fed :=
  inferInstanceAs (Decidable (∀ e ∈ x.phases.entries, e.2.owed = 1 → x.rcv.Arrived (lockId e.1)))

end ServerConn

namespace Server

/-- Some `loop_main` runs the epoll loop, or will take it over. -/
def Reader (n : Server) : Prop := ∃ e ∈ n.tasks.entries, e.2.reads = true

instance (n : Server) : Decidable n.Reader :=
  inferInstanceAs (Decidable (∃ e ∈ n.tasks.entries, e.2.reads = true))

def OtherReader (n : Server) (task : Bytes) : Prop :=
  ∃ e ∈ n.tasks.entries, e.1 ≠ task ∧ e.2.reads = true

instance (n : Server) (task : Bytes) : Decidable (n.OtherReader task) :=
  inferInstanceAs (Decidable (∃ e ∈ n.tasks.entries, e.1 ≠ task ∧ e.2.reads = true))

/-- No lock byte has to be read any more. -/
def Fed (n : Server) : Prop := ∀ x ∈ n.conns, x.Fed

instance (n : Server) : Decidable n.Fed := inferInstanceAs (Decidable (∀ x ∈ n.conns, x.Fed))

/-- `loop_main` of the task waits for the loop. -/
def Waits (n : Server) (task : Bytes) : Prop := ∃ s ∈ n.tasks.lookup task, s.loopMain = .waiting

instance (n : Server) (task : Bytes) : Decidable (n.Waits task) :=
  inferInstanceAs (Decidable (∃ s ∈ n.tasks.lookup task, s.loopMain = .waiting))

/--
What it takes that nobody waits for bytes that are not read:

* the last `loop_main` ends, or gives up waiting, only when all lock bytes have been read
* a task starts on a connection only when there is a `loop_main`, or its lock byte has been read
* `recv` of a channel takes no lock byte
-/
def Careful (n : Server) : ServerAct → Prop
  | .endLoop task _ => n.OtherReader task ∨ n.Fed
  | .stop task => n.Waits task → n.OtherReader task ∨ n.Fed
  | .find task cid => n.Reader ∨
    ∀ c ∈ n.connections.lookup cid, ∀ x ∈ n.conns[c]?, x.rcv.Arrived (lockId task)
  | .recv c call => ∀ x ∈ n.conns[c]?, ∀ e ∈ x.phases.entries, e.2.owed = 1 → call.id ≠ lockId e.1
  | _ => True

instance (n : Server) : DecidablePred n.Careful
  | .endLoop task _ => inferInstanceAs (Decidable (n.OtherReader task ∨ n.Fed))
  | .stop task => inferInstanceAs (Decidable (n.Waits task → n.OtherReader task ∨ n.Fed))
  | .find task cid => inferInstanceAs (Decidable (n.Reader ∨
      ∀ c ∈ n.connections.lookup cid, ∀ x ∈ n.conns[c]?, x.rcv.Arrived (lockId task)))
  | .recv c call => inferInstanceAs (Decidable (∀ x ∈ n.conns[c]?, ∀ e ∈ x.phases.entries,
      e.2.owed = 1 → call.id ≠ lockId e.1))
  | .start _ _ | .takeLoop _ | .quitLoop _ | .allConnected _ | .accept _ _ | .arrive _ _
  | .read _ _ _ | .spoil _ _ | .close _ _ | .registered _ _ | .put _ _ _ | .recvStart _ _
  | .recvTake _ | .recvStore _ | .recvStop _ | .stopConn _ _ | .lockRecv _ _ | .doStop _ _
  | .leave _ => isTrue trivial

end Server

/-! ## Steps of a connection -/

namespace ServerConn

variable {x x' : ServerConn} {task : Bytes} {p : Prop}

/-- The buffers stay in order, and under `p` no lock byte is missing afterwards. -/
def Keeps (p : Prop) (x x' : ServerConn) : Prop :=
  x.rcv.Sound → x'.rcv.Sound ∧ (p → x.Fed → x'.Fed)

theorem fed_iff : x.Fed ↔ ∀ t ph, x.phases.lookup t = some ph → ph.owed = 1 →
    x.rcv.Arrived (lockId t) :=
  forall_entry_iff (m := x.phases)
    (p := fun (t : Bytes) (ph : Phase) => ph.owed = 1 → x.rcv.Arrived (lockId t))

/-- Whoever has still to receive its byte had so before. -/
theorem keeps_of (h : x.rcv.Sound → x'.rcv.Sound ∧ ∀ t ph, x'.phases.lookup t = some ph →
      ph.owed = 1 → (∃ ph', x.phases.lookup t = some ph' ∧ ph'.owed = 1) ∧
        (x.rcv.Arrived (lockId t) → x'.rcv.Arrived (lockId t))) : x.Keeps p x' := by
  intro hsound
  obtain ⟨hsound', hphases⟩ := h hsound
  refine ⟨hsound', fun _ hfed => fed_iff.mpr fun t ph ht howed => ?_⟩
  obtain ⟨⟨ph', ht', howed'⟩, harrived⟩ := hphases t ph ht howed
  exact harrived (fed_iff.mp hfed t ph' ht' howed')

/-- A step of the receiving half. -/
theorem keeps_of_rcv (hphases : x'.phases = x.phases)
    (h : x.rcv.Sound → x'.rcv.Sound ∧ ∀ id, x.rcv.Arrived id → x'.rcv.Arrived id) :
    x.Keeps p x' := by
  refine keeps_of fun hsound => ?_
  obtain ⟨hsound', harrived⟩ := h hsound
  exact ⟨hsound', fun t ph ht howed => ⟨⟨ph, hphases ▸ ht, howed⟩, harrived _⟩⟩

/-- A step of the task, from one phase to another. -/
theorem keeps_of_phase {ph ph' : Phase} (hold : x.phase task = ph) (hne : ph ≠ .out)
    (howed : ph'.owed = 1 → ph.owed = 1) (hrcv : x'.rcv = x.rcv)
    (hphases : x'.phases = x.phases.insert task ph') : x.Keeps p x' := by
  refine keeps_of fun hsound => ⟨hrcv ▸ hsound, fun t ph₁ ht howed₁ => ⟨?_, by rw [hrcv]; exact id⟩⟩
  rw [hphases] at ht
  rcases lookup_insert_eq_some.mp ht with ⟨rfl, rfl⟩ | ⟨-, ht⟩
  · refine ⟨ph, ?_, howed howed₁⟩
    unfold phase at hold
    cases hlookup : x.phases.lookup t with
    | none =>
      rw [hlookup] at hold
      exact absurd hold.symm hne
    | some ph₂ =>
      rw [hlookup] at hold
      exact congrArg some hold
  · exact ⟨ph₁, ht, howed₁⟩

theorem keeps_read {k : Nat} (h : x.read k = .ok x') : x.Keeps p x' := by
  unfold read at h
  split at h
  · next hk =>
    obtain ⟨r, hr, h⟩ := Exec.bind_eq_ok.mp h
    obtain rfl := Except.ok.inj h
    -- `main_buffer_` takes 8192 bytes, so the write is small
    refine keeps_of_rcv rfl fun hsound => hsound.write ?_ hr
    have hmax : (8192 : Nat) ≤ maxAlloc := by decide
    exact ((List.length_take_le _ _).trans hk.2.2.1).trans hmax
  · cases h

/-- `start` is where a lock byte begins to be awaited. -/
theorem keeps_start (harrived : p → x.rcv.Arrived (lockId task)) (h : start task x = .ok x') :
    x.Keeps p x' := by
  unfold start at h
  split at h
  · obtain rfl := Except.ok.inj h
    refine fun hsound => ⟨hsound, fun hp hfed => fed_iff.mpr fun t ph ht howed => ?_⟩
    rcases lookup_insert_eq_some.mp ht with ⟨rfl, -⟩ | ⟨-, ht⟩
    · exact harrived hp
    · exact fed_iff.mp hfed t ph ht howed
  · cases h

theorem keeps_registered (h : registered task x = .ok x') : x.Keeps p x' := by
  unfold registered at h
  split at h
  · next hphase =>
    obtain rfl := Except.ok.inj h
    exact keeps_of_phase hphase Phase.noConfusion (fun _ => rfl) rfl rfl
  · cases h

theorem keeps_stop (h : stop task x = .ok x') : x.Keeps p x' := by
  unfold stop at h
  split at h
  · next hphase =>
    obtain rfl := Except.ok.inj h
    exact keeps_of_phase hphase.1 Phase.noConfusion (fun _ => rfl) rfl rfl
  · cases h

/-- The byte that is taken is that of the task, and the task awaits it no more. -/
theorem keeps_lockRecv (h : lockRecv task x = .ok x') : x.Keeps p x' := by
  unfold lockRecv at h
  split at h
  · obtain ⟨⟨ret, data, r⟩, hr, h⟩ := Exec.bind_eq_ok.mp h
    obtain rfl := Except.ok.inj h
    refine keeps_of fun hsound => ?_
    obtain ⟨hsound', hother⟩ := hsound.recv (x := (ret, data)) hr
    refine ⟨hsound', fun t ph ht howed => ?_⟩
    rcases lookup_insert_eq_some.mp ht with ⟨-, rfl⟩ | ⟨hne, ht⟩
    · cases howed
    · exact ⟨⟨ph, ht, howed⟩, hother _ fun heq => hne (lockId_injective heq)⟩
  · cases h

theorem keeps_doStop (h : doStop task x = .ok x') : x.Keeps p x' := by
  unfold doStop at h
  split at h
  · obtain rfl := Except.ok.inj h
    refine keeps_of fun hsound => ⟨hsound, fun t ph ht howed => ⟨⟨ph, ?_, howed⟩, id⟩⟩
    exact (lookup_erase_eq_some.mp ht).2
  · cases h

theorem keeps_recv {call : RecvCall}
    (hid : ∀ e ∈ x.phases.entries, e.2.owed = 1 → call.id ≠ lockId e.1)
    (h : recv call x = .ok x') : x.Keeps p x' := by
  obtain ⟨⟨ret, data, r⟩, hr, h⟩ := Exec.bind_eq_ok.mp h
  obtain rfl := Except.ok.inj h
  refine keeps_of fun hsound => ?_
  obtain ⟨hsound', hother⟩ := hsound.recv (x := (ret, data)) hr
  refine ⟨hsound', fun t ph ht howed => ⟨⟨ph, ht, howed⟩, hother _ fun heq => ?_⟩⟩
  exact hid ⟨t, ph⟩ (AList.mem_lookup_iff.mp ht) howed heq.symm

theorem keeps_recvStart (h : recvStart task x = .ok x') : x.Keeps p x' := by
  unfold recvStart at h
  split at h
  · obtain ⟨l, hl, h⟩ := Exec.bind_eq_ok.mp h
    obtain rfl := Except.ok.inj h
    obtain ⟨hidle, rfl⟩ := Loop.start_ok hl
    exact keeps_of_rcv rfl fun hsound => hsound.setLoop (by rw [hidle]; rfl) rfl
  · cases h

theorem keeps_recvStop (h : recvStop x = .ok x') : x.Keeps p x' := by
  unfold recvStop at h
  split at h
  · split at h
    · obtain ⟨l, hl, h⟩ := Exec.bind_eq_ok.mp h
      obtain rfl := Except.ok.inj h
      obtain ⟨⟨t, hwait⟩, rfl⟩ := Loop.stop_ok hl
      exact keeps_of_rcv rfl fun hsound => hsound.setLoop (by rw [hwait]; rfl) rfl
    · cases h
  · cases h

theorem keeps_recvTake (h : recvTake x = .ok x') : x.Keeps p x' := by
  obtain ⟨r, hr, h⟩ := Exec.bind_eq_ok.mp h
  obtain rfl := Except.ok.inj h
  exact keeps_of_rcv rfl fun hsound => hsound.loopRecvTake hr

theorem keeps_recvStore (h : recvStore x = .ok x') : x.Keeps p x' := by
  obtain ⟨r, hr, h⟩ := Exec.bind_eq_ok.mp h
  obtain rfl := Except.ok.inj h
  exact keeps_of_rcv rfl fun hsound => hsound.loopRecvStore hr

/-- A step that leaves the receiving half and the phases alone. -/
theorem keeps_of_same (hphases : x'.phases = x.phases) (hrcv : x'.rcv = x.rcv) : x.Keeps p x' :=
  keeps_of_rcv hphases fun hsound => ⟨hrcv ▸ hsound, fun _ h => by rw [hrcv]; exact h⟩

end ServerConn

/-! ## Steps of the servers -/

namespace Server

variable {n n' : Server} {task : Bytes}

/-- A task that starts on a connection finds nobody to read its lock byte. -/
def Unread (n : Server) : ServerAct → Prop
  | .find _ _ => ¬ n.Reader
  | _ => True

/-- What is asked of each connection after a step. -/
def Kept (p : Prop) (n n' : Server) : Prop :=
  ∀ x' ∈ n'.conns, (∃ x ∈ n.conns, x.Keeps p x') ∨ (x'.rcv.Sound ∧ x'.Fed)

/-- **What a careful step does to a connection**, one lemma for each action. -/
theorem ConnStep.keeps {a : ServerAct} {c : Nat} {x x' : ServerConn} (hcare : n.Careful a)
    (hx : n.conns[c]? = some x) (h : n.ConnStep c x x' a) : x.Keeps (n.Unread a) x' := by
  cases a with
  | arrive | spoil | close =>
    obtain ⟨-, rfl⟩ := h
    exact ServerConn.keeps_of_same rfl rfl
  | leave =>
    obtain rfl := h
    exact ServerConn.keeps_of_same rfl rfl
  | read => exact ServerConn.keeps_read h.2
  | find =>
    -- without a reader, the lock byte has arrived
    obtain ⟨hc, hstart⟩ := h
    exact ServerConn.keeps_start (fun hunread => hcare.resolve_left hunread c hc x hx) hstart
  | registered => exact ServerConn.keeps_registered h.2
  | recvStart => exact ServerConn.keeps_recvStart h.2
  | recvTake => exact ServerConn.keeps_recvTake h.2
  | recvStore => exact ServerConn.keeps_recvStore h.2
  | recvStop => exact ServerConn.keeps_recvStop h.2
  | recv =>
    obtain ⟨rfl, hrecv⟩ := h
    exact ServerConn.keeps_recv (hcare x hx) hrecv
  | stopConn => exact ServerConn.keeps_stop h
  | lockRecv => exact ServerConn.keeps_lockRecv h
  | doStop => exact ServerConn.keeps_doStop h
  | start | takeLoop | quitLoop | allConnected | endLoop | accept | put | stop => exact h.elim

theorem kept_step {a : ServerAct} (hcare : n.Careful a) (h : n.step a = some n') :
    Kept (n.Unread a) n n' := by
  intro x' hx'
  obtain ⟨c, hc⟩ := List.mem_iff_getElem?.mp hx'
  rcases (effect_step h).conns c x' hc with hsame | ⟨x, hx, hstep⟩ | ⟨r, wire, hr, rfl⟩
  · exact .inl ⟨x', List.mem_of_getElem? hsame, ServerConn.keeps_of_same rfl rfl⟩
  · exact .inl ⟨x, List.mem_of_getElem? hx, hstep.keeps hcare hx⟩
  · -- a new connection awaits nothing
    exact .inr ⟨RecvHalf.sound_new hr, fun e he => absurd he List.not_mem_nil⟩

/-! ## Who reads -/

/-- `loop_main` of the task is there to read. -/
def Reads : Option (LoopMain × Bool) → Prop
  | some (.checking, _) | some (.serving, _) | some (.waiting, false) => True
  | _ => False

theorem reads_iff {s : ServerTask} : Reads (some (s.loopMain, s.stop)) ↔ s.reads = true := by
  cases hloop : s.loopMain <;> cases hstop : s.stop <;> simp [Reads, ServerTask.reads, hloop, hstop]

theorem reader_iff : n.Reader ↔ ∃ t, Reads (n.loop t) := by
  constructor
  · rintro ⟨⟨t, s⟩, he, hs⟩
    refine ⟨t, ?_⟩
    rw [loop, AList.mem_lookup_iff.mpr he]
    exact reads_iff.mpr hs
  · rintro ⟨t, ht⟩
    unfold loop at ht
    cases hs : n.tasks.lookup t with
    | none =>
      rw [hs] at ht
      exact ht.elim
    | some s =>
      rw [hs] at ht
      exact ⟨⟨t, s⟩, AList.mem_lookup_iff.mp hs, reads_iff.mp ht⟩

/-- A reader other than the task of the action goes on. -/
theorem reader_of_other (hloop : ∀ t, t ≠ task → n'.loop t = n.loop t)
    (h : n.OtherReader task) : n'.Reader := by
  obtain ⟨⟨t, s⟩, he, hne, hs⟩ := h
  refine reader_iff.mpr ⟨t, ?_⟩
  rw [hloop t hne, loop, AList.mem_lookup_iff.mpr he]
  exact reads_iff.mpr hs

/-- **A careful step** leaves a reader, or nothing to read. -/
theorem reader_step {a : ServerAct} (hcare : n.Careful a) (hstep : n.step a = some n')
    (h : n.Reader) : n'.Reader ∨ (n.Fed ∧ n.Unread a) := by
  have hloop := (effect_step hstep).loop
  obtain ⟨t, ht⟩ := reader_iff.mp h
  cases a with
  | endLoop task timedOut =>
    rcases hcare with hother | hfed
    · refine .inl (reader_of_other (fun t hne => ?_) hother)
      exact (hloop t).resolve_left (fun h => hne h.1) |>.2
    · exact .inr ⟨hfed, trivial⟩
  | stop task =>
    -- a thread that is inside of the loop goes on until it sees the flag
    by_cases hwaits : n.Waits task
    · rcases hcare hwaits with hother | hfed
      · refine .inl (reader_of_other (fun t hne => ?_) hother)
        exact (hloop t).resolve_left (fun h => hne h.1) |>.2
      · exact .inr ⟨hfed, trivial⟩
    · refine .inl (reader_iff.mpr ⟨t, ?_⟩)
      rcases hloop t with ⟨rfl, m, hl, hl'⟩ | ⟨-, hl'⟩
      · rw [hl] at ht
        rw [hl']
        cases m with
        | waiting =>
          refine absurd ?_ hwaits
          unfold loop at hl
          obtain ⟨s, hs, hl⟩ := Option.map_eq_some_iff.mp hl
          exact ⟨s, hs, (Prod.mk.inj hl).1⟩
        | checking | serving => trivial
        | ended => exact ht.elim
      · rwa [hl']
  | start | quitLoop | leave =>
    -- the task of the action was no reader
    refine .inl (reader_iff.mpr ⟨t, ?_⟩)
    rcases hloop t with ⟨-, hl, -⟩ | ⟨-, hl'⟩
    · rw [hl] at ht
      exact ht.elim
    · rwa [hl']
  | takeLoop =>
    refine .inl (reader_iff.mpr ⟨t, ?_⟩)
    rcases hloop t with ⟨-, -, hl'⟩ | ⟨-, hl'⟩
    · rw [hl']
      trivial
    · rwa [hl']
  | allConnected =>
    refine .inl (reader_iff.mpr ⟨t, ?_⟩)
    rcases hloop t with ⟨-, b, -, hl'⟩ | ⟨-, hl'⟩
    · rw [hl']
      trivial
    · rwa [hl']
  | _ => exact .inl (reader_iff.mpr ⟨t, (show n'.loop t = n.loop t from hloop t) ▸ ht⟩)

/-! ## Nobody is left waiting -/

structure Served (n : Server) : Prop where
  sound : ∀ x ∈ n.conns, x.rcv.Sound
  fed : n.Reader ∨ n.Fed

theorem served_start : Served {} :=
  ⟨fun _ hx => absurd hx List.not_mem_nil, .inr fun _ hx => absurd hx List.not_mem_nil⟩

theorem served_step {a : ServerAct} (h : n.Served) (hcare : n.Careful a)
    (hstep : n.step a = some n') : n'.Served := by
  have hkept := kept_step hcare hstep
  constructor
  · intro x' hx'
    rcases hkept x' hx' with ⟨x, hx, hkeeps⟩ | ⟨hsound, -⟩
    · exact (hkeeps (h.sound x hx)).1
    · exact hsound
  · -- without a reader all lock bytes have been read, and no step brings them back
    have hstays : n.Fed → n.Unread a → n'.Fed := by
      intro hfed hunread x' hx'
      rcases hkept x' hx' with ⟨x, hx, hkeeps⟩ | ⟨-, hfed'⟩
      · exact (hkeeps (h.sound x hx)).2 hunread (hfed x hx)
      · exact hfed'
    by_cases hreader : n.Reader
    · rcases reader_step hcare hstep hreader with hreader' | ⟨hfed, hunread⟩
      · exact .inl hreader'
      · exact .inr (hstays hfed hunread)
    · refine .inr (hstays (h.fed.resolve_left hreader) ?_)
      cases a with
      | find task cid => exact hreader
      | _ => trivial

/-- **Nobody waits for bytes that are not read.** In every run whose steps are careful: when the
`stop` of a task waits for a lock byte, the byte has been read from the socket, or some `loop_main`
runs the epoll loop or will take it over. -/
theorem never_starved {acts : List ServerAct} (hcare : AllSteps step Careful {} acts)
    (hrun : run step {} acts = some n) {x : ServerConn} (hx : x ∈ n.conns)
    (hwait : x.phase task = .waiting) : x.rcv.Arrived (lockId task) ∨ n.Reader := by
  have h : n.Served := run_invariant_of (fun _ _ _ => served_step) served_start hcare hrun
  refine h.fed.symm.imp_left fun hfed => ?_
  cases hlookup : x.phases.lookup task with
  | none => simp [ServerConn.phase, hlookup] at hwait
  | some ph =>
    obtain rfl : ph = .waiting := by simpa [ServerConn.phase, hlookup] using hwait
    exact ServerConn.fed_iff.mp (hfed x hx) task .waiting hlookup rfl

/-- The first task stops while the second one waits for the loop. -/
theorem never_starved_small : ∃ acts n, AllSteps step Careful {} acts ∧
    run step {} acts = some n ∧ ∃ x ∈ n.conns, x.phase [1] = .waiting ∧
    (x.rcv.Arrived (lockId [1]) ∨ n.Reader) := by
  obtain ⟨acts, hcare, hview⟩ : ∃ acts : List ServerAct, AllSteps step Careful {} acts ∧
      (run step {} acts).map (fun n => n.conns.map fun x => x.phase [1]) = some [.waiting] :=
    ⟨[.start [1] [⟨[7], by decide⟩], .start [2] [⟨[7], by decide⟩], .takeLoop [1],
      .accept [1] (ClientId.hello ⟨[7], by decide⟩), .find [1] [7], .registered [1] 0,
      .put [1] [7] 0, .stop [1], .endLoop [1] false, .stopConn [1] [7]], by decide, by decide⟩
  obtain ⟨n, hrun, hn⟩ := Option.map_eq_some_iff.mp hview
  obtain ⟨x, hx, hwait⟩ := List.mem_map.mp (hn ▸ List.mem_singleton_self Phase.waiting)
  exact ⟨acts, n, hcare, hrun, x, hx, hwait, never_starved hcare hrun hx hwait⟩

/-- **Not in every run.** A node with one task: its loop has ended, and the lock frame of the peer
arrives at the socket afterwards. -/
theorem not_never_starved : ¬ ∀ acts n, run step {} acts = some n → ∀ x ∈ n.conns, ∀ task,
    x.phase task = .waiting → x.rcv.Arrived (lockId task) ∨ n.Reader := by
  intro hall
  obtain ⟨acts, hview⟩ : ∃ acts : List ServerAct, (run step {} acts).map (fun n =>
      (n.conns.map fun x => (x.phase [1], decide (x.rcv.Arrived (lockId [1]))), decide n.Reader)) =
        some ([(.waiting, false)], false) :=
    ⟨[.start [1] [⟨[7], by decide⟩], .takeLoop [1],
      .accept [1] (ClientId.hello ⟨[7], by decide⟩), .find [1] [7], .registered [1] 0,
      .put [1] [7] 0, .stop [1], .endLoop [1] false, .stopConn [1] [7],
      .arrive 0 (frameBytes (lockId [1]) lockMsg)], by decide⟩
  obtain ⟨n, hrun, hn⟩ := Option.map_eq_some_iff.mp hview
  obtain ⟨hconns, hreader⟩ := Prod.mk.inj hn
  obtain ⟨x, hx, hxview⟩ := List.mem_map.mp (hconns ▸ List.mem_singleton_self (Phase.waiting, false))
  obtain ⟨hwait, harrived⟩ := Prod.mk.inj hxview
  rcases hall acts n hrun x hx [1] hwait with h | h
  · exact of_decide_eq_false harrived h
  · exact of_decide_eq_false hreader h

end Server

end Rosetta

import Mathlib.Data.List.AList
import Rosetta.Machine

/-!
# A server that could not be started

`TCPServer::start` counts the task before it tries what may fail, and begins the thread of the task
after it. `stop` undoes both, in any case. It is called when the `BasicIO` ends, with or without a
successful `init`.

* `stop_of_started` — a server that was started can be torn down
* `never_tornDown` — one that was not never can
-/

namespace Rosetta

/-! ## `start` and `stop` -/

/-- The static members of `TCPServer`, as far as `start` and `stop` change them. -/
structure ServerStatics where
  taskCount : Int := 0
  isInited : Bool := false
  stoped : Bool := true
  port : Int := 0
  epollfd : Int := -1
  listenfd : Int := -1
  /-- `listen_conn_` is an object -/
  listenConn : Bool := false
  connections : AList fun _ : Bytes => Int := ∅
  recycleConnections : List Int := []

/-- A `TCPServer`. -/
structure TCPServer where
  taskId : Bytes
  stop : Bool := false
  /-- `loop_thread_` is a thread, not an empty object -/
  loopThread : Bool := false
  deriving DecidableEq

/-- What the calls in `start` return. -/
structure StartCalls where
  initSsl : Bool := true
  epollCreate : Int
  socket : Int
  bind : Int
  listen : Int
  deriving DecidableEq

/-- What a call throws. -/
inductive Thrown where
  /-- `std::system_error` of `join` -/
  | systemError
  deriving DecidableEq

namespace TCPServer

def createServer (c : StartCalls) : Int :=
  if c.socket < 0 then -1
  else if c.bind ≠ 0 then -1
  else if c.listen ≠ 0 then -1
  else c.socket

def init (g : ServerStatics) (c : StartCalls) : Bool × ServerStatics :=
  let g := { g with epollfd := c.epollCreate }
  if g.epollfd < 0 then (false, g)
  else
    let g := { g with listenfd := createServer c }
    if g.listenfd < 0 then (false, g) else (true, { g with listenConn := true })

def start (g : ServerStatics) (t : TCPServer) (port : Int) (c : StartCalls) :
    Bool × ServerStatics × TCPServer :=
  let g := { g with taskCount := g.taskCount + 1 }
  if g.isInited then (true, g, { t with loopThread := true })
  else
    let g := { g with port }
    if !c.initSsl then (false, g, t)
    else
      match init g c with
      | (false, g) => (false, g, t)
      | (true, g) =>
        (true, { g with stoped := false, isInited := true }, { t with loopThread := true })

/-- `loop_thread_.join()`, when `loop_main` ends. -/
def join (t : TCPServer) : Except Thrown TCPServer :=
  if t.loopThread then .ok { t with loopThread := false } else .error .systemError

/-- `stop`, with the sum that `get_unrecv_size()` returns. -/
def stopServer (unrecvSize : Nat) (g : ServerStatics) (t : TCPServer) :
    Except Thrown (ServerStatics × TCPServer) :=
  if t.stop then .ok (g, t)
  else do
    let t ← join { t with stop := true }
    let g := { g with taskCount := g.taskCount - 1 }
    .ok (if g.taskCount = 0 ∧ unrecvSize = 0 then
      { g with
        connections := ∅
        recycleConnections := []
        listenConn := false
        isInited := false
        stoped := true }
    else g, t)

end TCPServer

/-- The calls with which a start does not work. -/
def StartCalls.Fail (c : StartCalls) : Prop :=
  c.initSsl = false ∨ c.epollCreate < 0 ∨ c.socket < 0 ∨ c.bind ≠ 0 ∨ c.listen ≠ 0

namespace TCPServer

variable {g g' : ServerStatics} {t t' : TCPServer} {port : Int} {c : StartCalls} {started : Bool}

theorem createServer_neg_iff (c : StartCalls) :
    createServer c < 0 ↔ c.socket < 0 ∨ c.bind ≠ 0 ∨ c.listen ≠ 0 := by
  unfold createServer
  split
  · next h => exact iff_of_true (by decide) (.inl h)
  · next h =>
    split
    · next h' => exact iff_of_true (by decide) (.inr (.inl h'))
    · next h' =>
      split
      · next h'' => exact iff_of_true (by decide) (.inr (.inr h''))
      · next h'' => simp [h, h', h'']

/-- `init` does not count. -/
theorem taskCount_of_init (h : init g c = (started, g')) : g'.taskCount = g.taskCount := by
  unfold init at h
  simp only at h
  split at h
  · obtain ⟨-, rfl⟩ := Prod.mk.inj h
    rfl
  · split at h
    · obtain ⟨-, rfl⟩ := Prod.mk.inj h
      rfl
    · obtain ⟨-, rfl⟩ := Prod.mk.inj h
      rfl

theorem init_eq_false_iff (h : init g c = (started, g')) :
    started = false ↔ c.epollCreate < 0 ∨ c.socket < 0 ∨ c.bind ≠ 0 ∨ c.listen ≠ 0 := by
  rw [← createServer_neg_iff]
  unfold init at h
  simp only at h
  split at h
  · next hepoll =>
    obtain ⟨rfl, -⟩ := Prod.mk.inj h
    exact iff_of_true rfl (.inl hepoll)
  · next hepoll =>
    split at h
    · next hlisten =>
      obtain ⟨rfl, -⟩ := Prod.mk.inj h
      exact iff_of_true rfl (.inr hlisten)
    · next hlisten =>
      obtain ⟨rfl, -⟩ := Prod.mk.inj h
      exact iff_of_false (by simp) (not_or_intro hepoll hlisten)

/-- **What `start` leaves**, whether it works or not: the task is counted, and a thread has begun
only if it works. -/
theorem start_spec (h : start g t port c = (started, g', t')) :
    g'.taskCount = g.taskCount + 1 ∧ t' = { t with loopThread := t.loopThread || started } ∧
      (started = false ↔ g.isInited = false ∧ c.Fail) := by
  unfold start at h
  simp only at h
  split at h
  · next hinited =>
    simp only [Prod.mk.injEq] at h
    obtain ⟨rfl, rfl, rfl⟩ := h
    refine ⟨rfl, by simp, ?_⟩
    simp [hinited]
  · next hinited =>
    have hinited : g.isInited = false := Bool.eq_false_of_not_eq_true hinited
    split at h
    · next hssl =>
      simp only [Prod.mk.injEq] at h
      obtain ⟨rfl, rfl, rfl⟩ := h
      exact ⟨rfl, by simp, iff_of_true rfl ⟨hinited, .inl (by simpa using hssl)⟩⟩
    · next hssl =>
      have hssl : c.initSsl ≠ false := by simpa using hssl
      split at h
      · next g₁ hinit =>
        simp only [Prod.mk.injEq] at h
        obtain ⟨rfl, rfl, rfl⟩ := h
        refine ⟨taskCount_of_init hinit, by simp, iff_of_true rfl ⟨hinited, .inr ?_⟩⟩
        exact (init_eq_false_iff hinit).mp rfl
      · next g₁ hinit =>
        simp only [Prod.mk.injEq] at h
        obtain ⟨rfl, rfl, rfl⟩ := h
        refine ⟨taskCount_of_init hinit, by simp, iff_of_false (by simp) ?_⟩
        rintro ⟨-, hfail⟩
        have hcalls := hfail.resolve_left hssl
        exact absurd ((init_eq_false_iff hinit).mpr hcalls) (by simp)

theorem stopServer_of_not_started (hstop : t.stop = false) (hthread : t.loopThread = false)
    (unrecvSize : Nat) : stopServer unrecvSize g t = .error .systemError := by
  rw [stopServer, if_neg (by simp [hstop]), join, if_neg (by simp [hthread])]
  rfl

/-- The task is taken out of the count, and the last one closes the server. -/
theorem stopServer_of_started (hstop : t.stop = false) (hthread : t.loopThread = true)
    (unrecvSize : Nat) : ∃ g' t', stopServer unrecvSize g t = .ok (g', t') ∧
      g'.taskCount = g.taskCount - 1 ∧
      (g.taskCount ≠ 1 → g' = { g with taskCount := g.taskCount - 1 }) := by
  rw [stopServer, if_neg (by simp [hstop]), join, if_pos (by simpa using hthread)]
  refine ⟨_, _, rfl, ?_, fun hne => ?_⟩
  · split
    · rfl
    · rfl
  · refine if_neg fun h => hne ?_
    have hzero : g.taskCount - 1 = 0 := h.1
    omega

end TCPServer

/-! ## The `BasicIO` of a task -/

/-- A `BasicIO` that has no clients yet. -/
structure TaskIO where
  taskId : Bytes
  server : Option TCPServer := none
  deriving DecidableEq

namespace TaskIO

/-- `init`, up to the clients. -/
def init (g : ServerStatics) (io : TaskIO) (port : Int) (c : StartCalls) :
    Bool × ServerStatics × TaskIO :=
  match TCPServer.start g { taskId := io.taskId } port c with
  | (started, g, t) => (started, g, { io with server := some t })

def close (unrecvSize : Nat) (g : ServerStatics) (io : TaskIO) :
    Except Thrown (ServerStatics × TaskIO) :=
  match io.server with
  | some t => do
    let (g, t) ← t.stopServer unrecvSize g
    .ok (g, { io with server := some t })
  | none => .ok (g, io)

/-- `~BasicIO`. A destructor is `noexcept`: with an exception the process ends (`none`). -/
def destroy (unrecvSize : Nat) (g : ServerStatics) (io : TaskIO) : Option ServerStatics :=
  match io.close unrecvSize g with
  | .ok (g, _) => some g
  | .error _ => none

variable {g g' : ServerStatics} {io io' : TaskIO} {port : Int} {c : StartCalls} {started : Bool}

/-- What the other tasks have of the server. -/
structure SameForOthers (g g' : ServerStatics) : Prop where
  counted : g.taskCount ≤ g'.taskCount
  isInited : g'.isInited = g.isInited
  connections : g'.connections = g.connections
  recycled : g'.recycleConnections = g.recycleConnections

/-- From `g`, a failed `init` has led to `g'` and `io'`: the task is not counted, and the `BasicIO`
can be closed, and destroyed, without a difference to the other tasks. -/
structure TornDown (unrecvSize : Nat) (g g' : ServerStatics) (io' : TaskIO) : Prop where
  count : g'.taskCount = g.taskCount
  closes : ∃ g'' io'', io'.close unrecvSize g' = .ok (g'', io'') ∧ SameForOthers g g''
  survives : ∃ g'', io'.destroy unrecvSize g' = some g''

theorem init_spec (h : init g io port c = (started, g', io')) :
    g'.taskCount = g.taskCount + 1 ∧
      io'.server = some { taskId := io.taskId, loopThread := started } ∧
      (started = false ↔ g.isInited = false ∧ c.Fail) := by
  unfold init at h
  split at h
  next started₁ g₁ t hstart =>
    simp only [Prod.mk.injEq] at h
    obtain ⟨rfl, rfl, rfl⟩ := h
    obtain ⟨hcount, rfl, hfails⟩ := TCPServer.start_spec hstart
    exact ⟨hcount, by simp, hfails⟩

/-- A server that was started can be torn down: the count is as before, and if there are other tasks
then everything is that `start` has left. -/
theorem close_of_started (h : init g io port c = (true, g', io')) (unrecvSize : Nat) :
    ∃ g'' io'', io'.close unrecvSize g' = .ok (g'', io'') ∧ g''.taskCount = g.taskCount ∧
      (g.taskCount ≠ 0 → g'' = { g' with taskCount := g.taskCount }) := by
  obtain ⟨hcount, hserver, -⟩ := init_spec h
  obtain ⟨g'', t'', hstop, hcount', hothers⟩ :=
    TCPServer.stopServer_of_started (g := g') (t := { taskId := io.taskId, loopThread := true })
      rfl rfl unrecvSize
  have hminus : g'.taskCount - 1 = g.taskCount := by omega
  rw [hminus] at hcount' hothers
  refine ⟨g'', { io' with server := some t'' }, ?_, hcount', fun hne => hothers (by omega)⟩
  rw [close, hserver]
  simp only
  rw [hstop]
  rfl

/-- **A server that was not started can never be torn down.** Whatever has failed, the task stays in
the count, `stop` joins a thread that there is not, and the exception ends the process. -/
theorem never_tornDown (h : init g io port c = (false, g', io')) (unrecvSize : Nat) :
    ¬ TornDown unrecvSize g g' io' ∧ g'.taskCount = g.taskCount + 1 ∧
      io'.close unrecvSize g' = .error .systemError ∧ io'.destroy unrecvSize g' = none := by
  obtain ⟨hcount, hserver, -⟩ := init_spec h
  have hclose : io'.close unrecvSize g' = .error .systemError := by
    rw [close, hserver]
    simp only
    rw [TCPServer.stopServer_of_not_started rfl rfl]
    rfl
  refine ⟨fun htorn => ?_, hcount, hclose, ?_⟩
  · have hsame := htorn.count
    omega
  · rw [destroy, hclose]

/-- The port is in use, and two other tasks have been counted. -/
theorem never_tornDown_small : ∃ g g' io io', init g io 11120
    { epollCreate := 3, socket := 4, bind := -1, listen := 0 } = (false, g', io') ∧
    g.taskCount = 2 ∧ g'.taskCount = 3 ∧ ¬ TornDown 0 g g' io' := by
  obtain ⟨g', io', hinit⟩ : ∃ g' io', init { taskCount := 2 } { taskId := [1] } 11120
      { epollCreate := 3, socket := 4, bind := -1, listen := 0 } = (false, g', io') :=
    ⟨_, _, rfl⟩
  have h := never_tornDown hinit 0
  exact ⟨_, g', _, io', hinit, rfl, h.2.1, h.1⟩

/-- The first task of a process finds its port in use. -/
theorem not_tornDown : ¬ ∀ g io port c g' io' unrecvSize,
    init g io port c = (false, g', io') → TornDown unrecvSize g g' io' := by
  intro hall
  have htorn := hall {} { taskId := [1] } 11120
    { epollCreate := 3, socket := 4, bind := -1, listen := 0 } _ _ 0 rfl
  exact absurd htorn.count (by decide)

end TaskIO

end Rosetta

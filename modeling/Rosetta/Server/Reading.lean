import Rosetta.Connection.Delivered

/-!
# The epoll thread reads a connection

The sockets of the connections are in the epoll set with `EPOLLET`: `epoll_wait` reports a socket
once when something has arrived, and not again while it is still there. So `handle_read` reads until
`::read` has nothing more. An error is reported before anything that can be read, and then only
`handle_error` reads, if the connection is over.

* `Reading` — one connection of a node: its direction to the node, the socket, and the epoll thread
* `Settled` — where the thread does not look at the socket, nothing is in it
* `settled_iff` — when this is so after every step
-/

namespace Rosetta

open Lib CycleBuffer

/-- The socket is read. -/
def DirAct.isRead : DirAct → Bool
  | .deliver _ => true
  | _ => false

/-- Where the epoll thread is with a connection. -/
inductive ReadLoop where
  /-- not here -/
  | polling
  /-- `epoll_wait` has returned `EPOLLERR` -/
  | error
  /-- `epoll_wait` has returned `EPOLLIN` -/
  | input
  /-- in the loop of `handle_read` -/
  | reading
  /-- in the loop of `handle_error` -/
  | draining
  deriving DecidableEq, Repr

/-- A connection without SSL. -/
structure Reading where
  /-- `wire` is all that was sent and has not been read -/
  dir : Direction
  /-- how much of it is in the socket -/
  arrived : Nat := 0
  /-- no more comes, and `::read` returns 0 at the end -/
  fin : Bool := false
  /-- the socket has an error -/
  err : Bool := false
  /-- `tcpi_state` is `TCP_CLOSE` -/
  tcpClose : Bool := false
  /-- in the epoll set -/
  registered : Bool := false
  /-- on the ready list of the epoll set -/
  ready : Bool := false
  loop : ReadLoop := .polling
  /-- `state_` is `Closed`, and so is the descriptor -/
  closed : Bool := false
  /-- the epoll thread has closed it -/
  dropped : Bool := false
  reuseable : Bool := true

inductive ReadAct where
  /-- anything that happens to the direction apart from reading the socket -/
  | dir (a : DirAct)
  /-- bytes come to the socket -/
  | arrive (k : Nat)
  /-- the peer has closed its end -/
  | fin
  /-- the peer has reset the connection -/
  | reset
  /-- another error, which does not end the connection -/
  | fault
  /-- `epoll_add` -/
  | add
  | epollWait
  /-- `loop_once` calls `handle_error` or `handle_read` -/
  | handle
  /-- `readImpl` returns `k` bytes, and `Connection::write` takes them -/
  | read (k : Nat)
  /-- `readImpl` returns 0 -/
  | readEof
  /-- `readImpl` returns -1, with `EAGAIN` -/
  | readAgain
  /-- with `EINTR` -/
  | interrupt
  /-- with another `errno` -/
  | readError
  /-- a task closes the connection -/
  | close

namespace Reading

/-- `epoll_wait` would report the socket. -/
def pollable (s : Reading) : Bool := decide (0 < s.arrived) || s.fin || s.err

/-- The kernel wakes up the epoll set, if the socket is in it. -/
def wake (s : Reading) : Reading := { s with ready := s.ready || s.registered }

/-- `epoll_del`, and `Connection::close` unless a task has been there. -/
def drop (s : Reading) : Reading :=
  { s with
    registered := false
    ready := false
    closed := true
    dropped := s.dropped || !s.closed
    loop := .polling }

/-- `readImpl` has returned nothing, and the loop ends. -/
def leave (s : Reading) : Exec Reading :=
  match s.loop with
  | .reading => .ok { s with loop := .polling }
  | .draining => .ok s.drop
  | _ => .error .blocked

def exec (s : Reading) : ReadAct → Exec Reading
  | .dir a =>
    if a.isRead = false then do
      let d ← s.dir.exec a
      .ok { s with dir := d }
    else
      .error .blocked
  | .arrive k =>
    if 0 < k ∧ s.arrived + k ≤ s.dir.wire.length ∧ s.fin = false ∧ s.closed = false then
      .ok (wake { s with arrived := s.arrived + k })
    else
      .error .blocked
  | .fin =>
    if s.arrived = s.dir.wire.length ∧ s.fin = false ∧ s.closed = false then
      .ok (wake { s with fin := true })
    else
      .error .blocked
  | .reset =>
    if s.closed = false then .ok (wake { s with fin := true, err := true, tcpClose := true })
    else .error .blocked
  | .fault =>
    if s.closed = false then .ok (wake { s with err := true }) else .error .blocked
  | .add =>
    if s.registered = false ∧ s.closed = false then
      .ok { s with registered := true, ready := s.pollable }
    else
      .error .blocked
  | .epollWait =>
    if s.loop = .polling ∧ s.ready then
      -- `EPOLLERR` comes first; what is not to be reported any more is passed over
      .ok { s with
        ready := false
        loop := if s.err then .error else if s.pollable then .input else .polling }
    else
      .error .blocked
  | .handle =>
    match s.loop with
    | .error =>
      if s.tcpClose then .ok { s with reuseable := false, loop := .draining }
      else .ok { s with loop := .polling }
    | .input =>
      if s.closed then .ok { s with loop := .polling } else .ok { s with loop := .reading }
    | _ => .error .blocked
  | .read k =>
    if (s.loop = .reading ∨ s.loop = .draining) ∧ s.closed = false ∧
        k ≤ s.arrived ∧ k ≤ 8192 then do
      let d ← s.dir.exec (.deliver k)
      .ok { s with dir := d, arrived := s.arrived - k }
    else
      .error .blocked
  | .readEof =>
    if s.arrived = 0 ∧ s.fin ∧ s.closed = false ∧ (s.loop = .reading ∨ s.loop = .draining) then
      .ok s.drop
    else
      .error .blocked
  | .readAgain =>
    if s.arrived = 0 ∧ s.fin = false ∧ s.err = false ∧ s.closed = false then s.leave
    else .error .blocked
  | .readError =>
    -- an error of the socket is returned once; a closed descriptor is none
    if s.arrived = 0 ∧ s.err ∨ s.closed then leave { s with err := false } else .error .blocked
  | .interrupt =>
    match s.loop with
    | .reading => .ok s
    | .draining => .ok s.drop
    | _ => .error .blocked
  | .close => .ok { s with registered := false, ready := false, closed := true }

def step (s : Reading) (a : ReadAct) : Option Reading := (s.exec a).toOption

/-! ## What a step can do -/

inductive Does (s : Reading) : ReadAct → Reading → Prop where
  | dir {a : DirAct} {d : Direction} (ha : a.isRead = false) (hd : s.dir.exec a = .ok d) :
    Does s (.dir a) { s with dir := d }
  | arrive {k : Nat} (hpos : 0 < k) (hle : s.arrived + k ≤ s.dir.wire.length)
    (hfin : s.fin = false) (hclosed : s.closed = false) :
    Does s (.arrive k) (wake { s with arrived := s.arrived + k })
  | fin (hall : s.arrived = s.dir.wire.length) (hclosed : s.closed = false) :
    Does s .fin (wake { s with fin := true })
  | reset (hclosed : s.closed = false) :
    Does s .reset (wake { s with fin := true, err := true, tcpClose := true })
  | fault (hclosed : s.closed = false) : Does s .fault (wake { s with err := true })
  | add (hnot : s.registered = false) (hclosed : s.closed = false) :
    Does s .add { s with registered := true, ready := s.pollable }
  | error (hloop : s.loop = .polling) (hready : s.ready = true) (herr : s.err = true) :
    Does s .epollWait { s with ready := false, loop := .error }
  | input (hloop : s.loop = .polling) (hready : s.ready = true) (herr : s.err = false)
    (hpoll : s.pollable = true) : Does s .epollWait { s with ready := false, loop := .input }
  | pass (hloop : s.loop = .polling) (hready : s.ready = true) (hpoll : s.pollable = false) :
    Does s .epollWait { s with ready := false, loop := .polling }
  | drain (hloop : s.loop = .error) (htcp : s.tcpClose = true) :
    Does s .handle { s with reuseable := false, loop := .draining }
  | skip (hloop : s.loop = .error) (htcp : s.tcpClose = false) :
    Does s .handle { s with loop := .polling }
  | late (hloop : s.loop = .input) (hclosed : s.closed = true) :
    Does s .handle { s with loop := .polling }
  | enter (hloop : s.loop = .input) (hclosed : s.closed = false) :
    Does s .handle { s with loop := .reading }
  | read {k : Nat} {d : Direction} (hloop : s.loop = .reading ∨ s.loop = .draining)
    (hclosed : s.closed = false) (hle : k ≤ s.arrived) (hd : s.dir.exec (.deliver k) = .ok d) :
    Does s (.read k) { s with dir := d, arrived := s.arrived - k }
  | eof (hnone : s.arrived = 0) (hfin : s.fin = true) (hclosed : s.closed = false)
    (hloop : s.loop = .reading ∨ s.loop = .draining) : Does s .readEof s.drop
  | again (hloop : s.loop = .reading) (hnone : s.arrived = 0) (hfin : s.fin = false)
    (herr : s.err = false) : Does s .readAgain { s with loop := .polling }
  | empty (hloop : s.loop = .draining) (hnone : s.arrived = 0) : Does s .readAgain s.drop
  | gone (hloop : s.loop = .reading) (hbad : s.arrived = 0 ∧ s.err = true ∨ s.closed = true) :
    Does s .readError { s with err := false, loop := .polling }
  | lost (hloop : s.loop = .draining) (hbad : s.arrived = 0 ∧ s.err = true ∨ s.closed = true) :
    Does s .readError { s.drop with err := false }
  | retry (hloop : s.loop = .reading) : Does s .interrupt s
  | stop (hloop : s.loop = .draining) : Does s .interrupt s.drop
  | close : Does s .close { s with registered := false, ready := false, closed := true }

variable {s s' : Reading} {d d₀ : Direction}

theorem leave_ok (h : s.leave = .ok s') : (s.loop = .reading ∧ s' = { s with loop := .polling }) ∨
    (s.loop = .draining ∧ s' = s.drop) := by
  unfold leave at h
  split at h
  · next hloop => exact .inl ⟨hloop, (Except.ok.inj h).symm⟩
  · next hloop => exact .inr ⟨hloop, (Except.ok.inj h).symm⟩
  · cases h

theorem does_of_step {a : ReadAct} (hstep : s.step a = some s') : Does s a s' := by
  have h : s.exec a = .ok s' := Exec.toOption_eq_some.mp hstep
  cases a with
  | dir a =>
    simp only [exec] at h
    split at h
    · next ha =>
      obtain ⟨d, hd, h⟩ := Exec.bind_eq_ok.mp h
      obtain rfl := Except.ok.inj h
      exact .dir ha hd
    · cases h
  | arrive k =>
    simp only [exec] at h
    split at h
    · next hk =>
      obtain rfl := Except.ok.inj h
      exact .arrive hk.1 hk.2.1 hk.2.2.1 hk.2.2.2
    · cases h
  | fin =>
    simp only [exec] at h
    split at h
    · next hf =>
      obtain rfl := Except.ok.inj h
      exact .fin hf.1 hf.2.2
    · cases h
  | reset =>
    simp only [exec] at h
    split at h
    · next hclosed =>
      obtain rfl := Except.ok.inj h
      exact .reset hclosed
    · cases h
  | fault =>
    simp only [exec] at h
    split at h
    · next hclosed =>
      obtain rfl := Except.ok.inj h
      exact .fault hclosed
    · cases h
  | add =>
    simp only [exec] at h
    split at h
    · next ha =>
      obtain rfl := Except.ok.inj h
      exact .add ha.1 ha.2
    · cases h
  | epollWait =>
    simp only [exec] at h
    split at h
    · next hw =>
      obtain rfl := Except.ok.inj h
      cases herr : s.err with
      | true => simpa [herr] using Does.error hw.1 hw.2 herr
      | false =>
        cases hpoll : s.pollable with
        | true => simpa [herr, hpoll] using Does.input hw.1 hw.2 herr hpoll
        | false => simpa [herr, hpoll] using Does.pass hw.1 hw.2 hpoll
    · cases h
  | handle =>
    simp only [exec] at h
    split at h
    · next hloop =>
      split at h
      · next htcp =>
        obtain rfl := Except.ok.inj h
        exact .drain hloop htcp
      · next htcp =>
        obtain rfl := Except.ok.inj h
        exact .skip hloop (Bool.eq_false_of_not_eq_true htcp)
    · next hloop =>
      split at h
      · next hclosed =>
        obtain rfl := Except.ok.inj h
        exact .late hloop hclosed
      · next hclosed =>
        obtain rfl := Except.ok.inj h
        exact .enter hloop (Bool.eq_false_of_not_eq_true hclosed)
    · cases h
  | read k =>
    simp only [exec] at h
    split at h
    · next hr =>
      obtain ⟨d, hd, h⟩ := Exec.bind_eq_ok.mp h
      obtain rfl := Except.ok.inj h
      exact .read hr.1 hr.2.1 hr.2.2.1 hd
    · cases h
  | readEof =>
    simp only [exec] at h
    split at h
    · next hr =>
      obtain rfl := Except.ok.inj h
      exact .eof hr.1 hr.2.1 hr.2.2.1 hr.2.2.2
    · cases h
  | readAgain =>
    simp only [exec] at h
    split at h
    · next hr =>
      rcases leave_ok h with ⟨hloop, rfl⟩ | ⟨hloop, rfl⟩
      · exact .again hloop hr.1 hr.2.1 hr.2.2.1
      · exact .empty hloop hr.1
    · cases h
  | interrupt =>
    simp only [exec] at h
    split at h
    · next hloop =>
      obtain rfl := Except.ok.inj h
      exact .retry hloop
    · next hloop =>
      obtain rfl := Except.ok.inj h
      exact .stop hloop
    · cases h
  | readError =>
    simp only [exec] at h
    split at h
    · next hbad =>
      rcases leave_ok h with ⟨hloop, rfl⟩ | ⟨hloop, rfl⟩
      · exact .gone hloop hbad
      · exact .lost hloop hbad
    · cases h
  | close =>
    obtain rfl := Except.ok.inj h
    exact .close

structure Sound (s : Reading) : Prop where
  apart : s.registered = false → s.closed = false → s.loop = .polling
  closed : s.closed = true → s.registered = false
  dropped : s.dropped = true → s.closed = true
  ready : s.ready = true → s.registered = true
  /-- an error that has come after the report is reported -/
  err : s.registered = true → s.loop = .input ∨ s.loop = .reading → s.err = true → s.ready = true
  tcpClose : s.tcpClose = true → s.fin = true
  draining : s.loop = .draining → s.fin = true
  arrived : s.arrived ≤ s.dir.wire.length

/-- Where the epoll thread does not look at the socket, nothing is in it; and nothing was in it when
the thread has closed it. -/
def Settled (s : Reading) : Prop :=
  (s.loop = .polling → s.ready = false → s.registered = true → s.arrived = 0 ∧ s.fin = false) ∧
    (s.dropped = true → s.arrived = 0)

/-- `handle_error` passes over a socket only if it is closed or empty, or is reported again; and it
is not interrupted before it has read everything. -/
def Handled (s : Reading) : ReadAct → Prop
  | .handle => s.loop = .error → s.tcpClose = false → s.registered = true →
      s.ready = true ∨ (s.arrived = 0 ∧ s.fin = false)
  | .interrupt => s.loop = .draining → s.closed = true ∨ s.arrived = 0
  | _ => True

theorem sound_start (d : Direction) : Sound { dir := d } :=
  ⟨fun _ _ => rfl, fun h => (nomatch h), fun h => (nomatch h), fun h => (nomatch h),
    fun h => (nomatch h), fun h => (nomatch h), fun h => (nomatch h), Nat.zero_le _⟩

theorem settled_start (d : Direction) : Settled { dir := d } :=
  ⟨fun _ _ h => (nomatch h), fun h => (nomatch h)⟩

/-- Only `flush` and `deliver` touch what is on the way. -/
theorem length_wire_of_exec {a : DirAct} (ha : a.isRead = false) (h : d.exec a = .ok d₀) :
    d.wire.length ≤ d₀.wire.length := by
  cases a with
  | deliver k => cases ha
  | flush =>
    obtain ⟨⟨data, r⟩, -, h⟩ := Exec.bind_eq_ok.mp h
    obtain rfl := Except.ok.inj h
    simp
  | send | sendStart | sendStop | drain | recvStart | recvStop | take | store | recv =>
    obtain ⟨r, -, h⟩ := Exec.bind_eq_ok.mp h
    obtain rfl := Except.ok.inj h
    exact Nat.le_refl _

theorem length_wire_of_deliver {k : Nat} (h : d.exec (.deliver k) = .ok d₀) :
    d₀.wire = d.wire.drop k := by
  rw [Direction.exec] at h
  split at h
  · obtain ⟨u, -, h⟩ := Exec.bind_eq_ok.mp h
    obtain ⟨r, -, h⟩ := Exec.bind_eq_ok.mp h
    obtain rfl := Except.ok.inj h
    rfl
  · cases h

theorem Sound.drop (h : Sound s) (err : Bool) : Sound { s.drop with err } :=
  ⟨fun _ hc => (nomatch hc), fun _ => rfl, fun _ => rfl, fun hr => (nomatch hr),
    fun hr => (nomatch hr), h.tcpClose, fun hl => (nomatch hl), h.arrived⟩

/-- The kernel has something for the socket. -/
theorem Sound.wake (h : Sound s) {arrived : Nat} {fin err tcpClose : Bool}
    (harrived : arrived ≤ s.dir.wire.length) (hclosed : s.closed = false)
    (hfin : s.fin = true → fin = true) (htcp : tcpClose = true → fin = true) :
    Sound (wake { s with arrived, fin, err, tcpClose }) := by
  refine ⟨h.apart, fun hc => absurd (hclosed.symm.trans hc) (by decide), h.dropped, ?_, ?_, htcp,
    fun hl => hfin (h.draining hl), harrived⟩
  · intro hready
    rcases Bool.or_eq_true_iff.mp hready with hr | hr
    · exact h.ready hr
    · exact hr
  · intro hreg _ _
    exact Bool.or_eq_true_iff.mpr (.inr hreg)

theorem sound_step (h : Sound s) {a : ReadAct} (hstep : s.step a = some s') : Sound s' := by
  cases does_of_step hstep with
  | dir ha hd =>
    exact ⟨h.apart, h.closed, h.dropped, h.ready, h.err, h.tcpClose, h.draining,
      h.arrived.trans (length_wire_of_exec ha hd)⟩
  | arrive hpos hle hfin hclosed => exact h.wake hle hclosed id h.tcpClose
  | fin hall hclosed => exact h.wake h.arrived hclosed (fun _ => rfl) fun _ => rfl
  | reset hclosed => exact h.wake h.arrived hclosed (fun _ => rfl) fun _ => rfl
  | fault hclosed => exact h.wake h.arrived hclosed id h.tcpClose
  | add hnot hclosed =>
    have hloop := h.apart hnot hclosed
    refine ⟨fun hr => (nomatch hr), fun hc => absurd (hclosed.symm.trans hc) (by decide),
      h.dropped, fun _ => rfl, ?_, h.tcpClose, h.draining, h.arrived⟩
    intro _ hl _
    simp [hloop] at hl
  | error hloop hready herr =>
    have hreg := h.ready hready
    exact ⟨fun hr => absurd (hreg.symm.trans hr) (by decide), h.closed, h.dropped,
      fun hr => (nomatch hr), fun _ hl => by simp at hl, h.tcpClose, fun hl => (nomatch hl),
      h.arrived⟩
  | input hloop hready herr hpoll =>
    have hreg := h.ready hready
    refine ⟨fun hr => absurd (hreg.symm.trans hr) (by decide), h.closed, h.dropped,
      fun hr => (nomatch hr), fun _ _ he => ?_, h.tcpClose, fun hl => (nomatch hl), h.arrived⟩
    exact absurd (herr.symm.trans he) (by decide)
  | pass hloop hready hpoll =>
    exact ⟨fun _ _ => rfl, h.closed, h.dropped, fun hr => (nomatch hr), fun _ hl => by simp at hl,
      h.tcpClose, fun hl => (nomatch hl), h.arrived⟩
  | drain hloop htcp =>
    refine ⟨fun hr hc => ?_, h.closed, h.dropped, h.ready, fun _ hl => by simp at hl, h.tcpClose,
      fun _ => h.tcpClose htcp, h.arrived⟩
    exact absurd (hloop.symm.trans (h.apart hr hc)) (by decide)
  | skip hloop | late hloop | again hloop =>
    exact ⟨fun _ _ => rfl, h.closed, h.dropped, h.ready, fun _ hl => by simp at hl, h.tcpClose,
      fun hl => (nomatch hl), h.arrived⟩
  | gone hloop hbad =>
    exact ⟨fun _ _ => rfl, h.closed, h.dropped, h.ready, fun _ hl => by simp at hl, h.tcpClose,
      fun hl => (nomatch hl), h.arrived⟩
  | enter hloop hclosed =>
    refine ⟨fun hr hc => ?_, h.closed, h.dropped, h.ready, fun hr _ => h.err hr (.inl hloop),
      h.tcpClose, fun hl => (nomatch hl), h.arrived⟩
    exact absurd (hloop.symm.trans (h.apart hr hc)) (by decide)
  | read hloop hclosed hle hd =>
    refine ⟨h.apart, h.closed, h.dropped, h.ready, h.err, h.tcpClose, h.draining, ?_⟩
    have harrived := h.arrived
    simp only [length_wire_of_deliver hd, List.length_drop]
    omega
  | eof | empty | stop => exact h.drop s.err
  | lost => exact h.drop false
  | retry => exact h
  | close =>
    exact ⟨fun _ hc => (nomatch hc), fun _ => rfl, fun _ => rfl, fun hr => (nomatch hr),
      fun hr => (nomatch hr), h.tcpClose, h.draining, h.arrived⟩

/-! ## Nothing is left in the socket -/

theorem nothing_of_not_pollable (h : s.pollable = false) : s.arrived = 0 ∧ s.fin = false := by
  simp only [pollable, Bool.or_eq_false_iff, decide_eq_false_iff_not] at h
  exact ⟨Nat.eq_zero_of_not_pos h.1.1, h.1.2⟩

/-- The thread looks at the socket, or will. -/
theorem settled_of_busy (hbusy : s.loop = .polling → s.registered = true → s.ready = true)
    (hdropped : s.dropped = true → s.arrived = 0) : Settled s := by
  refine ⟨fun hloop hready hreg => ?_, hdropped⟩
  exact absurd ((hbusy hloop hreg).symm.trans hready) (by decide)

theorem settled_wake (hdropped : s.dropped = true → s.arrived = 0) : Settled s.wake :=
  settled_of_busy (fun _ hreg => Bool.or_eq_true_iff.mpr (.inr hreg)) hdropped

theorem settled_drop (h : Settled s) (err : Bool) (hnone : s.closed = true ∨ s.arrived = 0) :
    Settled { s.drop with err } := by
  refine ⟨fun _ _ hreg => (nomatch hreg), fun hdropped => ?_⟩
  rcases hnone with hclosed | hnone
  · refine h.2 ?_
    simpa [Reading.drop, hclosed] using hdropped
  · exact hnone

/-- **A step leaves nothing behind exactly if it is handled.** -/
theorem settled_step (hs : Sound s) (h : Settled s) {a : ReadAct} (hstep : s.step a = some s') :
    Settled s' ↔ s.Handled a := by
  have hnot : s.closed = false → s.dropped = true → s.arrived = 0 :=
    fun hclosed hdropped => absurd (hclosed.symm.trans (hs.dropped hdropped)) (by decide)
  cases does_of_step hstep with
  | dir ha hd => exact iff_of_true h trivial
  | arrive hpos hle hfin hclosed =>
    refine iff_of_true (settled_wake fun hdropped => ?_) trivial
    exact absurd (hclosed.symm.trans (hs.dropped hdropped)) (by decide)
  | fin hall hclosed => exact iff_of_true (settled_wake (hnot hclosed)) trivial
  | reset hclosed => exact iff_of_true (settled_wake (hnot hclosed)) trivial
  | fault hclosed => exact iff_of_true (settled_wake (hnot hclosed)) trivial
  | add hunreg hclosed =>
    -- what is in the socket already is reported
    exact iff_of_true ⟨fun _ hready _ => nothing_of_not_pollable hready, h.2⟩ trivial
  | error | input => exact iff_of_true ⟨fun hl => (nomatch hl), h.2⟩ trivial
  | pass hloop hready hpoll =>
    exact iff_of_true ⟨fun _ _ _ => nothing_of_not_pollable hpoll, h.2⟩ trivial
  | drain hloop htcp =>
    refine iff_of_true ⟨fun hl => (nomatch hl), h.2⟩ fun _ hopen => ?_
    exact absurd (htcp.symm.trans hopen) (by decide)
  | skip hloop htcp =>
    constructor
    · intro hset _ _ hreg
      by_cases hready : s.ready = true
      · exact .inl hready
      · exact .inr (hset.1 rfl (Bool.eq_false_of_not_eq_true hready) hreg)
    · intro hhandled
      refine ⟨fun _ hready hreg => (hhandled hloop htcp hreg).resolve_left fun hr => ?_, h.2⟩
      exact absurd (hr.symm.trans hready) (by decide)
  | late hloop hclosed =>
    refine iff_of_true ⟨fun _ _ hreg => ?_, h.2⟩ fun hl => absurd (hloop.symm.trans hl) (by decide)
    exact absurd (hreg.symm.trans (hs.closed hclosed)) (by decide)
  | enter hloop hclosed =>
    exact iff_of_true ⟨fun hl => (nomatch hl), h.2⟩
      fun hl => absurd (hloop.symm.trans hl) (by decide)
  | read hloop hclosed hle hd =>
    refine iff_of_true ⟨fun hl => ?_, fun hdropped => ?_⟩ trivial
    · rcases hloop with hloop | hloop
      · exact absurd (hloop.symm.trans hl) (by decide)
      · exact absurd (hloop.symm.trans hl) (by decide)
    · exact absurd (hclosed.symm.trans (hs.dropped hdropped)) (by decide)
  | eof hnone => exact iff_of_true (settled_drop h s.err (.inr hnone)) trivial
  | empty hloop hnone => exact iff_of_true (settled_drop h s.err (.inr hnone)) trivial
  | again hloop hnone hfin => exact iff_of_true ⟨fun _ _ _ => ⟨hnone, hfin⟩, h.2⟩ trivial
  | gone hloop hbad =>
    refine iff_of_true ⟨fun _ hready hreg => ?_, h.2⟩ trivial
    rcases hbad with ⟨-, herr⟩ | hclosed
    · -- an error that comes while the socket is read is reported after it
      exact absurd ((hs.err hreg (.inr hloop) herr).symm.trans hready) (by decide)
    · exact absurd (hreg.symm.trans (hs.closed hclosed)) (by decide)
  | lost hloop hbad =>
    refine iff_of_true (settled_drop h false ?_) trivial
    exact hbad.elim (fun hb => .inr hb.1) .inl
  | retry hloop => exact iff_of_true h fun hl => absurd (hloop.symm.trans hl) (by decide)
  | stop hloop =>
    constructor
    · intro hset _
      by_cases hclosed : s.closed = true
      · exact .inl hclosed
      · refine .inr (hset.2 ?_)
        simp [Reading.drop, hclosed]
    · intro hhandled
      exact settled_drop h s.err (hhandled hloop)
  | close => exact iff_of_true ⟨fun _ _ hreg => (nomatch hreg), h.2⟩ trivial

/--
**When nothing is left in the socket.**

In every state of a run from a new connection nothing is in the socket, unless the epoll thread
looks at it or will, if and only if `handle_error` never passes over a socket that is open and has
something, unless that is reported again, and is not interrupted before it has read everything.
-/
theorem settled_iff {acts : List ReadAct} (hrun : run step { dir := d } acts = some s) :
    AllSteps step Handled { dir := d } acts ↔
      ∀ pre post t, acts = pre ++ post → run step { dir := d } pre = some t → Settled t :=
  allSteps_iff_states (B := fun _ _ => True) (fun _ _ _ h hstep => sound_step h hstep)
    (fun _ _ _ hs _ h hstep => settled_step hs h hstep) (sound_start d) (settled_start d)
    (allSteps_of_forall (Q := fun _ => True) (fun _ _ => trivial) _) hrun

instance (s : Reading) : DecidablePred s.Handled
  | .handle => inferInstanceAs (Decidable (_ → _ → _ → _))
  | .interrupt => inferInstanceAs (Decidable (_ → _))
  | .dir _ | .arrive _ | .fin | .reset | .fault | .add | .epollWait | .read _ | .readEof
  | .readAgain | .readError | .close => isTrue trivial

/-- Bytes arrive before the socket is in the epoll set and while it is read, and then the connection
is reset. -/
theorem settled_iff_small : ∃ (d : Direction) (acts : List ReadAct) (s : Reading),
    run step { dir := d } acts = some s ∧ s.dropped = true ∧ s.dir.wire = [] ∧
      ∀ pre post t, acts = pre ++ post → run step { dir := d } pre = some t → Settled t := by
  obtain ⟨d, acts, -, hacts, hview⟩ : ∃ d acts, Direction.new = .ok d ∧
      AllSteps step Handled { dir := d } acts ∧ (run step { dir := d } acts).any (fun s =>
        s.dropped && decide (s.dir.wire = [])) = true :=
    ⟨_, [.dir (.sendStart [115]), .dir (.send [97] [1, 2]), .dir .drain, .dir .flush, .arrive 3,
      .add, .epollWait, .handle, .read 3, .arrive 5, .read 2, .interrupt, .read 3, .readAgain,
      .arrive 4, .epollWait, .reset, .handle, .read 4, .readError, .epollWait, .handle, .readEof],
      rfl, by decide, by decide⟩
  obtain ⟨s, hrun, hs⟩ := (Option.any_eq_true _ _).mp hview
  simp only [Bool.and_eq_true, decide_eq_true_eq] at hs
  exact ⟨d, acts, s, hrun, hs.1, hs.2, (settled_iff hrun).mp hacts⟩

end Reading

end Rosetta

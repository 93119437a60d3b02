import Rosetta.Connection.Halves
import Rosetta.Lib.Run

/-!
# Writing to the socket

`writen` calls `writeImpl` until everything is written, or until a call fails. `Line` runs
`loop_send` against any outcomes of these calls.

* a call that fails with `EAGAIN` or `EWOULDBLOCK` is made again
* any other failure ends `writen`, also `EINTR`, and what it had left is dropped by `loop_send`

So there is no hole in the stream as long as the socket accepts nothing after `writen` has ended
early (`accepted_of_quiet`).
-/

namespace Rosetta

open Lib CycleBuffer

inductive Errno where
  | EINTR | EAGAIN | EWOULDBLOCK | other
  deriving DecidableEq, Repr

/-- What a call of `writeImpl` returns, and `errno` after it. -/
structure Outcome where
  ret : Int
  errno : Errno := .other

/-- What `writen` does after a call of `writeImpl`. -/
inductive Turn where
  /-- with these bytes from `ptr` on it tests `nleft` again -/
  | again (left : Bytes)
  | done (ret : Int)

def Errno.isAgain (e : Errno) : Bool := e = .EAGAIN ∨ e = .EWOULDBLOCK

/-- The body of the loop of `writen(connfd, vptr, n)`, when the bytes from `ptr` on are `left`. -/
def writenTurn (n : Nat) (left : Bytes) (o : Outcome) : Turn :=
  if o.ret < 0 then
    if o.errno = .EINTR then
      -- `nwritten = 0` has no effect: the branch goes on to the log line and the return
      .done (-1)
    else if o.errno.isAgain then .again left
    else .done (-1)
  else if o.ret = 0 then
    if o.errno.isAgain then .again left
    else .done (n - left.length)
  else
    .again (left.drop o.ret.toNat)

/-- The sending half in front of a socket. -/
structure Line where
  snd : SendHalf
  /-- the local `n` of `loop_send` -/
  n : Nat := 0
  accepted : Bytes := []
  /-- the bytes of all frames put into `send_buffer_` -/
  queued : Bytes := []
  /-- `writen` has returned before everything was written -/
  gaveUp : Bool := false

inductive LineAct where
  | send (id data : Bytes)
  | sendStart (task : Bytes)
  | sendStop
  | drain
  /-- one call of `writeImpl` -/
  | turn (o : Outcome)
  /-- `nleft` is `0` -/
  | finish

namespace Line

def new : Exec Line := do
  let s ← SendHalf.new
  .ok { snd := s }

def exec (l : Line) : LineAct → Exec Line
  | .send id data => do
    let s ← l.snd.send id data
    .ok { l with snd := s, queued := l.queued ++ frameBytes id data }
  | .sendStart task => do
    let loop ← l.snd.loop.start task
    .ok { l with snd := { l.snd with loop := loop } }
  | .sendStop => do
    let loop ← l.snd.loop.stop
    .ok { l with snd := { l.snd with loop := loop } }
  | .drain => do
    let s ← l.snd.loopSendTake
    .ok { l with snd := s, n := l.snd.sendBuffer.size }
  | .turn o =>
    match l.snd.loop with
    | .busy task left =>
      -- `write` does not accept more than it was given
      if left ≠ [] ∧ o.ret ≤ left.length then
        match writenTurn l.n left o with
        | .again left' =>
          .ok { l with
            snd := { l.snd with loop := .busy task left' }
            accepted := l.accepted ++ left.take o.ret.toNat }
        | .done _ => .ok { l with snd := { l.snd with loop := .wait task }, gaveUp := true }
      else
        .error .blocked
    | _ => .error .blocked
  | .finish =>
    match l.snd.loop with
    | .busy task [] => .ok { l with snd := { l.snd with loop := .wait task } }
    | _ => .error .blocked

def step (l : Line) (a : LineAct) : Option Line := (l.exec a).toOption

/-- The socket accepts nothing after `writen` has given up. -/
def Quiet (l : Line) : LineAct → Prop
  | .turn o => l.gaveUp = true → o.ret ≤ 0
  | _ => True

instance (l : Line) : DecidablePred (Quiet l)
  | .turn _ => inferInstanceAs (Decidable (_ → _))
  | .send _ _ | .sendStart _ | .sendStop | .drain | .finish => isTrue trivial

/-! ## What is accepted, what is left -/

/-- Taken by `loop_send` and not yet written, then the rest of `send_buffer_`. -/
def left (l : Line) : Bytes := l.snd.loop.held.flatten ++ l.snd.sendBuffer.contents

structure NoHole (l : Line) : Prop where
  inv : Inv l.snd.sendBuffer
  accepted_queued : l.accepted <+: l.queued
  whole : l.gaveUp = false → l.accepted ++ l.left = l.queued

variable {l l' : Line}

theorem noHole_new (h : Line.new = .ok l) : NoHole l := by
  obtain ⟨s, hs, h⟩ := Exec.bind_eq_ok.mp h
  obtain rfl := Except.ok.inj h
  obtain ⟨hi, hc, hloop⟩ := SendHalf.new_ok hs
  refine ⟨hi, List.prefix_refl _, ?_⟩
  intro _
  simp only [left, hloop, hc]
  rfl

theorem NoHole.send (h : NoHole l) {id data : Bytes} (hl : l.exec (.send id data) = .ok l') :
    NoHole l' := by
  obtain ⟨s, hs, hl⟩ := Exec.bind_eq_ok.mp hl
  obtain rfl := Except.ok.inj hl
  obtain ⟨-, hinv, hc, hloop⟩ := SendHalf.send_ok h.inv hs
  refine ⟨hinv, h.accepted_queued.trans (List.prefix_append _ _), ?_⟩
  intro hgave
  show l.accepted ++ (s.loop.held.flatten ++ s.sendBuffer.contents) = l.queued ++ frameBytes id data
  rw [hloop, hc, ← h.whole hgave]
  simp only [left, List.append_assoc]

/-- `loop_send` moves on without taking or dropping bytes. -/
theorem NoHole.loop (h : NoHole l) {loop : Loop Bytes}
    (hheld : loop.held.flatten = l.snd.loop.held.flatten) :
    NoHole { l with snd := { l.snd with loop := loop } } := by
  refine ⟨h.inv, h.accepted_queued, ?_⟩
  intro hgave
  rw [← h.whole hgave]
  simp only [left, hheld]

theorem NoHole.drain (h : NoHole l) (hl : l.exec .drain = .ok l') : NoHole l' := by
  obtain ⟨s, hs, hl⟩ := Exec.bind_eq_ok.mp hl
  obtain rfl := Except.ok.inj hl
  obtain ⟨task, hwait, hbusy, hinv, hc⟩ := SendHalf.loopSendTake_ok h.inv hs
  refine ⟨hinv, h.accepted_queued, ?_⟩
  intro hgave
  rw [← h.whole hgave]
  simp [left, hwait, hbusy, hc, Loop.held]

/-- After a call that does not end `writen`, the bytes are accepted or still left. -/
theorem take_append_of_again {n : Nat} {left left' : Bytes} {o : Outcome}
    (h : writenTurn n left o = .again left') : left.take o.ret.toNat ++ left' = left := by
  unfold writenTurn at h
  split at h
  · next hneg =>
    have hzero : o.ret.toNat = 0 := by omega
    split at h
    · cases h
    · split at h
      · obtain rfl := Turn.again.inj h
        rw [hzero, List.take_zero, List.nil_append]
      · cases h
  · split at h
    · next hz =>
      split at h
      · obtain rfl := Turn.again.inj h
        rw [hz]
        rfl
      · cases h
    · obtain rfl := Turn.again.inj h
      exact List.take_append_drop _ _

theorem NoHole.turn (h : NoHole l) {o : Outcome} (hq : l.gaveUp = true → o.ret ≤ 0)
    (hl : l.exec (.turn o) = .ok l') : NoHole l' := by
  rw [exec] at hl
  split at hl
  · next task left hbusy =>
    split at hl
    · split at hl
      · next left' hagain =>
        obtain rfl := Except.ok.inj hl
        have hcut := take_append_of_again hagain
        have hwhole : l.gaveUp = false → l.accepted ++ left.take o.ret.toNat ++
            (left' ++ l.snd.sendBuffer.contents) = l.queued := by
          intro hgave
          rw [← h.whole hgave, Line.left, hbusy]
          simp only [Loop.held, List.flatten_cons, List.flatten_nil, List.append_nil]
          rw [← List.append_assoc, List.append_assoc l.accepted, hcut, List.append_assoc]
        refine ⟨h.inv, ?_, ?_⟩
        · cases hgave : l.gaveUp with
          | false => exact ⟨_, hwhole hgave⟩
          | true =>
            have hzero : o.ret.toNat = 0 := by
              have := hq hgave
              omega
            show l.accepted ++ left.take o.ret.toNat <+: l.queued
            rw [hzero, List.take_zero, List.append_nil]
            exact h.accepted_queued
        · intro hgave
          rw [← hwhole hgave, Line.left]
          simp [Loop.held]
      · obtain rfl := Except.ok.inj hl
        exact ⟨h.inv, h.accepted_queued, fun hgave => by cases hgave⟩
    · cases hl
  · cases hl

/-! ## Runs -/

theorem noHole_step (l : Line) (a : LineAct) (l' : Line) (h : NoHole l) (hq : Quiet l a)
    (hl : l.step a = some l') : NoHole l' := by
  have hl : l.exec a = .ok l' := Exec.toOption_eq_some.mp hl
  cases a with
  | send id data => exact h.send hl
  | sendStart task =>
    obtain ⟨loop, hloop, hl⟩ := Exec.bind_eq_ok.mp hl
    obtain rfl := Except.ok.inj hl
    obtain ⟨hidle, rfl⟩ := Loop.start_ok hloop
    exact h.loop (by rw [hidle]; rfl)
  | sendStop =>
    obtain ⟨loop, hloop, hl⟩ := Exec.bind_eq_ok.mp hl
    obtain rfl := Except.ok.inj hl
    obtain ⟨⟨t, hwait⟩, rfl⟩ := Loop.stop_ok hloop
    exact h.loop (by rw [hwait]; rfl)
  | drain => exact h.drain hl
  | turn o => exact h.turn hq hl
  | finish =>
    rw [exec] at hl
    split at hl
    · next task hbusy =>
      obtain rfl := Except.ok.inj hl
      exact h.loop (by rw [hbusy]; rfl)
    · cases hl

/--
**No hole, as long as the socket accepts nothing after `writen` has given up.**

What the socket has accepted is then the beginning of what was queued, after every run and for any
outcomes of the calls of `writeImpl`.
-/
theorem accepted_of_quiet {l₀ : Line} {acts : List LineAct} (hnew : Line.new = .ok l₀)
    (hquiet : AllSteps step Quiet l₀ acts) (hrun : run step l₀ acts = some l) :
    l.accepted <+: l.queued :=
  (run_invariant_of noHole_step (noHole_new hnew) hquiet hrun).accepted_queued

/-- Partial counts, `EAGAIN` and an early return, with a frame queued in between. -/
theorem accepted_of_quiet_small : ∃ l₀ acts l, Line.new = .ok l₀ ∧ AllSteps step Quiet l₀ acts ∧
    run step l₀ acts = some l ∧ l.gaveUp = true ∧ l.accepted.length = 13 ∧
    l.accepted <+: l.queued := by
  obtain ⟨acts, l₀, hnew, hquiet, hview⟩ : ∃ acts : List LineAct, ∃ l₀, Line.new = .ok l₀ ∧
      AllSteps step Quiet l₀ acts ∧
      (run step l₀ acts).map (fun l => (l.gaveUp, l.accepted.length)) = some (true, 13) :=
    ⟨[.send [97] [1, 2], .sendStart [116], .drain, .turn ⟨3, .other⟩, .send [98] [3],
      .turn ⟨-1, .EAGAIN⟩, .turn ⟨9, .other⟩, .finish, .drain, .turn ⟨1, .other⟩,
      .turn ⟨0, .other⟩], _, rfl, by decide, by decide⟩
  obtain ⟨l, hrun, hl⟩ := Option.map_eq_some_iff.mp hview
  obtain ⟨hgave, hlen⟩ := Prod.mk.inj hl
  exact ⟨l₀, acts, l, hnew, hquiet, hrun, hgave, hlen, accepted_of_quiet hnew hquiet hrun⟩

/-- A signal interrupts the call after three bytes of the first frame; the rest of this frame is
skipped and the second one is written. -/
theorem not_accepted_prefix : ∃ l₀ : Line, Line.new = .ok l₀ ∧ ∃ acts l,
    run step l₀ acts = some l ∧ ¬ l.accepted <+: l.queued ∧
      l.accepted = (frameBytes [97] [1, 2]).take 3 ++ frameBytes [98] [3] ∧
      l.queued = frameBytes [97] [1, 2] ++ frameBytes [98] [3] := by
  obtain ⟨l₀, hnew, acts, hview⟩ : ∃ l₀ : Line, Line.new = .ok l₀ ∧ ∃ acts : List LineAct,
      (run step l₀ acts).map (fun l => (l.accepted, l.queued))
        = some ((frameBytes [97] [1, 2]).take 3 ++ frameBytes [98] [3],
          frameBytes [97] [1, 2] ++ frameBytes [98] [3]) :=
    ⟨_, rfl, [.sendStart [116], .send [97] [1, 2], .drain, .turn ⟨3, .other⟩,
      .turn ⟨-1, .EINTR⟩, .send [98] [3], .drain, .turn ⟨11, .other⟩, .finish], by decide⟩
  obtain ⟨l, hrun, hl⟩ := Option.map_eq_some_iff.mp hview
  obtain ⟨haccepted, hqueued⟩ := Prod.mk.inj hl
  refine ⟨l₀, hnew, acts, l, hrun, ?_, haccepted, hqueued⟩
  rw [haccepted, hqueued]
  decide

end Line

end Rosetta

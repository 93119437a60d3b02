import Mathlib.Data.List.TakeWhile
import Rosetta.Connection.Basic

/-!
# The handshake of an SSL connection

The epoll thread calls `handshake` whenever there is something to read, and goes on to read when it
returns true. `ssl_` is made in the first call that can make it; only that call runs the handshake
of the library. It sets `state_` before the certificate of the peer is looked at, and later calls
look at `state_`.

* `SSLConnection` — what `handshake` reads and writes
* `SSLEvent` — what the library answers
* `verdicts` — what one handshake decides
* `answers_eq` — the calls say what it has decided
-/

namespace Rosetta

/-- What `SSL_do_handshake` comes to. -/
inductive HandshakeRet where
  /-- 1; then `SSL_get_verify_result` says whether the certificate is good -/
  | done (good : Bool)
  /-- `SSL_ERROR_WANT_READ` or `SSL_ERROR_WANT_WRITE` -/
  | want
  /-- another error -/
  | failed
  deriving DecidableEq, Repr

structure SSLConnection where
  state : ConnState := .invalid
  /-- `ssl_` is not null -/
  ssl : Bool := false
  deriving Repr

/-- Something can be read: whether `SSL_new` would work, what `SSL_do_handshake` would come to, again
and again, and what `SSL_is_init_finished` would say. -/
structure SSLEvent where
  sslNew : Bool
  rets : List HandshakeRet
  initFinished : Bool

namespace SSLConnection

/-- The loop of `handshake`; without another return of `SSL_do_handshake` it is not left. -/
def handshakeLoop (c : SSLConnection) : Int → List HandshakeRet → Option (Bool × SSLConnection)
  | _, [] => none
  | failRetries, ret :: rets =>
    match ret with
    | .done good => some (good, { c with state := .connected })
    | .want => handshakeLoop c failRetries rets
    | .failed =>
      if failRetries ≤ 0 then some (false, c) else handshakeLoop c (failRetries - 1) rets

def handshake (c : SSLConnection) (e : SSLEvent) : Option (Bool × SSLConnection) :=
  if c.state = .connected then some (true, c)
  else if c.ssl then some (e.initFinished, c)
  else if e.sslNew then handshakeLoop { c with ssl := true } 0 e.rets
  else some (false, c)

/-- What the calls of `handshake` return, one for each event. -/
def answers (c : SSLConnection) : List SSLEvent → Option (List Bool)
  | [] => some []
  | e :: events => do
    let (ok, c) ← c.handshake e
    let oks ← answers c events
    some (ok :: oks)

end SSLConnection

/-- No event is accepted before `ssl_` has been made. Then one handshake decides: the first event is
accepted when the certificate is good, and all later ones when the handshake has come to its end.
When it has not, the library is asked at each event whether it has. -/
def verdicts : List SSLEvent → Option (List Bool)
  | [] => some []
  | e :: events =>
    if e.sslNew then
      match e.rets.find? (· ≠ .want) with
      | some (.done good) => some (good :: events.map fun _ => true)
      | some _ => some (false :: events.map SSLEvent.initFinished)
      | none => none
    else
      (verdicts events).map (false :: ·)

namespace SSLConnection

variable {c : SSLConnection}

/-- The loop goes on as long as the library wants something, and ends at the first error. -/
theorem handshakeLoop_zero (rets : List HandshakeRet) : c.handshakeLoop 0 rets =
    match rets.find? (· ≠ .want) with
    | some (.done good) => some (good, { c with state := .connected })
    | some _ => some (false, c)
    | none => none := by
  induction rets with
  | nil => rfl
  | cons ret rets ih =>
    cases ret with
    | done good => rfl
    | want =>
      rw [List.find?_cons_of_neg (by simp)]
      exact ih
    | failed => rfl

theorem answers_connected (hstate : c.state = .connected) (events : List SSLEvent) :
    c.answers events = some (events.map fun _ => true) := by
  induction events with
  | nil => rfl
  | cons e events ih =>
    rw [answers, handshake, if_pos hstate]
    simp only [Option.bind_eq_bind, Option.bind_some, ih, List.map_cons]

/-- After a failure the handshake is not run again. -/
theorem answers_failed (hstate : c.state ≠ .connected) (hssl : c.ssl = true)
    (events : List SSLEvent) : c.answers events = some (events.map SSLEvent.initFinished) := by
  induction events with
  | nil => rfl
  | cons e events ih =>
    rw [answers, handshake, if_neg hstate, if_pos hssl]
    simp only [Option.bind_eq_bind, Option.bind_some, ih, List.map_cons]

/--
**One handshake decides.**

Whatever the library answers in the events of a connection: they are refused until `ssl_` is made;
the event in which it is made is accepted if and only if the handshake ends with a good
certificate; all later events are accepted if it has ended, also with a bad one; and if it has
failed, an event is accepted if and only if the library then says that it has ended.
-/
theorem answers_eq (events : List SSLEvent) :
    ({} : SSLConnection).answers events = verdicts events := by
  induction events with
  | nil => rfl
  | cons e events ih =>
    rw [answers, verdicts, handshake, if_neg (by decide), if_neg (by decide)]
    split
    · rw [handshakeLoop_zero]
      cases hret : e.rets.find? (· ≠ .want) with
      | none => rfl
      | some ret =>
        cases ret with
        | done good =>
          simp only [Option.bind_eq_bind, Option.bind_some]
          rw [answers_connected rfl]
          rfl
        | want => exact absurd (List.find?_some hret) (by decide)
        | failed =>
          simp only [Option.bind_eq_bind, Option.bind_some]
          rw [answers_failed (by decide) rfl]
          rfl
    · simp only [Option.bind_eq_bind, Option.bind_some, ih]
      cases verdicts events with
      | none => rfl
      | some oks => rfl

/-- If the library lets a bad certificate pass, its peer is refused once and then read. -/
example : ({} : SSLConnection).answers [⟨true, [.want, .done false], false⟩, ⟨true, [], false⟩]
    = some [false, true] := by decide

end SSLConnection

end Rosetta

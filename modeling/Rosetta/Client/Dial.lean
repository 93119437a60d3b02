import Rosetta.Pool.Basic

/-!
# The dial loop of a client

`TCPClient::connect` tries to dial some rounds long. A round is a chain of calls of the system, and
each of them may be its end.

* `Attempt` — what the calls of one round return
* `connectLoop` — the loop around `::connect`, which runs until its time is up
* `dialOnce` — a round: how it ends, and how often it closes its descriptor
-/

namespace Rosetta

/-- What `::connect` returns, with `errno`. -/
inductive ConnectRet where
  | ok
  /-- `EISCONN` -/
  | isConn
  | failed
  deriving DecidableEq, Repr

structure Attempt where
  /-- what `socket` returns -/
  socketFd : Int
  /-- the rounds of the loop around `::connect`, each with the time since its begin -/
  connects : List (ConnectRet × Int) := []
  /-- what `read` of the ack returns -/
  ackRet : Int := 1
  /-- the number of bytes of the id that `write` takes -/
  cidRet : Int
  /-- what `SSLConnection::handshake` returns -/
  handshakeRet : Bool := true
  deriving DecidableEq

/-- Where a round ends. -/
inductive DialExit where
  | noSocket | notConnected | noAck | noCid | noHandshake | connected
  deriving DecidableEq, Repr

/-- `NEVER_TIMEOUT`, in milliseconds. -/
def NEVER_TIMEOUT : Int := 1000 * 1000000

/-- `timeout`, when the loop begins. -/
def dialTimeout (timeout : Int) : Int := if timeout < 0 then NEVER_TIMEOUT else timeout

/-- The loop around `::connect`: has it connected? `none` if it goes on beyond what is given. -/
def connectLoop (timeout elapsed : Int) : List (ConnectRet × Int) → Option Bool
  | [] => if elapsed ≤ timeout ∧ 0 < timeout then none else some false
  | (ret, elapsed') :: rest =>
    if elapsed ≤ timeout ∧ 0 < timeout then
      match ret with
      | .ok | .isConn => some true
      | .failed => connectLoop timeout elapsed' rest
    else some false

structure DialRound where
  exit : DialExit
  /-- calls of `::close(fd_)` in the round -/
  closes : Nat
  deriving DecidableEq

/-- A round of the dial loop, of a client with this id. `Connection::handshake` is `true`. -/
def dialOnce (ssl : Bool) (timeout : Int) (cid : Bytes) (a : Attempt) : Option DialRound :=
  if a.socketFd < 0 then some ⟨.noSocket, 0⟩
  else
    match connectLoop (dialTimeout timeout) 0 a.connects with
    | none => none
    | some false => some ⟨.notConnected, 1⟩
    | some true =>
      if a.ackRet ≠ 1 then some ⟨.noAck, 1⟩
      else if a.cidRet ≠ 8 + cid.length then some ⟨.noCid, 1⟩
      else if ssl && !a.handshakeRet then some ⟨.noHandshake, 0⟩
      else some ⟨.connected, 0⟩

/-- The rounds that are made. -/
def dialRounds (connRetries : Int) : Nat := if connRetries ≤ 0 then 1 else connRetries.toNat

/-- `connected_ = true` comes before the handshake. -/
def DialExit.setsConnected : DialExit → Bool
  | .noHandshake | .connected => true
  | _ => false

/-- **A round that has not made a connection object has closed its descriptor**, once. -/
theorem closes_of_dialOnce {ssl : Bool} {timeout : Int} {cid : Bytes} {a : Attempt} {r : DialRound}
    (h : dialOnce ssl timeout cid a = some r) (hsocket : 0 ≤ a.socketFd) :
    r.closes = if r.exit.setsConnected then 0 else 1 := by
  unfold dialOnce at h
  rw [if_neg (by omega)] at h
  split at h
  · cases h
  · obtain rfl := Option.some.inj h
    rfl
  · split at h
    · obtain rfl := Option.some.inj h
      rfl
    · split at h
      · obtain rfl := Option.some.inj h
        rfl
      · split at h
        · obtain rfl := Option.some.inj h
          rfl
        · obtain rfl := Option.some.inj h
          rfl

end Rosetta

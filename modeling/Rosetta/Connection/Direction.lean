import Rosetta.Connection.Basic
import Rosetta.Lib.KeyedLog
import Rosetta.Lib.Run

/-!
# One direction of a connection

`Direction` puts the sending half at one end, the bytes on their way and the receiving half at the
other end together. `exec` has one action for each critical section, so a run is an interleaving of
all threads that work on the direction.

`sent` and `received` only take notes: what was passed to `send`, and what `recv` has returned.
-/

namespace Rosetta

open Lib CycleBuffer

structure Direction where
  snd : SendHalf
  /-- accepted by the socket here and not yet read from the one there -/
  wire : Bytes := []
  rcv : RecvHalf
  /-- id and data of each `send` -/
  sent : List (Bytes × Bytes) := []
  /-- id and bytes of each `recv` -/
  received : List (Bytes × Bytes) := []

inductive DirAct where
  | send (id data : Bytes)
  /-- `task` becomes the worker that runs `loop_send` -/
  | sendStart (task : Bytes)
  | sendStop
  /-- `loop_send` takes all of `send_buffer_` -/
  | drain
  /-- `loop_send` writes what it took -/
  | flush
  /-- the epoll thread reads `k` bytes from the socket into an array and puts them into `buffer_` -/
  | deliver (k : Nat)
  | recvStart (task : Bytes)
  | recvStop
  /-- `loop_recv` reads a frame -/
  | take
  /-- `loop_recv` puts its data into `mapbuffer_` -/
  | store
  | recv (call : RecvCall)

namespace Direction

def new : Exec Direction := do
  let s ← SendHalf.new
  let r ← RecvHalf.new
  .ok { snd := s, rcv := r }

def exec (d : Direction) : DirAct → Exec Direction
  | .send id data => do
    let s ← d.snd.send id data
    .ok { d with snd := s, sent := d.sent ++ [(id, data)] }
  | .sendStart task => do
    let l ← d.snd.loop.start task
    .ok { d with snd := { d.snd with loop := l } }
  | .sendStop => do
    let l ← d.snd.loop.stop
    .ok { d with snd := { d.snd with loop := l } }
  | .drain => do
    let s ← d.snd.loopSendTake
    .ok { d with snd := s }
  | .flush => do
    let (data, s) ← d.snd.loopSendWrite
    .ok { d with snd := s, wire := d.wire ++ data }
  | .deliver k =>
    if 0 < k ∧ k ≤ d.wire.length then do
      newChar k
      let r ← d.rcv.write (d.wire.take k)
      .ok { d with wire := d.wire.drop k, rcv := r }
    else
      .error .blocked
  | .recvStart task => do
    let l ← d.rcv.loop.start task
    .ok { d with rcv := { d.rcv with loop := l } }
  | .recvStop => do
    let l ← d.rcv.loop.stop
    .ok { d with rcv := { d.rcv with loop := l } }
  | .take => do
    let r ← d.rcv.loopRecvTake
    .ok { d with rcv := r }
  | .store => do
    let r ← d.rcv.loopRecvStore
    .ok { d with rcv := r }
  | .recv call => do
    let (_, data, r) ← d.rcv.recv call
    .ok { d with rcv := r, received := d.received ++ [(call.id, data)] }

def step (d : Direction) (a : DirAct) : Option Direction := (d.exec a).toOption

end Direction

/-- Steps that are not calls of `send` or `recv`. -/
def DirAct.isInternal : DirAct → Bool
  | .send _ _ | .recv _ => false
  | _ => true

/-- Steps that only move bytes: no frame is passed to `send`, read or stored. -/
def DirAct.moves : DirAct → Bool
  | .send _ _ | .take | .store | .recv _ => false
  | _ => true

/-- The frames that can be read back: an id of at most 254 bytes, and something in the frame. -/
def DirAct.Sendable : DirAct → Prop
  | .send id data => id.length ≤ 254 ∧ (id ≠ [] ∨ data ≠ [])
  | _ => True

instance : DecidablePred DirAct.Sendable
  | .send _ _ => inferInstanceAs (Decidable (_ ∧ _))
  | .sendStart _ | .sendStop | .drain | .flush | .deliver _ | .recvStart _ | .recvStop | .take
  | .store | .recv _ => isTrue trivial

end Rosetta

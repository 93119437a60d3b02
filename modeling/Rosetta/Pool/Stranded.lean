import Rosetta.Connection.Tasks
import Rosetta.Pool.Basic

/-!
# What a task leaves behind in `send_buffer_`

Only `close` writes what the loops have left, and a connection is closed by the last task of its
side of the node: the counter is shared by all connections of the side. So a connection whose tasks
have all stopped stays open while a task uses another one, and what is in its `send_buffer_` then
stays there (`not_sent`).

`sent_before_stop` says when nothing is there.
-/

namespace Rosetta

open Lib

/-- A `TCPClient`, or the `TCPServer` of a task, and the connections it was given. -/
structure Owner where
  side : Side
  task : Bytes
  given : List Nat := []

structure TaskNode where
  /-- the connections, by their number -/
  conns : Nat → Option Outgoing := fun _ => none
  /-- `connections_` of the two sides -/
  connections : Side → List Nat := fun _ => []
  taskCount : Side → Nat := fun _ => 0
  owners : Nat → Option Owner := fun _ => none

inductive TaskNodeAct where
  /-- a connection is dialed or accepted, and put into the map -/
  | open_ (side : Side) (c : Nat)
  /-- it is moved to `recycle_connections_` -/
  | retire (side : Side) (c : Nat)
  /-- `connect` or `TCPServer::start` counts the task -/
  | enter (k : Nat) (side : Side) (task : Bytes)
  /-- `connect` or `put_connection` calls `start` on a connection of the map -/
  | give (k c : Nat)
  /-- any other step of a connection -/
  | conn (c : Nat) (a : OutgoingAct)
  /-- `TCPClient::close` or `TCPServer::stop`, when all its calls of `Connection::stop` have
  returned; `unrecv` is `get_unrecv_size()` -/
  | leave (k unrecv : Nat)

def OutgoingAct.isStart : OutgoingAct → Bool
  | .start _ => true
  | _ => false

namespace TaskNode

def setConn (n : TaskNode) (c : Nat) (x : Outgoing) : TaskNode :=
  { n with conns := Function.update n.conns c (some x) }

def setOwner (n : TaskNode) (k : Nat) (w : Option Owner) : TaskNode :=
  { n with owners := Function.update n.owners k w }

/-- One step of a connection. -/
def connExec (n : TaskNode) (c : Nat) (a : OutgoingAct) : Exec TaskNode :=
  match n.conns c with
  | some x => do
    let x' ← x.exec a
    .ok (n.setConn c x')
  | none => .error .blocked

/-- `close` of one connection of the map. -/
def closeOne (n : TaskNode) (c : Nat) : Exec TaskNode :=
  match n.conns c with
  | some x => do
    let x' ← x.close
    .ok (n.setConn c x')
  | none => .ok n

/-- `Connection::stop` has returned for the task on each of the connections. -/
def Returned (n : TaskNode) (w : Owner) : Prop :=
  ∀ c ∈ w.given, ∀ x ∈ n.conns c, x.call w.task = .out

instance (n : TaskNode) (w : Owner) : Decidable (n.Returned w) :=
  inferInstanceAs (Decidable (∀ c ∈ w.given, ∀ x ∈ n.conns c, x.call w.task = .out))

def exec (n : TaskNode) : TaskNodeAct → Exec TaskNode
  | .open_ side c =>
    if (n.conns c).isNone then do
      let x ← Outgoing.new
      .ok { n.setConn c x with
        connections := Function.update n.connections side (n.connections side ++ [c]) }
    else
      .error .blocked
  | .retire side c =>
    .ok { n with
      connections := Function.update n.connections side ((n.connections side).filter (· ≠ c)) }
  | .enter k side task =>
    if (n.owners k).isNone then
      .ok { n.setOwner k (some { side, task }) with
        taskCount := Function.update n.taskCount side (n.taskCount side + 1) }
    else
      .error .blocked
  | .give k c =>
    match n.owners k with
    | some w =>
      -- a `TCPClient` has one connection
      if c ∈ n.connections w.side ∧ (w.side = .client → w.given = []) then do
        let n' ← n.connExec c (.start w.task)
        .ok (n'.setOwner k (some { w with given := w.given ++ [c] }))
      else
        .error .blocked
    | none => .error .blocked
  | .conn c a => if a.isStart then .error .blocked else n.connExec c a
  | .leave k unrecv =>
    match n.owners k with
    | some w =>
      -- `TCPClient::close` does nothing when `connect` has failed
      if n.Returned w ∧ (w.side = .client → w.given ≠ []) then do
        let count := n.taskCount w.side - 1
        let n := { n.setOwner k none with
          taskCount := Function.update n.taskCount w.side count }
        if count = 0 ∧ unrecv = 0 then do
          let n' ← (n.connections w.side).foldlM closeOne n
          .ok { n' with connections := Function.update n'.connections w.side [] }
        else
          .ok n
      else
        .error .blocked
    | none => .error .blocked

def step (n : TaskNode) (a : TaskNodeAct) : Option TaskNode := (n.exec a).toOption

/-- On every connection, the last stop flag is set over an empty `send_buffer_`. -/
def OnTime (n : TaskNode) : TaskNodeAct → Prop
  | .conn c a => ∀ x ∈ n.conns c, x.OnTime a
  | _ => True

instance (n : TaskNode) : DecidablePred n.OnTime
  | .conn c a => inferInstanceAs (Decidable (∀ x ∈ n.conns c, x.OnTime a))
  | .open_ _ _ | .retire _ _ | .enter _ _ _ | .give _ _ | .leave _ _ => isTrue trivial

/-! ## What is kept -/

def Kept (n : TaskNode) : Prop := ∀ c x, n.conns c = some x → x.Kept

variable {n n' : TaskNode}

@[simp] theorem setConn_conns (c : Nat) (x : Outgoing) :
    (n.setConn c x).conns = Function.update n.conns c (some x) := rfl

theorem Kept.setConn (h : n.Kept) (c : Nat) {x : Outgoing} (hx : x.Kept) :
    (n.setConn c x).Kept := by
  intro c' x' hx'
  rcases eq_or_ne c' c with rfl | hne
  · rw [setConn_conns, Function.update_self] at hx'
    obtain rfl := Option.some.inj hx'
    exact hx
  · rw [setConn_conns, Function.update_of_ne hne] at hx'
    exact h c' x' hx'

theorem Kept.connExec (h : n.Kept) {c : Nat} {a : OutgoingAct} (ha : ∀ x ∈ n.conns c, x.OnTime a)
    (hn : n.connExec c a = .ok n') : n'.Kept := by
  unfold TaskNode.connExec at hn
  split at hn
  · next x hx =>
    obtain ⟨x', hx', hn⟩ := Exec.bind_eq_ok.mp hn
    obtain rfl := Except.ok.inj hn
    exact h.setConn c (Outgoing.kept_step (h c x hx) (ha x hx) hx')
  · cases hn

theorem Kept.closeOne (h : n.Kept) {c : Nat} (hn : n.closeOne c = .ok n') : n'.Kept := by
  unfold TaskNode.closeOne at hn
  split at hn
  · next x hx =>
    obtain ⟨x', hx', hn⟩ := Exec.bind_eq_ok.mp hn
    obtain rfl := Except.ok.inj hn
    exact h.setConn c ((h c x hx).close hx')
  · obtain rfl := Except.ok.inj hn
    exact h

theorem Kept.closeAll (h : n.Kept) {cs : List Nat} (hn : cs.foldlM TaskNode.closeOne n = .ok n') :
    n'.Kept := by
  induction cs generalizing n with
  | nil =>
    obtain rfl := Except.ok.inj hn
    exact h
  | cons c cs ih =>
    rw [List.foldlM_cons] at hn
    obtain ⟨m, hm, hn⟩ := Exec.bind_eq_ok.mp hn
    exact ih (h.closeOne hm) hn

theorem kept_step {a : TaskNodeAct} (h : n.Kept) (ha : n.OnTime a) (hn : n.step a = some n') :
    n'.Kept := by
  have hn := Exec.toOption_eq_some.mp hn
  cases a with
  | open_ side c =>
    simp only [exec] at hn
    split at hn
    · obtain ⟨x, hx, hn⟩ := Exec.bind_eq_ok.mp hn
      obtain rfl := Except.ok.inj hn
      exact h.setConn c (Outgoing.kept_new hx)
    · cases hn
  | retire side c =>
    obtain rfl := Except.ok.inj hn
    exact h
  | enter k side task =>
    simp only [exec] at hn
    split at hn
    · obtain rfl := Except.ok.inj hn
      exact h
    · cases hn
  | give k c =>
    simp only [exec] at hn
    split at hn
    · next w hw =>
      split at hn
      · obtain ⟨m, hm, hn⟩ := Exec.bind_eq_ok.mp hn
        obtain rfl := Except.ok.inj hn
        have hm' : m.Kept := h.connExec (a := .start w.task) (fun _ _ => trivial) hm
        exact hm'
      · cases hn
    · cases hn
  | conn c a =>
    simp only [exec] at hn
    split at hn
    · cases hn
    · exact h.connExec ha hn
  | leave k unrecv =>
    simp only [exec] at hn
    split at hn
    · next w hw =>
      split at hn
      · split at hn
        · obtain ⟨m, hm, hn⟩ := Exec.bind_eq_ok.mp hn
          obtain rfl := Except.ok.inj hn
          have hleft : Kept { n.setOwner k none with
            taskCount := Function.update n.taskCount w.side (n.taskCount w.side - 1) } := h
          have hm' : m.Kept := hleft.closeAll hm
          exact hm'
        · obtain rfl := Except.ok.inj hn
          exact h
      · cases hn
    · cases hn

/-- **Nothing is left behind**, if the stop flag of the last task of a connection that is not closed
is never set while there are bytes in its `send_buffer_`. -/
theorem sent_before_stop {acts : List TaskNodeAct} (hacts : AllSteps step OnTime {} acts)
    (hrun : run step {} acts = some n) {c : Nat} {x : Outgoing} (hx : n.conns c = some x)
    (hopen : x.closed = false) (hreturned : ∀ task ∈ x.tasks, x.call task = .out) :
    x.snd.sendBuffer.size = 0 ∧ x.written = x.queued := by
  have hstart : Kept {} := by
    intro c x hx
    cases hx
  have hkept : n.Kept := run_invariant_of (fun _ _ _ => kept_step) hstart hacts hrun
  exact (hkept c x hx).sent hopen hreturned

/-- Task `"A"` sends a message; the loop sends it before `stop` sets the flag. -/
theorem sent_before_stop_small : ∃ acts n x, AllSteps step OnTime {} acts ∧
    run step {} acts = some n ∧ n.conns 0 = some x ∧ x.closed = false ∧
    (∀ task ∈ x.tasks, x.call task = .out) ∧ x.queued.length = 27 ∧
    x.snd.sendBuffer.size = 0 ∧ x.written = x.queued := by
  obtain ⟨acts, hacts, hview⟩ : ∃ acts : List TaskNodeAct, AllSteps step OnTime {} acts ∧
      ((run step {} acts).bind fun n => n.conns 0).map
        (fun x => (x.closed, x.tasks.all fun task => x.call task = .out, x.queued.length))
          = some (false, true, 27) :=
    ⟨[.open_ .client 0, .open_ .client 1, .enter 0 .client [65], .enter 1 .client [66], .give 0 0,
      .give 1 1, .conn 0 (.register [65]), .conn 0 (.started [65]), .conn 0 (.takeWork [65]),
      .conn 0 (.send [65] [97] [1]), .conn 0 .drain, .conn 0 .flush, .conn 0 (.stop [65]),
      .conn 0 (.lockRecv [65]), .conn 0 (.setFlag [65]), .conn 0 .loopEnd, .conn 0 (.quit [65]),
      .conn 0 (.join [65]), .leave 0 0], by decide, by decide⟩
  obtain ⟨x, hx, hv⟩ := Option.map_eq_some_iff.mp hview
  obtain ⟨n, hrun, hx⟩ := Option.bind_eq_some_iff.mp hx
  obtain ⟨hopen, hrest⟩ := Prod.mk.inj hv
  obtain ⟨hall, hlen⟩ := Prod.mk.inj hrest
  have hreturned : ∀ task ∈ x.tasks, x.call task = .out := by simpa using hall
  exact ⟨acts, n, x, hacts, hrun, hx, hopen, hreturned, hlen,
    sent_before_stop hacts hrun hx hopen hreturned⟩

/-- The loop waits for the processor until the flag is set, and then ends without a look at
`send_buffer_`. Task `"B"` on another connection keeps this one open. -/
theorem not_sent : ∃ (acts : List TaskNodeAct) (n : TaskNode) (x : Outgoing),
    run step {} acts = some n ∧ n.conns 0 = some x ∧ x.closed = false ∧
      (∀ task ∈ x.tasks, x.call task = .out) ∧ x.snd.sendBuffer.size ≠ 0 := by
  obtain ⟨acts, hview⟩ : ∃ acts : List TaskNodeAct,
      ((run step {} acts).bind fun n => n.conns 0).map
        (fun x => (x.closed, x.tasks.all fun task => x.call task = .out, x.snd.sendBuffer.size))
          = some (false, true, 11) :=
    ⟨[.open_ .client 0, .open_ .client 1, .enter 0 .client [65], .enter 1 .client [66], .give 0 0,
      .give 1 1, .conn 0 (.register [65]), .conn 0 (.started [65]), .conn 0 (.takeWork [65]),
      .conn 0 .drain, .conn 0 .flush, .conn 0 (.send [65] [97] [1]), .conn 0 (.stop [65]),
      .conn 0 (.lockRecv [65]), .conn 0 (.setFlag [65]), .conn 0 .loopEnd, .conn 0 (.quit [65]),
      .conn 0 (.join [65]), .leave 0 0], by decide⟩
  obtain ⟨x, hx, hv⟩ := Option.map_eq_some_iff.mp hview
  obtain ⟨n, hrun, hx⟩ := Option.bind_eq_some_iff.mp hx
  obtain ⟨hopen, hrest⟩ := Prod.mk.inj hv
  obtain ⟨hall, hsize⟩ := Prod.mk.inj hrest
  exact ⟨acts, n, x, hrun, hx, hopen, by simpa using hall, by simp [hsize]⟩

end TaskNode

end Rosetta

import Rosetta.Server.Basic

/-!
# The listening socket

Clients that have connected wait in the queue of the listening socket. The socket is in the epoll
set with `EPOLLET`: `epoll_wait` reports it once after a client has come, and once after an
`epoll_mod` that finds the queue not empty. For each report `handle_accept` accepts one client. It
calls `epoll_mod` at its end, and it has four other ways to return.

* `Greeting` — what `handle_accept` gets from the socket of a client
* `greet` — the part of `handle_accept` that decides about the client
* `Listener` — the queue, the report, and how far the epoll thread has come
-/

namespace Rosetta

open Lib

/-- The first exchange with a client that has been accepted. -/
structure Greeting where
  /-- what `write` of the ack returns -/
  ackRet : Int := 1
  /-- the bytes of the first `read`; `none` when it fails -/
  lenRead : Option Bytes
  /-- the bytes of the second `read` -/
  cidRead : Option Bytes
  deriving DecidableEq

/-- How `handle_accept` goes on with a client. -/
inductive Accepted where
  /-- `"write cid len error"`, although it is the ack -/
  | ackError
  /-- `"read cid error"` of the first `read` -/
  | lenError
  /-- `"read cid error "` of the second `read` -/
  | cidError
  | notReallyClient (cid : Bytes)
  | registered (cid : Bytes)
  deriving DecidableEq

def Accepted.isRegistered : Accepted → Bool
  | .registered _ => true
  | _ => false

/-- `handle_accept` from the ack to the look-up in `expected_cids_`. -/
def greet (expectedCids : List ClientId) (g : Greeting) : Exec Accepted :=
  if g.ackRet ≠ 1 then .ok .ackError
  else
    let lenBytes := g.lenRead.getD []
    if lenBytes.length ≠ 8 then .ok .lenError
    else do
      let size := wrapSub64 (ofBytes64 lenBytes) 8
      resize size
      match g.cidRead with
      | some cid =>
        if cid.length ≠ size then .ok .cidError
        else if expectedCids.any fun e => e.bytes == cid then .ok (.registered cid)
        else .ok (.notReallyClient cid)
      | none => .ok .cidError

/-- What `handle_accept` gets from a client that has sent `hello` at once. -/
def Greeting.ofHello (hello : Bytes) : Greeting where
  lenRead := some (hello.take 8)
  cidRead := some ((hello.drop 8).take (wrapSub64 (ofBytes64 (hello.take 8)) 8))

/-- The decision that `Server.handleAccept` makes about a hello. -/
theorem greet_ofHello (s : ServerTask) (hello : Bytes) :
    (greet s.expectedCids (.ofHello hello)).map Accepted.isRegistered =
      (readCid hello).map fun r => r.any fun (cid, _) => s.expects cid := by
  unfold greet readCid Greeting.ofHello
  simp only [ne_eq, not_true_eq_false, if_false, Option.getD_some]
  by_cases h : hello.length < 8
  · have hshort : (hello.take 8).length ≠ 8 := by
      rw [List.length_take]
      omega
    rw [if_pos hshort, if_pos h]
    rfl
  · have hlen : (hello.take 8).length = 8 := by
      rw [List.length_take]
      omega
    rw [if_neg (not_not.mpr hlen), if_neg h]
    obtain ⟨size, hsize⟩ : ∃ size, wrapSub64 (ofBytes64 (hello.take 8)) 8 = size := ⟨_, rfl⟩
    simp only [hsize]
    cases resize size with
    | error e => rfl
    | ok u =>
      simp only [Exec.ok_bind]
      by_cases hcid : ((hello.drop 8).take size).length = size
      · rw [if_neg (not_not.mpr hcid), if_pos hcid]
        cases hany : s.expectedCids.any fun e => e.bytes == (hello.drop 8).take size with
        | false => simp [Except.map, Accepted.isRegistered, ServerTask.expects, hany]
        | true => simp [Except.map, Accepted.isRegistered, ServerTask.expects, hany]
      · rw [if_pos hcid, if_neg hcid]
        rfl

/-! ## The queue and the reports -/

/-- Where the epoll thread is. -/
inductive AcceptLoop where
  /-- at `epoll_wait`, or busy with other sockets -/
  | polling
  /-- `epoll_wait` has reported the listening socket -/
  | reported
  /-- `accept` has returned -/
  | accepted (g : Greeting)
  /-- the client is in `connections_`, and `epoll_mod` comes next -/
  | registered
  deriving DecidableEq

structure Listener where
  /-- the clients that have connected and have not been accepted -/
  pending : List Greeting := []
  /-- the next `epoll_wait` reports the socket -/
  ready : Bool := false
  loop : AcceptLoop := .polling
  deriving DecidableEq

inductive ListenerAct where
  /-- a client connects -/
  | arrive (g : Greeting)
  | epollWait
  | accept
  /-- the first exchange, in the loop of the task that expects these clients -/
  | greet (expectedCids : List ClientId)
  | epollMod

namespace Listener

def step (l : Listener) : ListenerAct → Option Listener
  | .arrive g => some { l with pending := l.pending ++ [g], ready := true }
  | .epollWait =>
    if l.loop = .polling ∧ l.ready then some { l with ready := false, loop := .reported } else none
  | .accept =>
    match l.loop, l.pending with
    | .reported, g :: rest => some { l with pending := rest, loop := .accepted g }
    -- `accept` would fail and `handle_accept` throw
    | _, _ => none
  | .greet expectedCids =>
    match l.loop with
    | .accepted g =>
      match Rosetta.greet expectedCids g with
      | .ok (.registered _) => some { l with loop := .registered }
      | .ok _ => some { l with loop := .polling }
      | .error _ => none
    | _ => none
  | .epollMod =>
    if l.loop = .registered then
      some { l with loop := .polling, ready := l.ready || !l.pending.isEmpty }
    else none

/-- Everything that was reported has been handled. -/
def Idle (l : Listener) : Prop := l.loop = .polling ∧ l.ready = false

instance (l : Listener) : Decidable l.Idle := inferInstanceAs (Decidable (_ ∧ _))

/-- No client waits for an idle loop. -/
def Served (l : Listener) : Prop := l.Idle → l.pending = []

/-! ## `accept` finds a client -/

/-- There is a client for every report, the one that is being handled included. -/
structure Covered (l : Listener) : Prop where
  ready : l.ready = true → l.pending ≠ []
  reported : l.loop = .reported → l.pending ≠ []
  both : l.loop = .reported → l.ready = true → 2 ≤ l.pending.length

theorem covered_start : Covered {} := by
  constructor <;> simp

theorem covered_step {l l' : Listener} {a : ListenerAct} (h : l.Covered)
    (hstep : l.step a = some l') : l'.Covered := by
  cases a with
  | arrive g =>
    obtain rfl := Option.some.inj hstep
    refine ⟨by simp, by simp, ?_⟩
    intro hloop _
    have hne := List.length_pos_iff.mpr (h.reported hloop)
    simp only [List.length_append, List.length_singleton]
    omega
  | epollWait =>
    simp only [step, Option.ite_none_right_eq_some, Option.some.injEq] at hstep
    obtain ⟨⟨-, hready⟩, rfl⟩ := hstep
    exact ⟨by simp, fun _ => h.ready hready, by simp⟩
  | accept =>
    simp only [step] at hstep
    split at hstep
    · next g rest hloop hpending =>
      obtain rfl := Option.some.inj hstep
      refine ⟨?_, by simp, by simp⟩
      intro hready
      have htwo := h.both hloop hready
      rw [hpending, List.length_cons] at htwo
      exact List.length_pos_iff.mp (Nat.lt_of_succ_lt_succ htwo)
    · cases hstep
  | greet expectedCids =>
    simp only [step] at hstep
    split at hstep
    · split at hstep
      · obtain rfl := Option.some.inj hstep
        exact ⟨h.ready, by simp, by simp⟩
      · obtain rfl := Option.some.inj hstep
        exact ⟨h.ready, by simp, by simp⟩
      · cases hstep
    · cases hstep
  | epollMod =>
    simp only [step, Option.ite_none_right_eq_some, Option.some.injEq] at hstep
    obtain ⟨-, rfl⟩ := hstep
    refine ⟨?_, by simp, by simp⟩
    intro hready
    rcases Bool.or_eq_true_iff.mp hready with hready | hpending
    · exact h.ready hready
    · simpa using hpending

/-- `handle_accept` never throws because there is nobody to accept. -/
theorem exists_accept {acts : List ListenerAct} {l : Listener} (hrun : run step {} acts = some l)
    (hloop : l.loop = .reported) : ∃ l', l.step .accept = some l' := by
  have h : l.Covered := run_invariant (fun _ _ _ => covered_step) covered_start hrun
  obtain ⟨g, rest, hpending⟩ := List.exists_cons_of_ne_nil (h.reported hloop)
  exact ⟨{ l with pending := rest, loop := .accepted g }, by simp [step, hloop, hpending]⟩

/-! ## Who is forgotten -/

/-- `handle_accept` returns early only if nobody else is in the queue, or if somebody has come
since `epoll_wait` has reported the socket. -/
def Rearmed (l : Listener) : ListenerAct → Prop
  | .greet expectedCids =>
    match l.loop with
    | .accepted g =>
      (Rosetta.greet expectedCids g).toOption.any Accepted.isRegistered = false →
        l.pending = [] ∨ l.ready = true
    | _ => True
  | _ => True

instance (l : Listener) (a : ListenerAct) : Decidable (l.Rearmed a) := by
  unfold Rearmed
  cases a with
  | greet expectedCids => cases l.loop <;> infer_instance
  | _ => infer_instance

theorem served_step {l l' : Listener} {a : ListenerAct} (hstep : l.step a = some l') :
    l'.Served ↔ l.Rearmed a := by
  cases a with
  | arrive g =>
    obtain rfl := Option.some.inj hstep
    simp [Served, Idle, Rearmed]
  | epollWait =>
    simp only [step, Option.ite_none_right_eq_some, Option.some.injEq] at hstep
    obtain ⟨-, rfl⟩ := hstep
    simp [Served, Idle, Rearmed]
  | accept =>
    simp only [step] at hstep
    split at hstep
    · obtain rfl := Option.some.inj hstep
      simp [Served, Idle, Rearmed]
    · cases hstep
  | greet expectedCids =>
    simp only [step] at hstep
    split at hstep
    · next g hloop =>
      simp only [Rearmed, hloop]
      split at hstep
      · next hgreet =>
        obtain rfl := Option.some.inj hstep
        simp [hgreet, Served, Idle, Except.toOption, Accepted.isRegistered]
      · next r hnot hgreet =>
        -- one of the early returns: the report is not renewed
        obtain rfl := Option.some.inj hstep
        have hearly : r.isRegistered = false := by
          cases r with
          | registered cid => exact absurd rfl (hnot cid)
          | _ => rfl
        simp only [hgreet, Except.toOption, Option.any_some, hearly, true_implies, Served, Idle,
          true_and]
        cases l.ready <;> simp
      · cases hstep
    · cases hstep
  | epollMod =>
    simp only [step, Option.ite_none_right_eq_some, Option.some.injEq] at hstep
    obtain ⟨-, rfl⟩ := hstep
    simp [Served, Idle, Rearmed]

/-- **Who is forgotten.** Whatever clients come and whatever they send: no client waits for an idle
loop in any state of a run, exactly when all early returns of `handle_accept` meet the condition. -/
theorem served_iff {acts : List ListenerAct} {l : Listener} (hrun : run step {} acts = some l) :
    (∀ pre post l', acts = pre ++ post → run step {} pre = some l' → l'.Idle → l'.pending = []) ↔
      AllSteps step Rearmed {} acts :=
  (allSteps_iff_states (B := fun _ _ => True) (J := fun _ => True) (G := Served)
    (fun _ _ _ _ _ => trivial) (fun _ _ _ _ _ _ hstep => served_step hstep) trivial
    (fun _ => rfl) (allSteps_of_forall (Q := fun _ => True) (fun _ _ => trivial) _) hrun).symm

section Run

/-- A client whose ack cannot be written. -/
private def gone : Greeting := { ackRet := -1, lenRead := none, cidRead := none }

/-- A client with the id `[7]`. -/
private def seven : Greeting := .ofHello (ClientId.hello ⟨[7], by decide⟩)

/-- One client is rejected, and another one comes before its ack has failed. -/
theorem served_iff_small : ∃ acts : List ListenerAct, acts.length = 8 ∧
    ((∀ pre post l', acts = pre ++ post → run step {} pre = some l' → l'.Idle → l'.pending = []) ↔
      AllSteps step Rearmed {} acts) :=
  ⟨[.arrive gone, .epollWait, .arrive seven, .accept, .greet [], .epollWait, .accept,
    .greet [⟨[7], by decide⟩]], rfl, served_iff (l := { loop := .registered }) (by decide)⟩

/-- **Not everybody is served.** Two clients have come when `epoll_wait` reports the socket. The
first one is rejected, and nothing reports the second one. -/
theorem not_served : ¬ ∀ acts l, run step {} acts = some l → l.Idle → l.pending = [] := by
  intro hall
  have hpending := hall
    [.arrive gone, .arrive seven, .epollWait, .accept, .greet [⟨[7], by decide⟩]]
    { pending := [seven] } (by decide) (by decide)
  cases hpending

end Run

end Listener

end Rosetta

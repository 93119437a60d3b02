import Rosetta.Lib.Ledger
import Rosetta.Lib.Waiting
import Rosetta.Server.Basic

/-!
# Handing over the epoll loop

The threads of `loop_main` wait on `listen_cv_` for `listen_count_` to be zero or for their own
`stop_`. The one that leaves the loop notifies one of them, which may be one that is stopping, and
`stop` writes `stop_` without `listen_mutex_` and notifies all of them afterwards.

* `ListenTask` — a `TCPServer`, as far as the loop goes
* `ListenLoop` — all of them, and `listen_count_`
* `Does` — what a step is when it is possible
* `HandedOver` — the invariant: whoever sleeps while nobody runs the loop has help coming
-/

namespace Rosetta

open Lib

structure ListenTask where
  /-- `stop_` -/
  stop : Bool := false
  /-- `none` if `start` has failed and there is no thread -/
  loopMain : Option LoopMain := some .waiting
  /-- the wait on `listen_cv_`, while `loop_main` is in it -/
  wait : Waiting := .awake
  /-- `stop` has set `stop_` and has still to call `notify_all` -/
  notifyDue : Bool := false
  deriving DecidableEq

namespace ListenTask

/-- Between the two accesses of `listen_count_`. -/
def inLoop (x : ListenTask) : Bool :=
  x.loopMain = some .checking ∨ x.loopMain = some .serving

/-- In the wait of `loop_main`, where `w` is. -/
def At (x : ListenTask) (w : Waiting) : Prop := x.loopMain = some .waiting ∧ x.wait = w

instance (x : ListenTask) (w : Waiting) : Decidable (x.At w) := inferInstanceAs (Decidable (_ ∧ _))

theorem At.inLoop {x : ListenTask} {w : Waiting} (h : x.At w) : x.inLoop = false := by
  simp [ListenTask.inLoop, h.1]

/-- A notification, which reaches the thread if it sleeps. -/
def notify (x : ListenTask) : ListenTask := { x with wait := x.wait.notify }

end ListenTask

structure ListenLoop where
  listenCount : Nat := 0
  /-- all `TCPServer`s there have ever been -/
  tasks : List ListenTask := []
  deriving DecidableEq

inductive ListenLoopAct where
  /-- `start`, which may fail -/
  | start (ok : Bool)
  /-- the critical section of the wait -/
  | test (t : Nat)
  /-- a spurious wake-up -/
  | wake (t : Nat)
  /-- all expected clients have connected -/
  | allConnected (t : Nat)
  /-- the critical section behind the loop; `notify_one` picks `next` -/
  | endLoop (t : Nat) (timedOut : Bool) (next : Option Nat)
  /-- `stop` sets `stop_` -/
  | stop (t : Nat)
  /-- the critical section of `stop` -/
  | notifyAll (t : Nat)

namespace ListenLoop

def setTask (n : ListenLoop) (t : Nat) (x : ListenTask) : ListenLoop :=
  { n with tasks := n.tasks.set t x }

/-- `notify_one`: one thread of the wait set, if there is any. -/
def notifyOne (n : ListenLoop) : Option Nat → Option ListenLoop
  | some t =>
    match n.tasks[t]? with
    | some x => if x.At .asleep then some (n.setTask t x.notify) else none
    | none => none
  | none => if ∀ x ∈ n.tasks, ¬ x.At .asleep then some n else none

/-- The predicate, and what follows it: sleep, or return, or go into the loop. -/
def test (n : ListenLoop) (t : Nat) (x : ListenTask) : ListenLoop :=
  if n.listenCount = 0 ∨ x.stop then
    if x.stop then n.setTask t { x with loopMain := some .ended }
    else { n.setTask t { x with loopMain := some .checking } with listenCount := n.listenCount + 1 }
  else n.setTask t { x with wait := .asleep }

def step (n : ListenLoop) : ListenLoopAct → Option ListenLoop
  | .start ok =>
    some { n with tasks := n.tasks ++ [{ loopMain := if ok then some .waiting else none }] }
  | .test t =>
    match n.tasks[t]? with
    | some x => if x.At .awake ∨ x.At .notified then some (n.test t x) else none
    | none => none
  | .wake t =>
    match n.tasks[t]? with
    | some x => if x.At .asleep then some (n.setTask t { x with wait := .awake }) else none
    | none => none
  | .allConnected t =>
    match n.tasks[t]? with
    | some x =>
      if x.loopMain = some .checking then some (n.setTask t { x with loopMain := some .serving })
      else none
    | none => none
  | .endLoop t timedOut next =>
    match n.tasks[t]? with
    | some x =>
      if x.inLoop ∧ (x.stop ∨ (x.loopMain = some .checking ∧ timedOut)) then
        { n.setTask t { x with loopMain := some .ended } with
          listenCount := n.listenCount - 1 }.notifyOne next
      else none
    | none => none
  | .stop t =>
    match n.tasks[t]? with
    | some x =>
      some (if x.stop then n else n.setTask t { x with stop := true, notifyDue := true })
    | none => none
  | .notifyAll t =>
    match n.tasks[t]? with
    | some x =>
      if x.notifyDue then
        let n' := n.setTask t { x with notifyDue := false }
        some { n' with tasks := n'.tasks.map ListenTask.notify }
      else none
    | none => none

/-- What a step is when it is possible, and what it has found. -/
inductive Does (n : ListenLoop) : ListenLoopAct → ListenLoop → Prop
  | start (ok : Bool) : Does n (.start ok)
      { n with tasks := n.tasks ++ [{ loopMain := if ok then some .waiting else none }] }
  | quit {t : Nat} {x : ListenTask} (hx : n.tasks[t]? = some x)
    (hat : x.At .awake ∨ x.At .notified) (hstop : x.stop = true) :
    Does n (.test t) (n.setTask t { x with loopMain := some .ended })
  | take {t : Nat} {x : ListenTask} (hx : n.tasks[t]? = some x)
    (hat : x.At .awake ∨ x.At .notified) (hcount : n.listenCount = 0) :
    Does n (.test t)
      { n.setTask t { x with loopMain := some .checking } with listenCount := n.listenCount + 1 }
  | sleep {t : Nat} {x : ListenTask} (hx : n.tasks[t]? = some x)
    (hat : x.At .awake ∨ x.At .notified) (hcount : n.listenCount ≠ 0) (hstop : x.stop = false) :
    Does n (.test t) (n.setTask t { x with wait := .asleep })
  | wake {t : Nat} {x : ListenTask} (hx : n.tasks[t]? = some x) (hat : x.At .asleep) :
    Does n (.wake t) (n.setTask t { x with wait := .awake })
  | allConnected {t : Nat} {x : ListenTask} (hx : n.tasks[t]? = some x)
    (hloop : x.loopMain = some .checking) :
    Does n (.allConnected t) (n.setTask t { x with loopMain := some .serving })
  | endLoop {t : Nat} {timedOut : Bool} {x : ListenTask} {next : Option Nat} {n' : ListenLoop}
    (hx : n.tasks[t]? = some x) (hloop : x.inLoop = true)
    (hnext : { n.setTask t { x with loopMain := some .ended } with
      listenCount := n.listenCount - 1 }.notifyOne next = some n') :
    Does n (.endLoop t timedOut next) n'
  | stop {t : Nat} {x : ListenTask} (hx : n.tasks[t]? = some x) :
    Does n (.stop t) (n.setTask t { x with stop := true, notifyDue := true })
  | stopAgain (t : Nat) : Does n (.stop t) n
  | notifyAll {t : Nat} {x : ListenTask} (hx : n.tasks[t]? = some x) :
    Does n (.notifyAll t) { n.setTask t { x with notifyDue := false } with
      tasks := (n.tasks.set t { x with notifyDue := false }).map ListenTask.notify }

theorem does_of_step {n n' : ListenLoop} {a : ListenLoopAct} (h : n.step a = some n') :
    n.Does a n' := by
  cases a with
  | start ok =>
    cases h
    exact .start ok
  | test t =>
    simp only [step] at h
    split at h
    · next x hx =>
      simp only [Option.ite_none_right_eq_some, Option.some.injEq] at h
      obtain ⟨hat, rfl⟩ := h
      unfold test
      by_cases hstop : x.stop = true
      · rw [if_pos (.inr hstop), if_pos hstop]
        exact .quit hx hat hstop
      · by_cases hcount : n.listenCount = 0
        · rw [if_pos (.inl hcount), if_neg hstop]
          exact .take hx hat hcount
        · rw [if_neg (not_or_intro hcount hstop)]
          exact .sleep hx hat hcount (Bool.eq_false_iff.mpr hstop)
    · cases h
  | wake t =>
    simp only [step] at h
    split at h
    · next x hx =>
      simp only [Option.ite_none_right_eq_some, Option.some.injEq] at h
      obtain ⟨hat, rfl⟩ := h
      exact .wake hx hat
    · cases h
  | allConnected t =>
    simp only [step] at h
    split at h
    · next x hx =>
      simp only [Option.ite_none_right_eq_some, Option.some.injEq] at h
      obtain ⟨hloop, rfl⟩ := h
      exact .allConnected hx hloop
    · cases h
  | endLoop t timedOut next =>
    simp only [step] at h
    split at h
    · next x hx =>
      simp only [Option.ite_none_right_eq_some] at h
      exact .endLoop hx h.1.1 h.2
    · cases h
  | stop t =>
    simp only [step] at h
    split at h
    · next x hx =>
      obtain rfl := Option.some.inj h
      split
      · exact .stopAgain t
      · exact .stop hx
    · cases h
  | notifyAll t =>
    simp only [step] at h
    split at h
    · next x hx =>
      simp only [Option.ite_none_right_eq_some, Option.some.injEq] at h
      obtain ⟨-, rfl⟩ := h
      exact .notifyAll hx
    · cases h

/-! ## The invariant -/

variable {n n' : ListenLoop} {t : Nat} {x x' : ListenTask}

/-- A waiter that goes on has been notified, or a `notify_all` is still to come. -/
def Helped (n : ListenLoop) : Prop :=
  (∃ (u : Nat) (y : ListenTask), n.tasks[u]? = some y ∧ y.At .notified ∧ y.stop = false) ∨
    ∃ (u : Nat) (y : ListenTask), n.tasks[u]? = some y ∧ y.notifyDue = true

structure HandedOver (n : ListenLoop) : Prop where
  count : n.tasks.countP ListenTask.inLoop = n.listenCount
  le_one : n.listenCount ≤ 1
  /-- a stopping task that sleeps will be woken by its own `stop` -/
  due : ∀ (u : Nat) (y : ListenTask), n.tasks[u]? = some y → y.At .asleep → y.stop = true →
    y.notifyDue = true
  helped : n.listenCount = 0 → ∀ (u : Nat) (y : ListenTask), n.tasks[u]? = some y →
    y.At .asleep → y.stop = false → n.Helped

theorem handedOver_start : HandedOver {} := by
  constructor <;> simp

theorem getElem?_setTask (hx : n.tasks[t]? = some x) (u : Nat) :
    (n.setTask t x').tasks[u]? = if u = t then some x' else n.tasks[u]? := by
  have hlt : t < n.tasks.length := (List.getElem?_eq_some_iff.mp hx).1
  simp only [setTask, List.getElem?_set, hlt, if_true, eq_comm]

/-- The counter of the loop after one task has changed. -/
theorem countP_setTask (hx : n.tasks[t]? = some x) (y : ListenTask) :
    (n.setTask t y).tasks.countP ListenTask.inLoop + x.inLoop.toNat =
      n.tasks.countP ListenTask.inLoop + y.inLoop.toNat :=
  countP_set_getElem? hx y

/-- A task that changes stays as helpful as it was. -/
theorem Helped.setTask (h : n.Helped) (hx : n.tasks[t]? = some x)
    (hnotified : x.At .notified → x.stop = false → x'.At .notified ∧ x'.stop = false)
    (hdue : x.notifyDue = true → x'.notifyDue = true) : (n.setTask t x').Helped := by
  rcases h with ⟨u, y, hy, hat, hstop⟩ | ⟨u, y, hy, hdue'⟩
  · by_cases hu : u = t
    · subst hu
      obtain rfl := Option.some.inj (hx.symm.trans hy)
      obtain ⟨hat', hstop'⟩ := hnotified hat hstop
      exact .inl ⟨u, x', by rw [getElem?_setTask hx, if_pos rfl], hat', hstop'⟩
    · exact .inl ⟨u, y, by rw [getElem?_setTask hx, if_neg hu, hy], hat, hstop⟩
  · by_cases hu : u = t
    · subst hu
      obtain rfl := Option.some.inj (hx.symm.trans hy)
      exact .inr ⟨u, x', by rw [getElem?_setTask hx, if_pos rfl], hdue hdue'⟩
    · exact .inr ⟨u, y, by rw [getElem?_setTask hx, if_neg hu, hy], hdue'⟩

/-- A task changes and is not asleep afterwards, and the counter fits. -/
theorem HandedOver.setTask (h : n.HandedOver) (hx : n.tasks[t]? = some x) {k : Nat}
    (hcount : k + x.inLoop.toNat = n.listenCount + x'.inLoop.toNat)
    (hle : k ≤ 1) (hawake : ¬ x'.At .asleep ∨ (k ≠ 0 ∧ x'.stop = false))
    (hhelped : k = 0 → ∀ (u : Nat) (y : ListenTask), n.tasks[u]? = some y →
      y.At .asleep → y.stop = false → (n.setTask t x').Helped) :
    HandedOver { n.setTask t x' with listenCount := k } := by
  refine ⟨?_, hle, ?_, ?_⟩
  · have hset := countP_setTask hx x'
    have hold := h.count
    show (n.setTask t x').tasks.countP ListenTask.inLoop = k
    omega
  · intro u y hy hat hstop
    have hy : (n.setTask t x').tasks[u]? = some y := hy
    rw [getElem?_setTask hx] at hy
    split at hy
    · obtain rfl := Option.some.inj hy
      rcases hawake with hnot | ⟨-, hgo⟩
      · exact absurd hat hnot
      · rw [hgo] at hstop
        cases hstop
    · exact h.due u y hy hat hstop
  · intro hzero u y hy hat hstop
    have hy : (n.setTask t x').tasks[u]? = some y := hy
    rw [getElem?_setTask hx] at hy
    split at hy
    · obtain rfl := Option.some.inj hy
      rcases hawake with hnot | ⟨hne, -⟩
      · exact absurd hat hnot
      · exact absurd hzero hne
    · exact hhelped hzero u y hy hat hstop

/-- A new thread is not asleep. -/
theorem HandedOver.start (h : n.HandedOver) (ok : Bool) : HandedOver
    { n with tasks := n.tasks ++ [{ loopMain := if ok then some .waiting else none }] } := by
  have hold : ∀ (u : Nat) (y : ListenTask),
      (n.tasks ++ [{ loopMain := if ok then some .waiting else none }])[u]? = some y →
      y.At .asleep → n.tasks[u]? = some y := by
    intro u y hy hat
    rw [List.getElem?_append] at hy
    split at hy
    · exact hy
    · obtain rfl := List.mem_singleton.mp (List.mem_of_getElem? hy)
      exact absurd hat.2 Waiting.noConfusion
  have hnew : ∀ (u : Nat) (y z : ListenTask), n.tasks[u]? = some y →
      (n.tasks ++ [z])[u]? = some y := by
    intro u y z hy
    rw [List.getElem?_append_left (List.getElem?_eq_some_iff.mp hy).1, hy]
  refine ⟨?_, h.le_one, ?_, ?_⟩
  · have hout : ListenTask.inLoop { loopMain := if ok then some .waiting else none } = false := by
      cases ok <;> rfl
    simp [hout, h.count]
  · intro u y hy hat hstop
    exact h.due u y (hold u y hy hat) hat hstop
  · intro hzero u y hy hat hstop
    rcases h.helped hzero u y (hold u y hy hat) hat hstop with ⟨v, z, hz, hrest⟩ | ⟨v, z, hz, hrest⟩
    · exact .inl ⟨v, z, hnew v z _ hz, hrest⟩
    · exact .inr ⟨v, z, hnew v z _ hz, hrest⟩

/-- A task leaves the loop, and `notify_one` wakes somebody who sleeps. If that one is stopping,
its `stop` has still to call `notify_all`. -/
theorem HandedOver.endLoop (h : n.HandedOver) (hx : n.tasks[t]? = some x) (hloop : x.inLoop = true)
    {next : Option Nat} (hnext : { n.setTask t { x with loopMain := some .ended } with
      listenCount := n.listenCount - 1 }.notifyOne next = some n') : n'.HandedOver := by
  have hone : n.listenCount = 1 := by
    have hpos : 0 < n.tasks.countP ListenTask.inLoop :=
      List.countP_pos_iff.mpr ⟨x, List.mem_of_getElem? hx, hloop⟩
    have := h.count
    have := h.le_one
    omega
  have hended : ListenTask.inLoop { x with loopMain := some .ended } = false := by
    simp [ListenTask.inLoop]
  have hgone : ¬ ListenTask.At { x with loopMain := some .ended } .asleep := by
    simp [ListenTask.At]
  cases next with
  | none =>
    simp only [notifyOne, Option.ite_none_right_eq_some, Option.some.injEq] at hnext
    obtain ⟨hnobody, rfl⟩ := hnext
    refine h.setTask hx ?_ (by omega) (.inl hgone) ?_
    · simp [hloop, hended, hone]
    · intro _ u y hy hat _
      have hmem : (n.setTask t { x with loopMain := some .ended }).tasks[u]? = some y := by
        rw [getElem?_setTask hx, if_neg, hy]
        rintro rfl
        obtain rfl := Option.some.inj (hx.symm.trans hy)
        exact absurd hloop (by simp [hat.inLoop])
      exact absurd hat (hnobody y (List.mem_of_getElem? hmem))
  | some u =>
    simp only [notifyOne] at hnext
    split at hnext
    · next y hy =>
      simp only [Option.ite_none_right_eq_some, Option.some.injEq] at hnext
      obtain ⟨hat, rfl⟩ := hnext
      have hy' : (n.setTask t { x with loopMain := some .ended }).tasks[u]? = some y := hy
      rw [getElem?_setTask hx] at hy'
      split at hy'
      · obtain rfl := Option.some.inj hy'
        exact absurd hat hgone
      · next hne =>
        -- first the notification, while the counter is still one
        have h₁ : (n.setTask u y.notify).HandedOver := by
          refine h.setTask hy' ?_ h.le_one (.inl fun hasleep => ?_) fun hzero => ?_
          · rfl
          · exact Waiting.notify_ne_asleep _ hasleep.2
          · omega
        have hx₁ : (n.setTask u y.notify).tasks[t]? = some x := by
          rw [getElem?_setTask hy', if_neg (Ne.symm hne), hx]
        have hy₁ : ((n.setTask u y.notify).setTask t { x with loopMain := some .ended }).tasks[u]? =
            some y.notify := by
          rw [getElem?_setTask hx₁, if_neg hne, getElem?_setTask hy', if_pos rfl]
        have h₂ : HandedOver
            { (n.setTask u y.notify).setTask t { x with loopMain := some .ended } with
              listenCount := 0 } := by
          refine h₁.setTask hx₁ ?_ (by omega) (.inl hgone) fun _ _ _ _ _ _ => ?_
          · have hone₁ : (n.setTask u y.notify).listenCount = 1 := hone
            simp [hloop, hended, hone₁]
          · cases hstop : y.stop with
            | false =>
              refine .inl ⟨u, y.notify, hy₁, ⟨hat.1, ?_⟩, hstop⟩
              simp [ListenTask.notify, hat.2]
            | true => exact .inr ⟨u, y.notify, hy₁, h.due u y hy' hat hstop⟩
        rw [show n.listenCount - 1 = 0 by omega]
        simpa only [ListenLoop.setTask, List.set_comm _ _ hne] using h₂
    · cases hnext

/-- After `notify_all` nobody sleeps. -/
theorem HandedOver.notifyAll (h : n.HandedOver) (hx : n.tasks[t]? = some x) :
    HandedOver { n.setTask t { x with notifyDue := false } with
      tasks := (n.tasks.set t { x with notifyDue := false }).map ListenTask.notify } := by
  have hawake : ∀ (u : Nat) (y : ListenTask),
      ((n.tasks.set t { x with notifyDue := false }).map ListenTask.notify)[u]? = some y →
      ¬ y.At .asleep := by
    intro u y hy hat
    obtain ⟨z, -, rfl⟩ := List.mem_map.mp (List.mem_of_getElem? hy)
    exact Waiting.notify_ne_asleep _ hat.2
  refine ⟨?_, h.le_one, ?_, ?_⟩
  · have hset := countP_setTask hx { x with notifyDue := false }
    have hsame : ListenTask.inLoop { x with notifyDue := false } = x.inLoop := rfl
    rw [hsame] at hset
    rw [List.countP_map]
    show (n.setTask t { x with notifyDue := false }).tasks.countP ListenTask.inLoop = n.listenCount
    rw [← h.count]
    omega
  · intro u y hy hat
    exact absurd hat (hawake u y hy)
  · intro _ u y hy hat
    exact absurd hat (hawake u y hy)

theorem handedOver_step {a : ListenLoopAct} (h : n.HandedOver) (hstep : n.step a = some n') :
    n'.HandedOver := by
  cases does_of_step hstep with
  | start ok => exact h.start ok
  | @quit t x hx hat hstop =>
    have hout : x.inLoop = false := hat.elim ListenTask.At.inLoop ListenTask.At.inLoop
    refine h.setTask hx ?_ h.le_one (.inl (by simp [ListenTask.At])) fun hzero u y hy hat hgo => ?_
    · rw [hout]
      simp [ListenTask.inLoop]
    · exact (h.helped hzero u y hy hat hgo).setTask hx (fun _ hgo' => by simp [hstop] at hgo') id
  | @take t x hx hat hcount =>
    have hout : x.inLoop = false := hat.elim ListenTask.At.inLoop ListenTask.At.inLoop
    refine h.setTask hx ?_ (by omega) (.inl (by simp [ListenTask.At])) fun hzero => by omega
    rw [hout]
    simp [ListenTask.inLoop]
  | @sleep t x hx hat hcount hstop =>
    refine h.setTask hx ?_ h.le_one (.inr ⟨hcount, hstop⟩) fun hzero => absurd hzero hcount
    rfl
  | @wake t x hx hat =>
    refine h.setTask hx ?_ h.le_one (.inl (by simp [ListenTask.At])) fun hzero u y hy hat' hgo => ?_
    · rfl
    · refine (h.helped hzero u y hy hat' hgo).setTask hx (fun hnotified => ?_) id
      simp [ListenTask.At, hat.2] at hnotified
  | @allConnected t x hx hloop =>
    refine h.setTask hx ?_ h.le_one (.inl (by simp [ListenTask.At])) fun hzero u y hy hat hgo => ?_
    · simp [ListenTask.inLoop, hloop]
    · refine (h.helped hzero u y hy hat hgo).setTask hx (fun hnotified => ?_) id
      simp [ListenTask.At, hloop] at hnotified
  | endLoop hx hloop hnext => exact h.endLoop hx hloop hnext
  | @stop t x hx =>
    have hx' : (n.setTask t { x with stop := true, notifyDue := true }).Helped :=
      .inr ⟨t, _, by rw [getElem?_setTask hx, if_pos rfl], rfl⟩
    refine ⟨?_, h.le_one, ?_, fun _ _ _ _ _ _ => hx'⟩
    · have hset := countP_setTask hx { x with stop := true, notifyDue := true }
      have hsame : ListenTask.inLoop { x with stop := true, notifyDue := true } = x.inLoop := rfl
      rw [hsame] at hset
      have hold := h.count
      show (n.setTask t _).tasks.countP ListenTask.inLoop = n.listenCount
      omega
    · intro u y hy hat hstop
      rw [getElem?_setTask hx] at hy
      split at hy
      · obtain rfl := Option.some.inj hy
        rfl
      · exact h.due u y hy hat hstop
  | stopAgain => exact h
  | notifyAll hx => exact h.notifyAll hx

/-! ## The hand-over -/

/-- The counter is the number of tasks in the loop. If nobody is in it and a task that goes on
sleeps, another waiter that goes on has been notified, or a `stop` has still to call `notify_all`. -/
structure NoLoss (n : ListenLoop) : Prop where
  atMostOne : n.listenCount ≤ 1
  counted : n.listenCount = n.tasks.countP ListenTask.inLoop
  helped : n.listenCount = 0 → ∀ (t : Nat) (x : ListenTask), n.tasks[t]? = some x →
    x.At .asleep → x.stop = false →
      (∃ (u : Nat) (y : ListenTask),
        u ≠ t ∧ n.tasks[u]? = some y ∧ y.At .notified ∧ y.stop = false) ∨
      ∃ (u : Nat) (y : ListenTask), n.tasks[u]? = some y ∧ y.notifyDue = true

/-- **The loop is handed over without loss**, in every state that starts, waits, stops and
notifications can reach. -/
theorem handed_over {acts : List ListenLoopAct} (hrun : run step {} acts = some n) : n.NoLoss := by
  have h : n.HandedOver := run_invariant (fun _ _ _ => handedOver_step) handedOver_start hrun
  refine ⟨h.le_one, h.count.symm, fun hzero t x hx hat hgo => ?_⟩
  rcases h.helped hzero t x hx hat hgo with ⟨u, y, hy, hnotified, hgo'⟩ | hdue
  · refine .inl ⟨u, y, ?_, hy, hnotified, hgo'⟩
    rintro rfl
    obtain rfl := Option.some.inj (hx.symm.trans hy)
    simp [ListenTask.At, hat.2] at hnotified
  · exact .inr hdue

/-- Task 0 runs the loop, 1 and 2 wait. Both 0 and 1 are stopped, and the one notification goes to
1, which will not take the loop: its own `notify_all` will wake 2. -/
theorem handed_over_small : ∃ acts n, run step {} acts = some n ∧ n.listenCount = 0 ∧
    n.NoLoss := by
  obtain ⟨acts, n, hrun, hzero⟩ : ∃ acts n, run step {} acts = some n ∧ n.listenCount = 0 :=
    ⟨[.start true, .start true, .start true, .test 0, .test 1, .test 2, .stop 0, .stop 1,
      .endLoop 0 false (some 1)], _, rfl, rfl⟩
  exact ⟨acts, n, hrun, hzero, handed_over hrun⟩

end ListenLoop

end Rosetta

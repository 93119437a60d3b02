import Mathlib.Algebra.Group.Basic
import Mathlib.Logic.Function.Basic
import Rosetta.Lib.Diamond

/-!
# Processes that talk through queues

Any number of processes send data to queues and receive data from them. A queue has no bounds, so a
`send` never waits; a `recv` waits until there is enough in its queue. What a process does next may
depend on everything that it has received.

If each queue has one process that sends to it and one that receives from it, the schedule does not
matter: `diamond` says so of two steps, and `run_end_unique` of whole runs.

* `Proc` — what a process still has to do
* `Wiring` — which queue a process means by a key
* `ProcNet` — the processes and the queues, with a tally of all that has been sent
-/

namespace Rosetta.Lib

variable {τ κ χ α ρ M : Type*}

inductive Proc (κ α ρ : Type*) where
  | done (result : ρ)
  | send (key : κ) (data : List α) (next : Proc κ α ρ)
  | recv (key : κ) (length : Nat) (next : List α → Proc κ α ρ)

namespace Proc

/-- Every `send` and every `recv` that may still come meets its condition. -/
def All (P : κ → List α → Prop) (Q : κ → Nat → Prop) : Proc κ α ρ → Prop
  | .done _ => True
  | .send key data next => P key data ∧ next.All P Q
  | .recv key length next => Q key length ∧ ∀ x, (next x).All P Q

theorem All.mono {P P' : κ → List α → Prop} {Q Q' : κ → Nat → Prop}
    (hP : ∀ key data, P key data → P' key data) (hQ : ∀ key length, Q key length → Q' key length)
    {p : Proc κ α ρ} (h : p.All P Q) : p.All P' Q' := by
  induction p with
  | done result => trivial
  | send key data next ih => exact ⟨hP key data h.1, ih h.2⟩
  | recv key length next ih => exact ⟨hQ key length h.1, fun x => ih x (h.2 x)⟩

/-- The same process with other keys. -/
def mapKeys {κ' : Type*} (f : κ → κ') : Proc κ α ρ → Proc κ' α ρ
  | .done result => .done result
  | .send key data next => .send (f key) data (next.mapKeys f)
  | .recv key length next => .recv (f key) length fun x => (next x).mapKeys f

theorem All.mapKeys {κ' : Type*} {f : κ → κ'} {P : κ' → List α → Prop} {Q : κ' → Nat → Prop}
    {p : Proc κ α ρ} (h : p.All (fun key => P (f key)) fun key => Q (f key)) :
    (p.mapKeys f).All P Q := by
  induction p with
  | done result => trivial
  | send key data next ih => exact ⟨h.1, ih h.2⟩
  | recv key length next ih => exact ⟨h.1, fun x => ih x (h.2 x)⟩

/-- What a process has ended with. -/
def result : Proc κ α ρ → Option ρ
  | .done result => some result
  | _ => none

theorem eq_done {p : Proc κ α ρ} {r : ρ} (h : p.result = some r) : p = .done r := by
  cases p with
  | done result => rw [Option.some.inj h]
  | send key data next => cases h
  | recv key length next => cases h

end Proc

structure Wiring (τ κ χ α M : Type*) where
  /-- where a `send` goes; nowhere if the process has no such queue -/
  out : τ → κ → Option χ
  /-- where a `recv` looks -/
  inn : τ → κ → Option χ
  /-- what a `send` adds to the tally -/
  cost : χ → List α → M

structure ProcNet (τ κ χ α ρ M : Type*) where
  procs : τ → Proc κ α ρ
  queues : χ → List α
  tally : M

namespace ProcNet

variable [DecidableEq τ] [DecidableEq χ]

/-- `t` has received `length` items, and `next` is left to do. -/
def take (n : ProcNet τ κ χ α ρ M) (t : τ) (c : χ) (length : Nat) (next : Proc κ α ρ) :
    ProcNet τ κ χ α ρ M where
  procs := Function.update n.procs t next
  queues := Function.update n.queues c ((n.queues c).drop length)
  tally := n.tally

section Take

variable (n : ProcNet τ κ χ α ρ M) {t t' : τ} {c c' : χ} (l l' : Nat) (p p' : Proc κ α ρ)

@[simp] theorem take_procs_self : (n.take t c l p).procs t = p := Function.update_self _ _ _

theorem take_procs_ne (h : t' ≠ t) : (n.take t c l p).procs t' = n.procs t' :=
  Function.update_of_ne h _ _

theorem take_queues_ne (h : c' ≠ c) : (n.take t c l p).queues c' = n.queues c' :=
  Function.update_of_ne h _ _

theorem take_take (ht : t ≠ t') (hc : c ≠ c') :
    (n.take t c l p).take t' c' l' p' = (n.take t' c' l' p').take t c l p := by
  simp only [take, Function.update_of_ne hc, Function.update_of_ne hc.symm, mk.injEq, and_true]
  exact ⟨Function.update_comm ht _ _ _, Function.update_comm hc _ _ _⟩

end Take

variable [AddCommMonoid M]

/-- `t` has sent `data`, and `next` is left to do. -/
def put (n : ProcNet τ κ χ α ρ M) (t : τ) (c : χ) (data : List α) (cost : M)
    (next : Proc κ α ρ) : ProcNet τ κ χ α ρ M where
  procs := Function.update n.procs t next
  queues := Function.update n.queues c (n.queues c ++ data)
  tally := n.tally + cost

section Put

variable (n : ProcNet τ κ χ α ρ M) {t t' : τ} {c c' : χ} (x x' : List α) (k k' : M)
  (p p' : Proc κ α ρ)

@[simp] theorem put_procs_self : (n.put t c x k p).procs t = p := Function.update_self _ _ _

theorem put_procs_ne (h : t' ≠ t) : (n.put t c x k p).procs t' = n.procs t' :=
  Function.update_of_ne h _ _

theorem put_put (ht : t ≠ t') (hc : c ≠ c') :
    (n.put t c x k p).put t' c' x' k' p' = (n.put t' c' x' k' p').put t c x k p := by
  simp only [put, Function.update_of_ne hc, Function.update_of_ne hc.symm, mk.injEq]
  exact ⟨Function.update_comm ht _ _ _, Function.update_comm hc _ _ _, add_right_comm _ _ _⟩

/-- What is in a queue comes before what is sent. -/
theorem take_queues_put {l : Nat} (hl : l ≤ (n.queues c').length) :
    l ≤ ((n.put t c x k p).queues c').length ∧
      ((n.put t c x k p).queues c').take l = (n.queues c').take l := by
  by_cases hc : c' = c
  · subst hc
    simp only [put, Function.update_self]
    refine ⟨?_, List.take_append_of_le_length hl⟩
    rw [List.length_append]
    omega
  · simp only [put, Function.update_of_ne hc]
    exact ⟨hl, trivial⟩

theorem put_take (ht : t ≠ t') {l : Nat} (hl : l ≤ (n.queues c').length) :
    (n.put t c x k p).take t' c' l p' = (n.take t' c' l p').put t c x k p := by
  simp only [put, take, mk.injEq, and_true]
  refine ⟨Function.update_comm ht _ _ _, ?_⟩
  by_cases hc : c = c'
  · subst hc
    simp only [Function.update_self, Function.update_idem, List.drop_append_of_le_length hl]
  · simp only [Function.update_of_ne hc, Function.update_of_ne (Ne.symm hc)]
    exact Function.update_comm hc _ _ _

end Put

/-- The process `t` takes a step. -/
def step (w : Wiring τ κ χ α M) (n : ProcNet τ κ χ α ρ M) (t : τ) :
    Option (ProcNet τ κ χ α ρ M) :=
  match n.procs t with
  | .done _ => none
  | .send key data next => (w.out t key).map fun c => n.put t c data (w.cost c data) next
  | .recv key length next =>
    match w.inn t key with
    | some c =>
      if length ≤ (n.queues c).length then
        some (n.take t c length (next ((n.queues c).take length)))
      else none
    | none => none

variable {w : Wiring τ κ χ α M} {n n' : ProcNet τ κ χ α ρ M} {t : τ}

/-! ## What a step does -/

theorem step_send {key : κ} {data : List α} {next : Proc κ α ρ} {c : χ}
    (ht : n.procs t = .send key data next) (hc : w.out t key = some c) :
    n.step w t = some (n.put t c data (w.cost c data) next) := by
  rw [step, ht]
  simp only [hc, Option.map_some]

theorem step_recv {key : κ} {length : Nat} {next : List α → Proc κ α ρ} {c : χ}
    (ht : n.procs t = .recv key length next) (hc : w.inn t key = some c)
    (hlen : length ≤ (n.queues c).length) :
    n.step w t = some (n.take t c length (next ((n.queues c).take length))) := by
  rw [step, ht]
  simp only [hc, if_pos hlen]

theorem step_cases (h : n.step w t = some n') :
    (∃ key data next c, n.procs t = .send key data next ∧ w.out t key = some c ∧
      n' = n.put t c data (w.cost c data) next) ∨
    (∃ key length next c, n.procs t = .recv key length next ∧ w.inn t key = some c ∧
      length ≤ (n.queues c).length ∧
      n' = n.take t c length (next ((n.queues c).take length))) := by
  cases ht : n.procs t with
  | done result =>
    rw [step, ht] at h
    cases h
  | send key data next =>
    rw [step, ht] at h
    obtain ⟨c, hc, rfl⟩ := Option.map_eq_some_iff.mp h
    exact .inl ⟨key, data, next, c, rfl, hc, rfl⟩
  | recv key length next =>
    rw [step, ht] at h
    cases hc : w.inn t key with
    | none =>
      simp only [hc] at h
      cases h
    | some c =>
      simp only [hc, Option.ite_none_right_eq_some, Option.some.injEq] at h
      exact .inr ⟨key, length, next, c, rfl, hc, h.1, h.2.symm⟩

/-- The other processes have not moved. -/
theorem procs_of_step (h : n.step w t = some n') {t' : τ} (ht : t' ≠ t) :
    n'.procs t' = n.procs t' := by
  obtain ⟨_, _, _, _, -, -, rfl⟩ | ⟨_, _, _, _, -, -, -, rfl⟩ := step_cases h
  · exact Function.update_of_ne ht _ _
  · exact Function.update_of_ne ht _ _

/-- What holds of all that a process may do holds of all that is left. -/
theorem all_of_step {P : τ → κ → List α → Prop} {Q : τ → κ → Nat → Prop}
    (hn : ∀ t, (n.procs t).All (P t) (Q t)) (h : n.step w t = some n') (t' : τ) :
    (n'.procs t').All (P t') (Q t') := by
  by_cases ht : t' = t
  · subst ht
    have hself := hn t'
    obtain ⟨key, data, next, c, hp, -, rfl⟩ | ⟨key, length, next, c, hp, -, -, rfl⟩ := step_cases h
    · rw [hp] at hself
      rw [put_procs_self]
      exact hself.2
    · rw [hp] at hself
      rw [take_procs_self]
      exact hself.2 _
  · rw [procs_of_step h ht]
    exact hn t'

/-- The tally only grows. -/
theorem tally_of_run {acts : List τ} (h : run (step w) n acts = some n') :
    ∃ x, n'.tally = n.tally + x := by
  refine run_invariant (I := fun m => ∃ x, m.tally = n.tally + x) ?_ ⟨0, (add_zero _).symm⟩ h
  rintro m t m' ⟨x, hx⟩ hstep
  obtain ⟨key, data, next, c, -, -, rfl⟩ | ⟨key, length, next, c, -, -, -, rfl⟩ := step_cases hstep
  · refine ⟨x + w.cost c data, ?_⟩
    rw [← add_assoc, ← hx]
    rfl
  · exact ⟨x, hx⟩

/-! ## The schedule does not matter -/

/-- Only `writer c` sends to the queue `c`, and only `reader c` receives from it. -/
def Owned (w : Wiring τ κ χ α M) (writer reader : χ → τ) (n : ProcNet τ κ χ α ρ M) : Prop :=
  ∀ t, (n.procs t).All (fun key _ => ∀ c, w.out t key = some c → writer c = t)
    (fun key _ => ∀ c, w.inn t key = some c → reader c = t)

variable {writer reader : χ → τ}

theorem owned_step (n : ProcNet τ κ χ α ρ M) (t : τ) (n' : ProcNet τ κ χ α ρ M)
    (hn : Owned w writer reader n) (h : n.step w t = some n') : Owned w writer reader n' :=
  all_of_step hn h

/-- A `send` and a `recv` of different processes. -/
theorem send_recv_commute {t t' : τ} (ht : t ≠ t') {key key' : κ} {data : List α} {l : Nat}
    {next : Proc κ α ρ} {next' : List α → Proc κ α ρ} {c c' : χ}
    (hp : n.procs t = .send key data next) (hc : w.out t key = some c)
    (hp' : n.procs t' = .recv key' l next') (hc' : w.inn t' key' = some c')
    (hl : l ≤ (n.queues c').length) :
    ∃ m, (n.put t c data (w.cost c data) next).step w t' = some m ∧
      (n.take t' c' l (next' ((n.queues c').take l))).step w t = some m := by
  obtain ⟨hl', htake⟩ := take_queues_put n (t := t) (c := c) data (w.cost c data) next hl
  refine ⟨_, step_recv ((put_procs_ne _ _ _ _ ht.symm).trans hp') hc' hl', ?_⟩
  rw [step_send ((take_procs_ne _ _ _ ht).trans hp) hc, htake, put_take _ _ _ _ _ ht hl]

/-- **Steps of different processes commute.** -/
theorem diamond (w : Wiring τ κ χ α M) (writer reader : χ → τ) :
    Diamond (step w : ProcNet τ κ χ α ρ M → τ → Option (ProcNet τ κ χ α ρ M))
      (Owned w writer reader) := by
  intro n t t' n₁ n₂ hn ht h₁ h₂
  have hself := hn t
  have hother := hn t'
  obtain ⟨key, x, next, c, hp, hc, rfl⟩ | ⟨key, l, next, c, hp, hc, hl, rfl⟩ := step_cases h₁
  · obtain ⟨key', x', next', c', hp', hc', rfl⟩ | ⟨key', l', next', c', hp', hc', hl', rfl⟩ :=
      step_cases h₂
    · rw [hp] at hself
      rw [hp'] at hother
      -- two writers have two queues
      have hne : c ≠ c' := by
        rintro rfl
        exact ht ((hself.1 c hc).symm.trans (hother.1 c hc'))
      refine ⟨_, step_send ((put_procs_ne _ _ _ _ ht.symm).trans hp') hc', ?_⟩
      rw [step_send ((put_procs_ne _ _ _ _ ht).trans hp) hc, put_put _ _ _ _ _ _ _ ht hne]
    · exact send_recv_commute ht hp hc hp' hc' hl'
  · obtain ⟨key', x', next', c', hp', hc', rfl⟩ | ⟨key', l', next', c', hp', hc', hl', rfl⟩ :=
      step_cases h₂
    · obtain ⟨m, hm, hm'⟩ := send_recv_commute ht.symm hp' hc' hp hc hl
      exact ⟨m, hm', hm⟩
    · rw [hp] at hself
      rw [hp'] at hother
      have hne : c ≠ c' := by
        rintro rfl
        exact ht ((hself.1 c hc).symm.trans (hother.1 c hc'))
      refine ⟨_, step_recv ((take_procs_ne _ _ _ ht.symm).trans hp') hc'
        (by rwa [take_queues_ne _ _ _ hne.symm]), ?_⟩
      rw [step_recv ((take_procs_ne _ _ _ ht).trans hp) hc (by rwa [take_queues_ne _ _ _ hne]),
        take_take _ _ _ _ _ ht hne, take_queues_ne _ _ _ hne, take_queues_ne _ _ _ hne.symm]

/-! ## The end -/

/-- Every process has ended. -/
def Finished (n : ProcNet τ κ χ α ρ M) : Prop := ∀ t, (n.procs t).result.isSome = true

theorem Finished.stuck (h : n.Finished) : Stuck (step w) n := by
  intro t
  obtain ⟨result, ht⟩ := Option.isSome_iff_exists.mp (h t)
  rw [step, Proc.eq_done ht]

/-- **If the processes can end, they can end from wherever they have come to**, and in one way. -/
theorem run_finishes {u : ProcNet τ κ χ α ρ M} {acts acts' : List τ}
    (hn : Owned w writer reader n) (hu : run (step w) n acts = some u) (hdone : u.Finished)
    (hn' : run (step w) n acts' = some n') :
    ∃ rest, run (step w) n' rest = some u ∧ (acts' ++ rest).Perm acts :=
  run_extends owned_step (diamond w writer reader) hn hu hdone.stuck hn'

end ProcNet

end Rosetta.Lib

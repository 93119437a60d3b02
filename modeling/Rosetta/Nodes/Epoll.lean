import Rosetta.Nodes.Schedule
import Rosetta.Server.ReadAll

/-!
# Programs above the epoll threads

In a `Network` the bytes of a socket come to the node by themselves. Here they arrive, the epoll
thread hears of them and reads them (`Reading`). A run is one of the network with the same calls
(`network_of_run`), so that the schedule does not matter here either. And as no byte is left behind
in a socket, the programs have ended where nothing moves any more (`ends`).

Each connection has an epoll thread for itself, which can do more than the one of its node.
-/

namespace Rosetta

open Lib CycleBuffer

structure PolledNetwork (ν τ κ ρ : Type) where
  procs : τ → Proc (ν × Bytes) UInt8 ρ
  /-- the direction of a connection away from a node, and the socket where it is read -/
  conns : κ × ν → Reading

inductive PolledAct (ν τ κ : Type) where
  | call (t : τ)
  /-- a step of a worker, of a socket or of the epoll thread -/
  | conn (l : κ × ν) (a : ReadAct)

/-- It is no call. -/
def ReadAct.isInternal : ReadAct → Bool
  | .dir a => a.isInternal
  | _ => true

theorem ReadAct.isInternal_of_isOnward {a : ReadAct} (ha : a.isOnward = true) :
    a.isInternal = true := by
  cases a with
  | dir a => exact DirAct.isInternal_of_isNet ha
  | _ => rfl

theorem ReadAct.isInternal_dirActs {a : ReadAct} (ha : a.isInternal = true) :
    ∀ x ∈ a.dirActs, DirAct.isInternal x = true := by
  intro x hx
  cases a with
  | dir y =>
    obtain rfl := List.mem_singleton.mp hx
    exact ha
  | read k =>
    obtain rfl := List.mem_singleton.mp hx
    rfl
  | _ => cases hx

/-- What it does to the network. -/
def PolledAct.netActs {ν τ κ : Type} : PolledAct ν τ κ → List (NetworkAct ν τ κ)
  | .call t => [.call t]
  | .conn l a => a.dirActs.map (.conn l)

/-- Calls, and steps of the workers, of the sockets and of the epoll threads. -/
def PolledAct.isOnward {ν τ κ : Type} : PolledAct ν τ κ → Bool
  | .call _ => true
  | .conn _ a => a.isOnward

namespace PolledNetwork

variable {ν τ κ ρ : Type} [DecidableEq ν] [DecidableEq τ] [DecidableEq κ]

def network (n : PolledNetwork ν τ κ ρ) : Network ν τ κ ρ where
  procs := n.procs
  dirs l := (n.conns l).dir

/-- The calls have left these directions behind. -/
def withNetwork (n : PolledNetwork ν τ κ ρ) (m : Network ν τ κ ρ) : PolledNetwork ν τ κ ρ where
  procs := m.procs
  conns l := { n.conns l with dir := m.dirs l }

def exec (w : Deployment ν τ κ) (n : PolledNetwork ν τ κ ρ) :
    PolledAct ν τ κ → Exec (PolledNetwork ν τ κ ρ)
  | .call t => do
    let m ← n.network.exec w (.call t)
    .ok (n.withNetwork m)
  | .conn l a =>
    if a.isInternal then do
      let s ← (n.conns l).exec a
      .ok { n with conns := Function.update n.conns l s }
    else
      .error .blocked

def step (w : Deployment ν τ κ) (n : PolledNetwork ν τ κ ρ) (a : PolledAct ν τ κ) :
    Option (PolledNetwork ν τ κ ρ) := (n.exec w a).toOption

/-- The epoll threads handle the errors. -/
def Handled (n : PolledNetwork ν τ κ ρ) : PolledAct ν τ κ → Prop
  | .call _ => True
  | .conn l a => (n.conns l).Handled a

/-- The connections are new, and no socket is in an epoll set yet. -/
def Fresh (n : PolledNetwork ν τ κ ρ) : Prop :=
  ∀ l, ∃ d, Direction.new = .ok d ∧ n.conns l = { dir := d }

/-- The connections that are used are open, and their workers run. -/
def Open (w : Deployment ν τ κ) (n : PolledNetwork ν τ κ ρ) : Prop :=
  ∀ a b c, w.connectionMap a b = some c → (n.conns (c, b)).registered = true ∧
    (n.conns (c, b)).fin = false ∧ (n.conns (c, b)).dir.Running

instance (n : PolledNetwork ν τ κ ρ) : DecidablePred n.Handled
  | .call _ => isTrue trivial
  | .conn l a => inferInstanceAs (Decidable ((n.conns l).Handled a))

/-- Nothing moves any more. -/
def AtRest (w : Deployment ν τ κ) (n : PolledNetwork ν τ κ ρ) : Prop :=
  ∀ a, PolledAct.isOnward a = true → n.step w a = none

/-! ## The network -/

variable {w : Deployment ν τ κ} {n n' : PolledNetwork ν τ κ ρ}

theorem step_call {t : τ} : n.step w (.call t) = some n' ↔
    ∃ m, n.network.step w (.call t) = some m ∧ n' = n.withNetwork m := by
  simp only [step, Exec.toOption_eq_some]
  constructor
  · intro h
    obtain ⟨m, hm, h⟩ := Exec.bind_eq_ok.mp h
    exact ⟨m, Exec.toOption_eq_some.mpr hm, (Except.ok.inj h).symm⟩
  · rintro ⟨m, hm, rfl⟩
    exact Exec.bind_eq_ok.mpr ⟨m, Exec.toOption_eq_some.mp hm, rfl⟩

theorem step_conn {l : κ × ν} {a : ReadAct} : n.step w (.conn l a) = some n' ↔
    a.isInternal = true ∧ ∃ s, (n.conns l).step a = some s ∧
      n' = { n with conns := Function.update n.conns l s } := by
  simp only [step, Exec.toOption_eq_some, exec]
  constructor
  · intro h
    split at h
    · next ha =>
      obtain ⟨s, hs, h⟩ := Exec.bind_eq_ok.mp h
      exact ⟨ha, s, Exec.toOption_eq_some.mpr hs, (Except.ok.inj h).symm⟩
    · cases h
  · rintro ⟨ha, s, hs, rfl⟩
    rw [if_pos ha]
    exact Exec.bind_eq_ok.mpr ⟨s, Exec.toOption_eq_some.mp hs, rfl⟩

omit [DecidableEq τ] in
theorem network_update (n : PolledNetwork ν τ κ ρ) (l : κ × ν) (s : Reading) :
    ({ n with conns := Function.update n.conns l s } : PolledNetwork ν τ κ ρ).network
      = n.network.setDir l s.dir := by
  unfold network Network.setDir
  congr
  funext l'
  exact Function.apply_update (fun _ (s : Reading) => s.dir) n.conns l s l'

theorem network_of_step {a : PolledAct ν τ κ} (hstep : n.step w a = some n') :
    run (Network.step w) n.network a.netActs = some n'.network := by
  cases a with
  | call t =>
    obtain ⟨m, hm, rfl⟩ := step_call.mp hstep
    exact run_cons_eq_some.mpr ⟨m, hm, rfl⟩
  | conn l a =>
    obtain ⟨ha, s, hs, rfl⟩ := step_conn.mp hstep
    have hdirs := Reading.direction_of_run (run_cons_eq_some.mpr ⟨s, hs, rfl⟩ :
      run Reading.step (n.conns l) [a] = some s)
    rw [List.flatMap_singleton] at hdirs
    rw [network_update]
    exact Network.run_conn (n := n.network) (ReadAct.isInternal_dirActs ha) hdirs

/-- **A run is one of the network**, with the same calls. -/
theorem network_of_run {acts : List (PolledAct ν τ κ)} (hrun : run (step w) n acts = some n') :
    run (Network.step w) n.network (acts.flatMap PolledAct.netActs) = some n'.network := by
  have hone : ∀ (u : PolledNetwork ν τ κ ρ) (m : Network ν τ κ ρ) (a : PolledAct ν τ κ)
      (u' : PolledNetwork ν τ κ ρ), u.network = m → True → u.step w a = some u' →
      ∃ m', run (Network.step w) m a.netActs = some m' ∧ u'.network = m' := by
    rintro u _ a u' rfl - hstep
    exact ⟨_, network_of_step hstep, rfl⟩
  obtain ⟨m, hm, rfl⟩ := run_simulation_list (P := fun _ _ => True) PolledAct.netActs hone rfl
    (allSteps_of_forall (Q := fun _ => True) (fun _ _ => trivial) n) hrun
  exact hm

/-! ## The connections -/

/-- A call sends on one direction or receives from one. -/
theorem dirs_of_call {m m' : Network ν τ κ ρ} {t : τ} (hstep : m.step w (.call t) = some m')
    (l : κ × ν) : m'.dirs l = m.dirs l ∨
      ∃ a : DirAct, a.isRead = false ∧ (m.dirs l).exec a = .ok (m'.dirs l) := by
  have hset : ∀ {l' : κ × ν} {d : Direction} {a : DirAct} {p : Proc (ν × Bytes) UInt8 ρ},
      a.isRead = false → (m.dirs l').exec a = .ok d → m' = (m.setDir l' d).setProc t p →
      m'.dirs l = m.dirs l ∨
        ∃ a : DirAct, a.isRead = false ∧ (m.dirs l).exec a = .ok (m'.dirs l) := by
    rintro l' d a p ha hd rfl
    by_cases hl : l = l'
    · subst hl
      have hself : ((m.setDir l d).setProc t p).dirs l = d := Function.update_self _ _ _
      exact .inr ⟨a, ha, by rw [hd, hself]⟩
    · exact .inl (Function.update_of_ne hl _ _)
  have hstep : m.exec w (.call t) = .ok m' := Exec.toOption_eq_some.mp hstep
  simp only [Network.exec] at hstep
  split at hstep
  · cases hstep
  · obtain ⟨m₁, hsend, hstep⟩ := Exec.bind_eq_ok.mp hstep
    unfold Network.send at hsend
    split at hsend
    · obtain ⟨d, hd, hsend⟩ := Exec.bind_eq_ok.mp hsend
      obtain rfl := Except.ok.inj hsend
      exact hset rfl hd (Except.ok.inj hstep).symm
    · cases hsend
  · next nodeId id length _ _ =>
    obtain ⟨⟨data, m₁⟩, hrecv, hstep⟩ := Exec.bind_eq_ok.mp hstep
    unfold Network.recv at hrecv
    split at hrecv
    · obtain ⟨⟨ret, data', r⟩, hr, hrecv⟩ := Exec.bind_eq_ok.mp hrecv
      obtain ⟨rfl, rfl⟩ := Prod.mk.inj (Except.ok.inj hrecv)
      exact hset (a := .recv { id, length }) rfl (Exec.bind_eq_ok.mpr ⟨_, hr, rfl⟩)
        (Except.ok.inj hstep).symm
    · cases hrecv

/-- What a step does to one connection. -/
theorem conn_of_step {a : PolledAct ν τ κ} (hstep : n.step w a = some n') (l : κ × ν) :
    n'.conns l = n.conns l ∨
      ∃ x, (n.conns l).step x = some (n'.conns l) ∧ (n.Handled a → (n.conns l).Handled x) := by
  cases a with
  | call t =>
    obtain ⟨m, hm, rfl⟩ := step_call.mp hstep
    rcases dirs_of_call hm l with hsame | ⟨x, hx, hd⟩
    · left
      show ({ n.conns l with dir := m.dirs l } : Reading) = n.conns l
      rw [hsame]
      rfl
    · refine .inr ⟨.dir x, ?_, fun _ => trivial⟩
      refine Exec.toOption_eq_some.mpr ?_
      simp only [Reading.exec, hx, if_true]
      exact Exec.bind_eq_ok.mpr ⟨_, hd, rfl⟩
  | conn l' x =>
    obtain ⟨-, s, hs, rfl⟩ := step_conn.mp hstep
    by_cases hl : l = l'
    · subst hl
      exact .inr ⟨x, by simpa only [Function.update_self] using hs, id⟩
    · exact .inl (Function.update_of_ne hl _ _)

structure Tidy (n : PolledNetwork ν τ κ ρ) : Prop where
  sound : ∀ l, (n.conns l).Sound
  settled : ∀ l, (n.conns l).Settled

omit [DecidableEq ν] [DecidableEq τ] [DecidableEq κ] in
theorem tidy_of_fresh (h : n.Fresh) : n.Tidy := by
  constructor
  · intro l
    obtain ⟨d, -, hd⟩ := h l
    rw [hd]
    exact Reading.sound_start d
  · intro l
    obtain ⟨d, -, hd⟩ := h l
    rw [hd]
    exact Reading.settled_start d

theorem tidy_step (h : n.Tidy) {a : PolledAct ν τ κ} (ha : n.Handled a)
    (hstep : n.step w a = some n') : n'.Tidy := by
  constructor
  · intro l
    rcases conn_of_step hstep l with hsame | ⟨x, hx, -⟩
    · rw [hsame]
      exact h.sound l
    · exact Reading.sound_step (h.sound l) hx
  · intro l
    rcases conn_of_step hstep l with hsame | ⟨x, hx, hhandled⟩
    · rw [hsame]
      exact h.settled l
    · exact (Reading.settled_step (h.sound l) (h.settled l) hx).mpr (hhandled ha)

/-! ## At rest -/

variable {m m' : ProcNet τ (ν × Bytes) ((κ × ν) × Bytes) UInt8 ρ (κ × ν → Nat)}

theorem AtRest.quiet (hrest : n.AtRest w) (l : κ × ν) : (n.conns l).Quiet := by
  intro a ha
  have hnone := hrest (.conn l a) ha
  by_contra hne
  obtain ⟨s, hs⟩ := Option.ne_none_iff_exists'.mp hne
  rw [step_conn.mpr ⟨ReadAct.isInternal_of_isOnward ha, s, hs, rfl⟩] at hnone
  cases hnone

/-- **Where nothing moves any more, no thread can make its call.** -/
theorem stuck_of_rest (h : Network.Matches n.network m) (hsound : n.network.Sound) (htidy : n.Tidy)
    (hopen : n.Open w) (hrest : n.AtRest w) {t : τ} (hstep : m.step w.wiring t = some m')
    (hsize : ∀ l, m'.tally l ≤ 2 ^ 53) : False := by
  have hrunning : n.network.Running w := fun a b c hc => (hopen a b c hc).2.2
  have hcall : ∀ {m₁}, n.network.step w (.call t) ≠ some m₁ := by
    intro m₁ hm₁
    have hnone := hrest (.call t) rfl
    rw [step_call.mpr ⟨m₁, hm₁, rfl⟩] at hnone
    cases hnone
  have ht := hsound t
  have hproc : m.procs t = n.network.procs t := by rw [h.procs]
  obtain ⟨⟨nodeId, id⟩, data, next, q, hp, hq, rfl⟩ |
    ⟨⟨nodeId, id⟩, length, next, q, hp, hq, hlen, rfl⟩ := ProcNet.step_cases hstep
  · obtain ⟨c, hc, rfl⟩ := Option.map_eq_some_iff.mp hq
    have htally := hsize (c, w.home t)
    have hadd : (m.tally + w.wiring.cost ((c, w.home t), id) data) (c, w.home t) ≤ 2 ^ 53 := htally
    rw [Pi.add_apply, w.cost_self] at hadd
    obtain ⟨n', hn', -⟩ := Network.exists_send h hrunning (hproc ▸ hp) hc hadd
    exact hcall hn'
  · obtain ⟨c, hc, rfl⟩ := Option.map_eq_some_iff.mp hq
    rw [← hproc, hp] at ht
    -- everything that was sent is in `mapbuffer_`
    obtain ⟨hreg, hfin, hloops⟩ := hopen _ _ _ hc
    have hqueued := h.dirs (c, nodeId)
    have hlive : Reading.Live (n.conns (c, nodeId)) :=
      ⟨htidy.sound _, hqueued.flow, hreg, hfin⟩
    have hsmall : (n.conns (c, nodeId)).dir.sentSize ≤ 2 ^ 53 := hqueued.size ▸ hsize (c, nodeId)
    have hquiet := hlive.quiet (htidy.settled _) (hrest.quiet _) hsmall
    have hbox := hqueued.box_of_quiet hloops (hsize (c, nodeId)) hquiet id
    obtain ⟨n', hn', -⟩ :=
      Network.exists_recv h hrunning (hproc ▸ hp) hc ht.1 (hbox.symm ▸ hlen)
    exact hcall hn'

variable {writer reader : (κ × ν) × Bytes → τ} {n₀ n₁ n₂ : PolledNetwork ν τ κ ρ}
  {acts₁ acts₂ : List (PolledAct ν τ κ)}

omit [DecidableEq ν] [DecidableEq τ] [DecidableEq κ] in
theorem Fresh.network (h : n.Fresh) : n.network.Fresh := by
  intro l
  obtain ⟨d, hnew, hd⟩ := h l
  show Direction.new = .ok (n.conns l).dir
  rw [hd, hnew]

/--
**Programs above the epoll threads come to their results.**

If all threads have ended in one run, then any other run in which the errors of the sockets are
handled can come to rest only where all of them have ended with the same results, as long as the
connections are open and their workers run.
-/
theorem ends (hfresh : n₀.Fresh) (hsound : n₀.network.Sound)
    (howned : n₀.network.Owned w writer reader) (h₁ : run (step w) n₀ acts₁ = some n₁)
    (hdone : n₁.network.Finished) (hsize : ∀ l, (n₁.conns l).dir.sentSize ≤ 2 ^ 53)
    (h₂ : run (step w) n₀ acts₂ = some n₂) (hhandled : AllSteps (step w) Handled n₀ acts₂)
    (hopen : n₂.Open w) (hrest : n₂.AtRest w) : n₂.procs = n₁.procs := by
  obtain ⟨m₁, hm₁, hmatch₁, -⟩ :=
    Network.simulates hfresh.network hsound (network_of_run h₁)
  obtain ⟨m₂, hm₂, hmatch₂, hsound₂⟩ :=
    Network.simulates hfresh.network hsound (network_of_run h₂)
  have htidy : n₂.Tidy :=
    run_invariant_of (fun _ _ _ h ha hs => tidy_step h ha hs) (tidy_of_fresh hfresh) hhandled h₂
  obtain ⟨rest, hrun, -⟩ := ProcNet.run_finishes howned hm₁ (hmatch₁.finished hdone) hm₂
  cases rest with
  | nil =>
    obtain rfl := Option.some.inj hrun
    exact hmatch₂.procs.trans hmatch₁.procs.symm
  | cons t rest =>
    obtain ⟨m', hstep, hrun⟩ := run_cons_eq_some.mp hrun
    refine (stuck_of_rest hmatch₂ hsound₂ htidy hopen hrest hstep fun l => ?_).elim
    refine (Network.tally_le_of_run hrun l).trans ?_
    rw [(hmatch₁.dirs l).size]
    exact hsize l

section Run

/-- All that was sent is read, and the epoll thread waits. -/
private def idle (s : Reading) : Bool :=
  decide (s.arrived = 0 ∧ s.dir.wire = [] ∧ s.loop = .polling ∧ s.ready = false) &&
    ([.drain, .flush, .take, .store] : List DirAct).all fun x => (s.dir.step x).isNone

private theorem quiet_of_idle {s : Reading} (h : idle s = true) : s.Quiet := by
  simp only [idle, Bool.and_eq_true, decide_eq_true_eq, List.all_cons, List.all_nil,
    Option.isNone_iff_eq_none] at h
  obtain ⟨⟨harrived, hwire, hloop, hready⟩, hdrain, hflush, htake, hstore, -⟩ := h
  intro a ha
  by_contra hne
  obtain ⟨s', hs'⟩ := Option.ne_none_iff_exists'.mp hne
  cases Reading.does_of_step hs' with
  | @dir x d hread hd =>
    have hx : s.dir.step x = some d := Exec.toOption_eq_some.mpr hd
    cases x <;> simp_all [ReadAct.isOnward, DirAct.isNet, DirAct.isRead]
  | _ => simp_all [ReadAct.isOnward]

private def allRead (n : PolledNetwork Bool Bool Unit Bytes) : Bool :=
  decide ((n.procs false).result = some [2] ∧ (n.procs true).result = some [3, 4]) &&
    (idle (n.conns ((), false)) && idle (n.conns ((), true)))

private theorem finished_of_allRead {n : PolledNetwork Bool Bool Unit Bytes}
    (h : allRead n = true) : n.network.Finished := by
  simp only [allRead, Bool.and_eq_true, decide_eq_true_eq] at h
  intro t
  cases t with
  | false => exact Option.isSome_of_mem h.1.1
  | true => exact Option.isSome_of_mem h.1.2

private theorem rest_of_allRead {n : PolledNetwork Bool Bool Unit Bytes}
    (h : allRead n = true) : n.AtRest Network.pair := by
  have hdone := finished_of_allRead h
  simp only [allRead, Bool.and_eq_true] at h
  intro a ha
  by_contra hne
  obtain ⟨n', hn'⟩ := Option.ne_none_iff_exists'.mp hne
  cases a with
  | call t =>
    obtain ⟨m, hm, -⟩ := step_call.mp hn'
    obtain ⟨r, hr⟩ := Option.isSome_iff_exists.mp (hdone t)
    simp only [Network.step, Network.exec, Proc.eq_done hr] at hm
    cases hm
  | conn l a =>
    obtain ⟨-, s, hs, -⟩ := step_conn.mp hn'
    have hquiet : (n.conns l).Quiet := by
      obtain ⟨⟨⟩, b⟩ := l
      cases b with
      | false => exact quiet_of_idle h.2.1
      | true => exact quiet_of_idle h.2.2
    rw [hquiet a ha] at hs
    cases hs

/-- The workers run, and the epoll threads know the sockets. -/
private def opening : List (PolledAct Bool Bool Unit) :=
  [.conn ((), false) (.dir (.sendStart [115])), .conn ((), false) (.dir (.recvStart [116])),
    .conn ((), false) .add, .conn ((), true) (.dir (.sendStart [116])), .conn ((), true) .add,
    .conn ((), true) (.dir (.recvStart [115]))]

private def reply : List (PolledAct Bool Bool Unit) :=
  [.call true, .conn ((), true) (.dir .drain), .conn ((), true) (.dir .flush),
    .conn ((), true) (.arrive 11), .conn ((), true) .epollWait, .conn ((), true) .handle,
    .conn ((), true) (.read 11), .conn ((), true) .readAgain, .conn ((), true) (.dir .take),
    .conn ((), true) (.dir .store), .call false]

private def whole : List (PolledAct Bool Bool Unit) :=
  opening ++ [.call false, .conn ((), false) (.dir .drain), .conn ((), false) (.dir .flush),
    .conn ((), false) (.arrive 12), .conn ((), false) .epollWait, .conn ((), false) .handle,
    .conn ((), false) (.read 12), .conn ((), false) .readAgain, .conn ((), false) (.dir .take),
    .conn ((), false) (.dir .store), .call true] ++ reply

/-- The second part arrives while the thread is on its way to read the first one. -/
private def halves : List (PolledAct Bool Bool Unit) :=
  .call false :: opening ++ [.conn ((), false) (.dir .drain), .conn ((), false) (.dir .flush),
    .conn ((), false) (.arrive 5), .conn ((), false) .epollWait, .conn ((), false) (.arrive 7),
    .conn ((), false) .handle, .conn ((), false) (.read 12), .conn ((), false) .readAgain,
    .conn ((), false) (.dir .take), .conn ((), false) .epollWait, .conn ((), false) (.dir .store),
    .call true] ++ reply

private def start (d : Direction) : PolledNetwork Bool Bool Unit Bytes :=
  ⟨Network.counter, fun _ => { dir := d }⟩

/-- Two schedules, and in the second one the first message arrives in two parts. -/
theorem ends_small : ∃ (acts₁ acts₂ : List (PolledAct Bool Bool Unit))
    (n₀ n₁ n₂ : PolledNetwork Bool Bool Unit Bytes), n₀.Fresh ∧ n₀.network.Sound ∧
    n₀.network.Owned Network.pair (fun q => q.1.2) (fun q => !q.1.2) ∧
    run (step Network.pair) n₀ acts₁ = some n₁ ∧ n₁.network.Finished ∧
    (∀ l, (n₁.conns l).dir.sentSize ≤ 2 ^ 53) ∧ run (step Network.pair) n₀ acts₂ = some n₂ ∧
    AllSteps (step Network.pair) Handled n₀ acts₂ ∧ n₂.Open Network.pair ∧
    n₂.AtRest Network.pair ∧ n₁.procs false = .done [2] ∧ n₂.procs = n₁.procs := by
  obtain ⟨d₀, hnew, hview₁, hhandled, hview₂⟩ : ∃ d₀, Direction.new = .ok d₀ ∧
      (run (step Network.pair) (start d₀) whole).any (fun n => allRead n &&
        decide ((n.conns ((), false)).dir.sentSize ≤ 2 ^ 53 ∧
          (n.conns ((), true)).dir.sentSize ≤ 2 ^ 53)) = true ∧
      AllSteps (step Network.pair) Handled (start d₀) halves ∧
      (run (step Network.pair) (start d₀) halves).any (fun n => allRead n &&
        decide (((n.conns ((), false)).registered = true ∧ (n.conns ((), false)).fin = false ∧
          (n.conns ((), false)).dir.Running) ∧ (n.conns ((), true)).registered = true ∧
          (n.conns ((), true)).fin = false ∧ (n.conns ((), true)).dir.Running)) = true :=
    ⟨_, rfl, by decide, by decide, by decide⟩
  obtain ⟨n₁, h₁, hend₁⟩ := (Option.any_eq_true _ _).mp hview₁
  obtain ⟨n₂, h₂, hend₂⟩ := (Option.any_eq_true _ _).mp hview₂
  simp only [Bool.and_eq_true, decide_eq_true_eq] at hend₁ hend₂
  have hsize : ∀ l, (n₁.conns l).dir.sentSize ≤ 2 ^ 53 := by
    rintro ⟨⟨⟩, a⟩
    cases a with
    | false => exact hend₁.2.1
    | true => exact hend₁.2.2
  have hopen : n₂.Open Network.pair := by
    rintro a b ⟨⟩ -
    cases b with
    | false => exact hend₂.2.1
    | true => exact hend₂.2.2
  have hfresh : (start d₀).Fresh := fun _ => ⟨d₀, hnew, rfl⟩
  have hsound : (start d₀).network.Sound := Network.counter_sound d₀
  have hfinished := finished_of_allRead hend₁.1
  have hrest := rest_of_allRead hend₂.1
  have hdone := hend₁.1
  simp only [allRead, Bool.and_eq_true, decide_eq_true_eq] at hdone
  exact ⟨whole, halves, start d₀, n₁, n₂, hfresh, hsound, Network.counter_owned d₀, h₁, hfinished,
    hsize, h₂, hhandled, hopen, hrest, Proc.eq_done hdone.1.1,
    ends hfresh hsound (Network.counter_owned d₀) h₁ hfinished hsize h₂ hhandled hopen hrest⟩

end Run

end PolledNetwork

end Rosetta

import Rosetta.Nodes.Network

/-!
# The schedule does not matter

A run of the network is one of the queues, and those have one end only. In the other direction, each
step of the queues can be made in the network when its loops have done their work.

* `simulates` — a run of the network is one of the queues
* `same_results` — the threads end with the same results in all runs
* `never_stuck` — if they can all end in some run, they can always still end
-/

namespace Rosetta

open Lib CycleBuffer

/-! ## Runs -/

/-- The threads that make a call in an action. -/
def NetworkAct.calls {ν τ κ : Type} : NetworkAct ν τ κ → List τ
  | .call t => [t]
  | .conn _ _ => []

namespace Network

variable {ν τ κ ρ : Type} [DecidableEq ν] [DecidableEq τ] [DecidableEq κ]
  {w : Deployment ν τ κ} {n n' : Network ν τ κ ρ}
  {m m' : ProcNet τ (ν × Bytes) ((κ × ν) × Bytes) UInt8 ρ (κ × ν → Nat)}

/-- **A step of the network is one of the queues, or none.** -/
theorem matches_step (h : Matches n m) (hsound : n.Sound) {a : NetworkAct ν τ κ}
    (hstep : n.step w a = some n') :
    ∃ m', run (ProcNet.step w.wiring) m a.calls = some m' ∧ Matches n' m' := by
  have hstep : n.exec w a = .ok n' := Exec.toOption_eq_some.mp hstep
  cases a with
  | call t =>
    have ht := hsound t
    have hproc : m.procs t = n.procs t := by rw [h.procs]
    simp only [exec] at hstep
    cases hp : n.procs t with
    | done result =>
      rw [hp] at hstep
      cases hstep
    | send key data next =>
      rw [hp] at hstep ht hproc
      obtain ⟨n₁, hsend, hstep⟩ := Exec.bind_eq_ok.mp hstep
      obtain rfl := Except.ok.inj hstep
      unfold Network.send at hsend
      split at hsend
      · next c hc =>
        obtain ⟨d, hd, hsend⟩ := Exec.bind_eq_ok.mp hsend
        obtain rfl := Except.ok.inj hsend
        refine ⟨_, run_cons_eq_some.mpr ⟨_, ProcNet.step_send hproc ?_, rfl⟩,
          matches_send h ht.1 hd⟩
        simp only [Deployment.wiring, hc, Option.map_some]
      · cases hsend
    | recv key length next =>
      rw [hp] at hstep hproc
      obtain ⟨⟨data, n₁⟩, hrecv, hstep⟩ := Exec.bind_eq_ok.mp hstep
      obtain rfl := Except.ok.inj hstep
      unfold Network.recv at hrecv
      split at hrecv
      · next c hc =>
        obtain ⟨⟨ret, data', r⟩, hr, hrecv⟩ := Exec.bind_eq_ok.mp hrecv
        obtain ⟨rfl, rfl⟩ := Prod.mk.inj (Except.ok.inj hrecv)
        obtain ⟨hlen, hm⟩ := matches_recv h (t := t) hr
        refine ⟨_, run_cons_eq_some.mpr ⟨_, ProcNet.step_recv hproc ?_ hlen, rfl⟩, hm⟩
        simp only [Deployment.wiring, hc, Option.map_some]
      · cases hrecv
  | conn l a =>
    simp only [exec] at hstep
    split at hstep
    · next ha =>
      obtain ⟨d, hd, hstep⟩ := Exec.bind_eq_ok.mp hstep
      obtain rfl := Except.ok.inj hstep
      exact ⟨m, rfl, h.setDir ((h.dirs l).internal ha hd)⟩
    · cases hstep

/-- **A run of the network is a run of the queues**, with the same calls in the same order. -/
theorem simulates {n₀ : Network ν τ κ ρ} {acts : List (NetworkAct ν τ κ)} (hfresh : n₀.Fresh)
    (hsound : n₀.Sound) (hrun : run (step w) n₀ acts = some n) :
    ∃ m, run (ProcNet.step w.wiring) n₀.abstract (acts.flatMap NetworkAct.calls) = some m ∧
      Matches n m ∧ n.Sound := by
  refine run_simulation_list (P := fun _ _ => True)
    (R := fun n m => Matches n m ∧ n.Sound) NetworkAct.calls ?_
    ⟨matches_abstract hfresh, hsound⟩
    (allSteps_of_forall (Q := fun _ => True) (fun _ _ => trivial) n₀) hrun
  rintro n m a n' ⟨h, hs⟩ - hstep
  obtain ⟨m', hm', h'⟩ := matches_step h hs hstep
  refine ⟨m', hm', h', ?_⟩
  have hall : ∀ t, (m'.procs t).All (fun key data => (DirAct.send key.2 data).Sendable)
      fun _ length => 0 < length :=
    run_invariant (I := fun m => ∀ t, (m.procs t).All
        (fun key data => (DirAct.send key.2 data).Sendable) fun _ length => 0 < length)
      (fun _ _ _ hn hstep t => ProcNet.all_of_step hn hstep t) (fun t => h.procs ▸ hs t) hm'
  intro t
  rw [h'.procs]
  exact hall t

/-- One thread sends over a direction with an id, and one receives. -/
def Owned (w : Deployment ν τ κ) (writer reader : (κ × ν) × Bytes → τ)
    (n : Network ν τ κ ρ) : Prop := ProcNet.Owned w.wiring writer reader n.abstract

def Finished (n : Network ν τ κ ρ) : Prop := ∀ t, (n.procs t).result.isSome = true

variable {writer reader : (κ × ν) × Bytes → τ} {n₀ n₁ n₂ : Network ν τ κ ρ}
  {acts₁ acts₂ : List (NetworkAct ν τ κ)}

omit [DecidableEq ν] [DecidableEq τ] [DecidableEq κ] in
theorem Matches.finished (h : Matches n m) (hn : n.Finished) : m.Finished := by
  intro t
  rw [← h.procs]
  exact hn t

/-- Two runs to the end do the same to the queues. -/
theorem exists_same_end (hfresh : n₀.Fresh) (hsound : n₀.Sound)
    (howned : n₀.Owned w writer reader) (h₁ : run (step w) n₀ acts₁ = some n₁)
    (hdone₁ : n₁.Finished) (h₂ : run (step w) n₀ acts₂ = some n₂) (hdone₂ : n₂.Finished) :
    ∃ m, Matches n₁ m ∧ Matches n₂ m := by
  obtain ⟨m₁, hm₁, hmatch₁, -⟩ := simulates hfresh hsound h₁
  obtain ⟨m₂, hm₂, hmatch₂, -⟩ := simulates hfresh hsound h₂
  have hend : m₂ = m₁ := run_end_unique ProcNet.owned_step
    (ProcNet.diamond w.wiring writer reader) howned hm₁ (hmatch₁.finished hdone₁).stuck hm₂
    (hmatch₂.finished hdone₂).stuck
  exact ⟨m₁, hmatch₁, hend ▸ hmatch₂⟩

/--
**The results do not depend on the schedule.**

If each id is used by one thread at either end of a direction, the threads end with the same
results in any two runs, whatever the workers and sockets of the connections have done in between.
-/
theorem same_results (hfresh : n₀.Fresh) (hsound : n₀.Sound) (howned : n₀.Owned w writer reader)
    (h₁ : run (step w) n₀ acts₁ = some n₁) (hdone₁ : n₁.Finished)
    (h₂ : run (step w) n₀ acts₂ = some n₂) (hdone₂ : n₂.Finished) : n₂.procs = n₁.procs := by
  obtain ⟨m, hm₁, hm₂⟩ := exists_same_end hfresh hsound howned h₁ hdone₁ h₂ hdone₂
  rw [hm₁.procs, hm₂.procs]

/-! ## Progress -/

/-- The workers run that bring something to a node which uses their connection. -/
def Running (w : Deployment ν τ κ) (n : Network ν τ κ ρ) : Prop :=
  ∀ a b c, w.connectionMap a b = some c → (n.dirs (c, b)).Running

end Network

/-- Calls, and steps of the loops and of the sockets. -/
def NetworkAct.isOnward {ν τ κ : Type} : NetworkAct ν τ κ → Bool
  | .call _ => true
  | .conn _ a => a.isNet

theorem DirAct.isInternal_of_isNet {a : DirAct} (ha : a.isNet = true) : a.isInternal = true := by
  cases a with
  | drain | flush | deliver | take | store => rfl
  | send | sendStart | sendStop | recvStart | recvStop | recv => cases ha

namespace Network

variable {ν τ κ ρ : Type} [DecidableEq ν] [DecidableEq τ] [DecidableEq κ]
  {w : Deployment ν τ κ} {n n' : Network ν τ κ ρ}
  {m m' : ProcNet τ (ν × Bytes) ((κ × ν) × Bytes) UInt8 ρ (κ × ν → Nat)}

omit [DecidableEq τ] in
theorem Running.setDir (h : n.Running w) {l : κ × ν} {d : Direction}
    (hd : (n.dirs l).Running → d.Running) : (n.setDir l d).Running w := by
  intro a b c hc
  by_cases hl : (c, b) = l
  · subst hl
    simpa only [Network.setDir, Function.update_self] using hd (h a b c hc)
  · simpa only [Network.setDir, Function.update_of_ne hl] using h a b c hc

/-- A `send` is possible while there is memory for it. -/
theorem exists_send (h : Matches n m) (hrun : n.Running w) {t : τ} {nodeId : ν} {id data : Bytes}
    {next : Proc (ν × Bytes) UInt8 ρ} {c : κ} (hp : n.procs t = .send (nodeId, id) data next)
    (hc : w.connectionMap (w.home t) nodeId = some c)
    (hsize : m.tally (c, w.home t) + frameLen id data ≤ 2 ^ 53) :
    ∃ n', n.step w (.call t) = some n' ∧ n'.Running w := by
  have hq := h.dirs (c, w.home t)
  obtain ⟨stored, hand, pend, hflow⟩ := hq.flow
  have hbuffer := hflow.size_le.1
  rw [hq.size] at hsize
  have hfits : (n.dirs (c, w.home t)).snd.sendBuffer.size + frameLen id data ≤ 2 ^ 54 := by omega
  obtain ⟨d, hd⟩ := Direction.exec_send hflow.sendInv hfits
  refine ⟨(n.setDir (c, w.home t) d).setProc t next, Exec.toOption_eq_some.mpr ?_, ?_⟩
  · simp only [exec, hp, Network.send, hc, hd, Exec.ok_bind]
  · refine hrun.setDir fun hloops => ?_
    obtain ⟨s, hs, hd⟩ := Exec.bind_eq_ok.mp hd
    obtain rfl := Except.ok.inj hd
    obtain ⟨-, -, -, hloop⟩ := SendHalf.send_ok hflow.sendInv hs
    exact ⟨hloop ▸ hloops.1, hloops.2⟩

/-- The loops and the socket of one direction go on. -/
theorem run_conn {l : κ × ν} {acts : List DirAct} (hacts : ∀ a ∈ acts, DirAct.isInternal a = true) :
    ∀ {n : Network ν τ κ ρ} {d : Direction}, run Direction.step (n.dirs l) acts = some d →
      run (step w) n (acts.map (NetworkAct.conn l)) = some (n.setDir l d) := by
  induction acts with
  | nil =>
    intro n d hrun
    obtain rfl := Option.some.inj hrun
    exact congrArg some (congrArg (fun dirs => { n with dirs }) (Function.update_eq_self l _).symm)
  | cons a acts ih =>
    intro n d hrun
    obtain ⟨d₁, hd₁, hrun⟩ := run_cons_eq_some.mp hrun
    have hinternal := hacts a List.mem_cons_self
    have hstep : n.step w (.conn l a) = some (n.setDir l d₁) := by
      refine Exec.toOption_eq_some.mpr ?_
      rw [exec, if_pos hinternal, Exec.toOption_eq_some.mp hd₁]
      rfl
    have hself : (n.setDir l d₁).dirs l = d₁ := Function.update_self _ _ _
    have hrest := ih (fun b hb => hacts b (List.mem_cons_of_mem _ hb)) (n := n.setDir l d₁)
      (d := d) (by rwa [hself])
    refine run_cons_eq_some.mpr ⟨_, hstep, ?_⟩
    rw [hrest]
    simp only [setDir, Function.update_idem]

/-- The loops bring everything that was sent over a direction to `mapbuffer_`. -/
theorem exists_drained (h : Matches n m) (hrun : n.Running w) {a b : ν} {c : κ}
    (hc : w.connectionMap a b = some c) (hsize : m.tally (c, b) ≤ 2 ^ 53) :
    ∃ acts n₁, (∀ x ∈ acts, NetworkAct.isOnward x = true) ∧ run (step w) n acts = some n₁ ∧
      Matches n₁ m ∧ n₁.procs = n.procs ∧ n₁.Running w ∧
      ∀ id, box (n₁.dirs (c, b)).rcv.mapbuffer id = m.queues ((c, b), id) := by
  have hq := h.dirs (c, b)
  obtain ⟨acts, d, hacts, hd, hquiet⟩ := Direction.exists_quiet hq.flow
  obtain ⟨⟨stored, hand, pend, hflow⟩, hsent, hreceived, hloops⟩ :=
    Direction.run_net hacts hq.flow hd
  have hqueued : Queued d (fun id => m.queues ((c, b), id)) (m.tally (c, b)) := by
    refine ⟨⟨stored, hand, pend, hflow⟩, ?_, ?_⟩
    · rw [hsent, hreceived]
      exact hq.queue
    · rw [hq.size, Direction.sentSize, Direction.sentSize, hsent]
  have hinternal : ∀ a ∈ acts, DirAct.isInternal a = true :=
    fun a ha => DirAct.isInternal_of_isNet (hacts a ha)
  refine ⟨acts.map (.conn (c, b)), n.setDir (c, b) d, ?_, run_conn hinternal hd, h.setDir hqueued,
    rfl, hrun.setDir hloops, fun id => ?_⟩
  · intro x hx
    obtain ⟨y, hy, rfl⟩ := List.mem_map.mp hx
    exact hacts y hy
  · have hself : (n.setDir (c, b) d).dirs (c, b) = d := Function.update_self _ _ _
    rw [hself]
    exact hqueued.box_of_quiet (hloops (hrun a b c hc)) hsize hquiet id

/-- A `recv` is possible when enough waits for it. -/
theorem exists_recv (h : Matches n m) (hrun : n.Running w) {t : τ} {nodeId : ν} {id : Bytes}
    {length : Nat} {next : List UInt8 → Proc (ν × Bytes) UInt8 ρ} {c : κ}
    (hp : n.procs t = .recv (nodeId, id) length next)
    (hc : w.connectionMap (w.home t) nodeId = some c) (hpos : 0 < length)
    (hlen : length ≤ (box (n.dirs (c, nodeId)).rcv.mapbuffer id).length) :
    ∃ n', n.step w (.call t) = some n' ∧ n'.Running w := by
  obtain ⟨stored, hand, pend, hflow⟩ := (h.dirs (c, nodeId)).flow
  obtain ⟨d, hd⟩ : ∃ d, (n.dirs (c, nodeId)).exec (.recv { id, length }) = .ok d :=
    Direction.exec_recv hflow.boxInv hpos hlen
  obtain ⟨⟨ret, data, r⟩, hr, -⟩ := Exec.bind_eq_ok.mp hd
  obtain ⟨-, -, -, hr'⟩ := RecvHalf.recv_ok hflow.boxInv hr
  have hrecv : n.recv w (w.home t) nodeId id length = .ok (data, n.setDir (c, nodeId)
      { n.dirs (c, nodeId) with
        rcv := r, received := (n.dirs (c, nodeId)).received ++ [(id, data)] }) := by
    simp only [Network.recv, hc, hr, Exec.ok_bind]
  refine ⟨_, Exec.toOption_eq_some.mpr (by simp only [exec, hp, hrecv, Exec.ok_bind]; rfl), ?_⟩
  refine hrun.setDir fun hloops => ?_
  rw [hr']
  exact hloops

/-- **Every step of the queues can be made in the network**, when the loops have done their work. -/
theorem exists_call (h : Matches n m) (hsound : n.Sound) (hrun : n.Running w) {t : τ}
    (hstep : m.step w.wiring t = some m') (hsize : ∀ l, m'.tally l ≤ 2 ^ 53) :
    ∃ acts n', (∀ a ∈ acts, NetworkAct.isOnward a = true) ∧ run (step w) n acts = some n' ∧
      Matches n' m' ∧ n'.Running w ∧ n'.Sound := by
  have hcall : ∀ {acts : List (NetworkAct ν τ κ)} {n₁ n' : Network ν τ κ ρ},
      (∀ a ∈ acts, NetworkAct.isOnward a = true) → run (step w) n acts = some n₁ →
      Matches n₁ m → n₁.procs = n.procs → n₁.step w (.call t) = some n' → n'.Running w →
      ∃ acts n', (∀ a ∈ acts, NetworkAct.isOnward a = true) ∧ run (step w) n acts = some n' ∧
        Matches n' m' ∧ n'.Running w ∧ n'.Sound := by
    intro acts n₁ n' hacts hn₁ hm₁ hprocs hn' hrunning
    have hsound₁ : n₁.Sound := by
      unfold Sound
      rw [hprocs]
      exact hsound
    obtain ⟨m'', hm'', hmatch⟩ := matches_step hm₁ hsound₁ hn'
    obtain ⟨m₁, hm₁', hnil⟩ := run_cons_eq_some.mp hm''
    obtain rfl := Option.some.inj hnil
    obtain rfl := Option.some.inj (hstep.symm.trans hm₁')
    refine ⟨acts ++ [.call t], n', ?_, run_append_eq_some.mpr ⟨n₁, hn₁, ?_⟩, hmatch, hrunning, ?_⟩
    · intro a ha
      rcases List.mem_append.mp ha with ha | ha
      · exact hacts a ha
      · rw [List.mem_singleton.mp ha]
        rfl
    · exact run_cons_eq_some.mpr ⟨n', hn', rfl⟩
    · intro t'
      rw [hmatch.procs]
      exact ProcNet.all_of_step (fun t => hm₁.procs ▸ hsound₁ t) hstep t'
  have ht := hsound t
  have hproc : m.procs t = n.procs t := by rw [h.procs]
  obtain ⟨⟨nodeId, id⟩, data, next, q, hp, hq, rfl⟩ |
    ⟨⟨nodeId, id⟩, length, next, q, hp, hq, hlen, rfl⟩ := ProcNet.step_cases hstep
  · obtain ⟨c, hc, rfl⟩ := Option.map_eq_some_iff.mp hq
    have htally := hsize (c, w.home t)
    have hadd : (m.tally + w.wiring.cost ((c, w.home t), id) data) (c, w.home t) ≤ 2 ^ 53 := htally
    rw [Pi.add_apply, w.cost_self] at hadd
    obtain ⟨n', hn', hrunning⟩ := exists_send h hrun (hproc ▸ hp) hc hadd
    have hnone : ∀ a ∈ ([] : List (NetworkAct ν τ κ)), NetworkAct.isOnward a = true := by simp
    exact hcall hnone rfl h rfl hn' hrunning
  · obtain ⟨c, hc, rfl⟩ := Option.map_eq_some_iff.mp hq
    rw [← hproc, hp] at ht
    obtain ⟨acts, n₁, hacts, hn₁, hm₁, hprocs, hrun₁, hbox⟩ :=
      exists_drained h hrun hc (hsize (c, nodeId))
    obtain ⟨n', hn', hrunning⟩ := exists_recv hm₁ hrun₁ ((congrFun hprocs t).trans (hproc ▸ hp)) hc
      ht.1 ((hbox id).symm ▸ hlen)
    exact hcall hacts hn₁ hm₁ hprocs hn' hrunning

/-- What has been sent is less than what will have been sent in the end. -/
theorem tally_le_of_run {acts : List τ} (hrun : run (ProcNet.step w.wiring) m acts = some m')
    (l : κ × ν) : m.tally l ≤ m'.tally l := by
  obtain ⟨x, hx⟩ := ProcNet.tally_of_run hrun
  rw [hx, Pi.add_apply]
  exact Nat.le_add_right _ _

/-- Every run of the queues can be made in the network. -/
theorem exists_run {acts : List τ}
    {u : ProcNet τ (ν × Bytes) ((κ × ν) × Bytes) UInt8 ρ (κ × ν → Nat)} (h : Matches n m)
    (hsound : n.Sound) (hrun : n.Running w) (hu : run (ProcNet.step w.wiring) m acts = some u)
    (hsize : ∀ l, u.tally l ≤ 2 ^ 53) :
    ∃ acts' n', (∀ a ∈ acts', NetworkAct.isOnward a = true) ∧ run (step w) n acts' = some n' ∧
      Matches n' u := by
  induction acts generalizing n m with
  | nil =>
    obtain rfl := Option.some.inj hu
    exact ⟨[], n, by simp, rfl, h⟩
  | cons t acts ih =>
    obtain ⟨m', hstep, hu⟩ := run_cons_eq_some.mp hu
    obtain ⟨acts₁, n', hacts₁, hn', hm', hrun', hsound'⟩ :=
      exists_call h hsound hrun hstep fun l => (tally_le_of_run hu l).trans (hsize l)
    obtain ⟨acts₂, n'', hacts₂, hn'', hm''⟩ := ih hm' hsound' hrun' hu
    refine ⟨acts₁ ++ acts₂, n'', ?_, run_append_eq_some.mpr ⟨n', hn', hn''⟩, hm''⟩
    intro a ha
    exact (List.mem_append.mp ha).elim (hacts₁ a) (hacts₂ a)

variable {writer reader : (κ × ν) × Bytes → τ} {n₀ n₁ n₂ : Network ν τ κ ρ}
  {acts₁ acts₂ : List (NetworkAct ν τ κ)}

/-- A run goes on to the end that the queues have in another one. -/
theorem exists_onward (hfresh : n₀.Fresh) (hsound : n₀.Sound) (howned : n₀.Owned w writer reader)
    (h₁ : run (step w) n₀ acts₁ = some n₁) (hdone : n₁.Finished)
    (hsize : ∀ l, (n₁.dirs l).sentSize ≤ 2 ^ 53) (h₂ : run (step w) n₀ acts₂ = some n₂)
    (hrunning : n₂.Running w) :
    ∃ acts₃ n₃ m, (∀ a ∈ acts₃, NetworkAct.isOnward a = true) ∧
      run (step w) n₂ acts₃ = some n₃ ∧ Matches n₁ m ∧ Matches n₃ m := by
  obtain ⟨m₁, hm₁, hmatch₁, -⟩ := simulates hfresh hsound h₁
  obtain ⟨m₂, hm₂, hmatch₂, hsound₂⟩ := simulates hfresh hsound h₂
  obtain ⟨rest, hrest, -⟩ :=
    ProcNet.run_finishes howned hm₁ (hmatch₁.finished hdone) hm₂
  obtain ⟨acts₃, n₃, hacts₃, hn₃, hmatch₃⟩ := exists_run hmatch₂ hsound₂ hrunning hrest fun l => by
    rw [(hmatch₁.dirs l).size]
    exact hsize l
  exact ⟨acts₃, n₃, m₁, hacts₃, hn₃, hmatch₁, hmatch₃⟩

/--
**Programs that can end do not get stuck.**

If all threads have ended in one run, then from every state that any other run has come to, with the
workers running, they can go on until all of them have ended, and with the same results. Less than
2 ^ 53 bytes are sent over each direction.
-/
theorem never_stuck (hfresh : n₀.Fresh) (hsound : n₀.Sound) (howned : n₀.Owned w writer reader)
    (h₁ : run (step w) n₀ acts₁ = some n₁) (hdone : n₁.Finished)
    (hsize : ∀ l, (n₁.dirs l).sentSize ≤ 2 ^ 53) (h₂ : run (step w) n₀ acts₂ = some n₂)
    (hrunning : n₂.Running w) :
    ∃ acts₃ n₃, (∀ a ∈ acts₃, NetworkAct.isOnward a = true) ∧ run (step w) n₂ acts₃ = some n₃ ∧
      n₃.procs = n₁.procs := by
  obtain ⟨acts₃, n₃, m, hacts₃, hn₃, hm₁, hm₃⟩ :=
    exists_onward hfresh hsound howned h₁ hdone hsize h₂ hrunning
  exact ⟨acts₃, n₃, hacts₃, hn₃, by rw [hm₃.procs, hm₁.procs]⟩

section Run

/-- Two nodes with one connection and a thread each. -/
def pair : Deployment Bool Bool Unit where
  home := id
  connectionMap a b := if a = b then none else some ()

/-- One thread sends two bytes and is told how many have come. -/
def counter : Bool → Proc (Bool × Bytes) UInt8 Bytes
  | false => .send (true, [97]) [3, 4] (.recv (true, [98]) 1 .done)
  | true => .recv (false, [97]) 2 fun x => .send (false, [98]) [x.length.toUInt8] (.done x)

theorem counter_sound (d : Direction) :
    Sound (⟨counter, fun _ => d⟩ : Network Bool Bool Unit Bytes) := by
  intro t
  cases t with
  | false => exact ⟨by decide, by decide, fun _ => trivial⟩
  | true => exact ⟨by decide, fun x => ⟨⟨by decide, .inl (by decide)⟩, trivial⟩⟩

theorem counter_owned (d : Direction) :
    Owned pair (fun q => q.1.2) (fun q => !q.1.2) ⟨counter, fun _ => d⟩ := by
  intro t
  cases t with
  | false =>
    refine ⟨fun c hc => ?_, fun c hc => ?_, fun _ => trivial⟩
    · obtain rfl := Option.some.inj hc
      rfl
    · obtain rfl := Option.some.inj hc
      rfl
  | true =>
    refine ⟨fun c hc => ?_, fun x => ⟨fun c hc => ?_, trivial⟩⟩
    · obtain rfl := Option.some.inj hc
      rfl
    · obtain rfl := Option.some.inj hc
      rfl

/-- The workers start, and the first message is sent. -/
private def early : List (NetworkAct Bool Bool Unit) :=
  [.conn ((), false) (.sendStart [115]), .conn ((), false) (.recvStart [116]), .call false,
    .conn ((), true) (.sendStart [116]), .conn ((), true) (.recvStart [115])]

private def late : List (NetworkAct Bool Bool Unit) :=
  [.conn ((), false) .drain, .conn ((), false) .flush, .conn ((), false) (.deliver 12),
    .conn ((), false) .take, .conn ((), false) .store, .call true, .call true,
    .conn ((), true) .drain, .conn ((), true) .flush, .conn ((), true) (.deliver 11),
    .conn ((), true) .take, .conn ((), true) .store, .call false]

/-- The same, but the first message arrives in two pieces before the workers of the other direction
run. -/
private def pieces : List (NetworkAct Bool Bool Unit) :=
  [.call false, .conn ((), false) (.sendStart [115]), .conn ((), false) .drain,
    .conn ((), false) .flush, .conn ((), false) (.deliver 5), .conn ((), false) (.recvStart [116]),
    .conn ((), false) (.deliver 7), .conn ((), false) .take, .conn ((), false) .store, .call true,
    .conn ((), true) (.sendStart [116]), .conn ((), true) (.recvStart [115]), .call true,
    .conn ((), true) .drain, .conn ((), true) .flush, .conn ((), true) (.deliver 11),
    .conn ((), true) .take, .conn ((), true) .store, .call false]

private def ended (n : Network Bool Bool Unit Bytes) : Bool :=
  decide ((n.procs false).result = some [2]) && decide ((n.procs true).result = some [3, 4])

private theorem finished_of_ended {n : Network Bool Bool Unit Bytes} (h : ended n = true) :
    n.Finished := by
  simp only [ended, Bool.and_eq_true, decide_eq_true_eq] at h
  intro t
  cases t with
  | false => rw [h.1]; rfl
  | true => rw [h.2]; rfl

/-- Two schedules of two threads. -/
theorem same_results_small : ∃ (acts₁ acts₂ : List (NetworkAct Bool Bool Unit))
    (n₀ n₁ n₂ : Network Bool Bool Unit Bytes), n₀.Fresh ∧ n₀.Sound ∧
    n₀.Owned pair (fun q => q.1.2) (fun q => !q.1.2) ∧ run (step pair) n₀ acts₁ = some n₁ ∧
    n₁.Finished ∧ run (step pair) n₀ acts₂ = some n₂ ∧ n₂.Finished ∧
    n₁.procs false = .done [2] ∧ n₂.procs = n₁.procs := by
  obtain ⟨d₀, hnew, hview⟩ : ∃ d₀, Direction.new = .ok d₀ ∧
      (run (step pair) ⟨counter, fun _ => d₀⟩ (early ++ late)).any ended = true ∧
      (run (step pair) ⟨counter, fun _ => d₀⟩ pieces).any ended = true :=
    ⟨_, rfl, by decide, by decide⟩
  obtain ⟨n₁, h₁, hend₁⟩ := (Option.any_eq_true _ _).mp hview.1
  obtain ⟨n₂, h₂, hend₂⟩ := (Option.any_eq_true _ _).mp hview.2
  have hfresh : (⟨counter, fun _ => d₀⟩ : Network Bool Bool Unit Bytes).Fresh := fun _ => hnew
  have hdone₁ := finished_of_ended hend₁
  have hdone₂ := finished_of_ended hend₂
  refine ⟨early ++ late, pieces, _, n₁, n₂, hfresh, counter_sound d₀, counter_owned d₀, h₁, hdone₁,
    h₂, hdone₂, ?_, same_results hfresh (counter_sound d₀) (counter_owned d₀) h₁ hdone₁ h₂ hdone₂⟩
  simp only [ended, Bool.and_eq_true, decide_eq_true_eq] at hend₁
  exact Proc.eq_done hend₁.1

/-- From a state in which nothing has arrived yet. -/
theorem never_stuck_small : ∃ (acts₁ acts₂ : List (NetworkAct Bool Bool Unit))
    (n₀ n₁ n₂ : Network Bool Bool Unit Bytes), n₀.Fresh ∧ n₀.Sound ∧
    n₀.Owned pair (fun q => q.1.2) (fun q => !q.1.2) ∧ run (step pair) n₀ acts₁ = some n₁ ∧
    n₁.Finished ∧ (∀ l, (n₁.dirs l).sentSize ≤ 2 ^ 53) ∧ run (step pair) n₀ acts₂ = some n₂ ∧
    n₂.Running pair ∧ (n₂.dirs ((), false)).rcv.mapbuffer.keys = [] ∧ ∃ acts₃ n₃,
      (∀ a ∈ acts₃, NetworkAct.isOnward a = true) ∧ run (step pair) n₂ acts₃ = some n₃ ∧
        n₃.procs false = .done [2] := by
  obtain ⟨d₀, hnew, hview₁, hview₂⟩ : ∃ d₀, Direction.new = .ok d₀ ∧
      (run (step pair) ⟨counter, fun _ => d₀⟩ (early ++ late)).any (fun n => ended n &&
        decide ((n.dirs ((), false)).sentSize ≤ 2 ^ 53 ∧
          (n.dirs ((), true)).sentSize ≤ 2 ^ 53)) = true ∧
      (run (step pair) ⟨counter, fun _ => d₀⟩ early).any (fun n =>
        decide ((n.dirs ((), false)).Running ∧ (n.dirs ((), true)).Running) &&
          decide ((n.dirs ((), false)).rcv.mapbuffer.keys = [])) = true :=
    ⟨_, rfl, by decide, by decide⟩
  obtain ⟨n₁, h₁, hend⟩ := (Option.any_eq_true _ _).mp hview₁
  obtain ⟨n₂, h₂, hrunning⟩ := (Option.any_eq_true _ _).mp hview₂
  simp only [Bool.and_eq_true, decide_eq_true_eq] at hend hrunning
  have hsize : ∀ l, (n₁.dirs l).sentSize ≤ 2 ^ 53 := by
    rintro ⟨⟨⟩, a⟩
    cases a with
    | false => exact hend.2.1
    | true => exact hend.2.2
  have hrun : n₂.Running pair := by
    rintro a b ⟨⟩ -
    cases b with
    | false => exact hrunning.1.1
    | true => exact hrunning.1.2
  have hfresh : (⟨counter, fun _ => d₀⟩ : Network Bool Bool Unit Bytes).Fresh := fun _ => hnew
  have hdone₁ := finished_of_ended hend.1
  obtain ⟨acts₃, n₃, hacts₃, hn₃, hprocs⟩ := never_stuck hfresh (counter_sound d₀)
    (counter_owned d₀) h₁ hdone₁ hsize h₂ hrun
  have hdone := hend.1
  simp only [ended, Bool.and_eq_true, decide_eq_true_eq] at hdone
  exact ⟨early ++ late, early, _, n₁, n₂, hfresh, counter_sound d₀, counter_owned d₀, h₁, hdone₁,
    hsize, h₂, hrun, hrunning.2, acts₃, n₃, hacts₃, hn₃, hprocs ▸ Proc.eq_done hdone.1⟩

end Run

end Network

end Rosetta

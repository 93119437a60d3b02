import Rosetta.Lib.Assoc
import Rosetta.Server.Basic

/-!
# The steps of the servers

One lemma for each building block of `exec`, and `effect_step`, which says what an action does to
`loop_main` and `stop_` of the tasks, to the static members and to the connections. The invariants
are derived from it.
-/

namespace Rosetta

open Lib

namespace Server

variable {n n' : Server} {task : Bytes}

/-! ## Steps of tasks and of connections -/

theorem onTask_ok {p : ServerTask → Bool} {f : ServerTask → ServerTask}
    (h : n.onTask task p f = .ok n') :
    ∃ s, n.tasks.lookup task = some s ∧ p s = true ∧ n' = n.setTask task (f s) := by
  unfold onTask at h
  split at h
  · next s hs =>
    split at h
    · next hp => exact ⟨s, hs, hp, (Except.ok.inj h).symm⟩
    · cases h
  · cases h

theorem onConn_ok {c : Nat} {f : ServerConn → Exec ServerConn} (h : n.onConn c f = .ok n') :
    ∃ x x', n.conns[c]? = some x ∧ f x = .ok x' ∧ n' = { n with conns := n.conns.set c x' } := by
  unfold onConn at h
  split at h
  · next x hx =>
    obtain ⟨x', hx', h⟩ := Exec.bind_eq_ok.mp h
    exact ⟨x, x', hx, hx', (Except.ok.inj h).symm⟩
  · cases h

theorem tasks_onConn {c : Nat} {f : ServerConn → Exec ServerConn} (h : n.onConn c f = .ok n') :
    n'.tasks = n.tasks := by
  obtain ⟨_, _, _, _, rfl⟩ := onConn_ok h
  rfl

theorem onStopping_ok {cid : Bytes} {s : ServerTask} {f : ServerConn → Exec ServerConn}
    (h : n.onStopping cid s f = .ok n') :
    ∃ c, s.serverConnections.lookup cid = some c ∧ s.stop = true ∧ s.loopMain = .ended ∧
      n.onConn c f = .ok n' := by
  unfold onStopping at h
  split at h
  · next c hc =>
    split at h
    · next hs => exact ⟨c, hc, hs.1, hs.2, h⟩
    · cases h
  · cases h

/-- `find_connection` finds nothing, or the task starts on the connection. -/
theorem findConnection_ok {cid : Bytes} {s : ServerTask} (h : n.findConnection task cid s = .ok n') :
    n' = n ∨ ∃ c m, n.connections.lookup cid = some c ∧
      n.onConn c (ServerConn.start task) = .ok m ∧
      n' = m.setTask task { s with found := (cid, c) :: s.found } := by
  unfold findConnection at h
  split at h
  · next c hc =>
    split at h
    · split at h
      · obtain ⟨m, hm, h⟩ := Exec.bind_eq_ok.mp h
        exact .inr ⟨c, m, hc, hm, (Except.ok.inj h).symm⟩
      · exact .inl (Except.ok.inj h).symm
    · cases h
  · exact .inl (Except.ok.inj h).symm

/-- `handle_accept` registers the client if the task expects it. -/
theorem handleAccept_ok {s : ServerTask} {hello : Bytes} (h : n.handleAccept s hello = .ok n') :
    n' = n ∨ ∃ cid wire, readCid hello = .ok (some (cid, wire)) ∧
      s.expects cid = true ∧ n.register cid wire = .ok n' := by
  obtain ⟨r, hr, h⟩ := Exec.bind_eq_ok.mp h
  cases r with
  | none => exact .inl (Except.ok.inj h).symm
  | some x =>
    obtain ⟨cid, wire⟩ := x
    simp only at h
    split at h
    · next hexpects => exact .inr ⟨cid, wire, hr, hexpects, h⟩
    · exact .inl (Except.ok.inj h).symm

theorem register_ok {cid wire : Bytes} (h : n.register cid wire = .ok n') :
    ∃ r, RecvHalf.new = .ok r ∧ n' = { n with
      conns := n.conns ++ [{ wire, rcv := r }]
      connections := (n.connections.erase cid).insert cid n.conns.length } := by
  obtain ⟨r, hr, h⟩ := Exec.bind_eq_ok.mp h
  exact ⟨r, hr, (Except.ok.inj h).symm⟩

/-! ## Where the loops are -/

/-- `loop_main` and `stop_` of a task. -/
def loop (n : Server) (task : Bytes) : Option (LoopMain × Bool) :=
  (n.tasks.lookup task).map fun s => (s.loopMain, s.stop)

theorem owns_iff : n.Owns task ↔
    ∃ b, n.loop task = some (.checking, b) ∨ n.loop task = some (.serving, b) := by
  unfold Owns loop
  cases n.tasks.lookup task with
  | none => simp
  | some s => cases hs : s.loopMain <;> simp [ServerTask.owns, hs]

/-- The one task that the action is about changes as `p` says. -/
def OnlyAt (task t : Bytes) (p : Option (LoopMain × Bool) → Option (LoopMain × Bool) → Prop)
    (l l' : Option (LoopMain × Bool)) : Prop :=
  (t = task ∧ p l l') ∨ (t ≠ task ∧ l' = l)

/-- What an action does to the loop of the task `t`. -/
def LoopStep (t : Bytes) : ServerAct → Option (LoopMain × Bool) → Option (LoopMain × Bool) → Prop
  | .start task _ => OnlyAt task t fun l l' => l = none ∧ l' = some (.waiting, false)
  | .takeLoop task => OnlyAt task t fun l l' =>
    l = some (.waiting, false) ∧ l' = some (.checking, false)
  | .quitLoop task => OnlyAt task t fun l l' =>
    l = some (.waiting, true) ∧ l' = some (.ended, true)
  | .allConnected task => OnlyAt task t fun l l' =>
    ∃ b, l = some (.checking, b) ∧ l' = some (.serving, b)
  | .endLoop task _ => OnlyAt task t fun l l' =>
    ∃ b, (l = some (.checking, b) ∨ l = some (.serving, b)) ∧ l' = some (.ended, b)
  | .stop task => OnlyAt task t fun l l' => ∃ m, l = some (m, false) ∧ l' = some (m, true)
  | .leave task => OnlyAt task t fun l l' => l = some (.ended, true) ∧ l' = none
  | _ => fun l l' => l' = l

theorem loop_setTask {s : ServerTask} {t : Bytes} :
    (n.setTask task s).loop t = if t = task then some (s.loopMain, s.stop) else n.loop t := by
  unfold loop setTask
  rcases eq_or_ne t task with rfl | ht
  · simp
  · simp [ht, AList.lookup_insert_ne ht]

/-- A change of the task that leaves the loop alone. -/
theorem loop_of_insert {s s' : ServerTask} (hs : n.tasks.lookup task = some s)
    (htasks : n'.tasks = n.tasks.insert task s') (hloop : s'.loopMain = s.loopMain)
    (hstop : s'.stop = s.stop) (t : Bytes) : n'.loop t = n.loop t := by
  have hn' : n'.loop t = (n.setTask task s').loop t := by
    rw [loop, htasks]
    rfl
  rw [hn', loop_setTask]
  split
  · next ht =>
    subst ht
    simp [loop, hs, hloop, hstop]
  · rfl

theorem onlyAt_setTask {s s' : ServerTask}
    {q : Option (LoopMain × Bool) → Option (LoopMain × Bool) → Prop}
    (hs : n.tasks.lookup task = some s)
    (hq : q (some (s.loopMain, s.stop)) (some (s'.loopMain, s'.stop))) (t : Bytes) :
    OnlyAt task t q (n.loop t) ((n.setTask task s').loop t) := by
  rw [loop_setTask]
  by_cases ht : t = task
  · subst ht
    refine .inl ⟨rfl, ?_⟩
    simpa [loop, hs] using hq
  · exact .inr ⟨ht, if_neg ht⟩

/-! ## The static members -/

/-- What an action does to `listen_count_`. -/
def ListenStep : ServerAct → Nat → Nat → Prop
  | .takeLoop _ => fun k k' => k = 0 ∧ k' = 1
  | .endLoop _ _ => fun k k' => k' = k - 1
  | _ => fun k k' => k' = k

/-- No connection is forgotten, and `connections_` gets none but new ones. -/
structure Static (n n' : Server) : Prop where
  length_le : n.conns.length ≤ n'.conns.length
  lookup : ∀ cid c, n'.connections.lookup cid = some c →
    n.connections.lookup cid = some c ∨ c < n'.conns.length

/-! ## The connections -/

/-- What an action does to the connection that it changes. -/
def ConnStep (n : Server) (c : Nat) (x x' : ServerConn) : ServerAct → Prop
  | .arrive c' data => c' = c ∧ x' = { x with wire := x.wire ++ data }
  | .read _ c' k => c' = c ∧ x.read k = .ok x'
  | .spoil _ c' => c' = c ∧ x' = { x with conn := { x.conn with reuseable := false } }
  | .close _ c' => c' = c ∧ x' = { x with conn := x.conn.close }
  | .find task cid => n.connections.lookup cid = some c ∧ x.start task = .ok x'
  | .registered task c' => c' = c ∧ x.registered task = .ok x'
  | .recvStart task c' => c' = c ∧ x.recvStart task = .ok x'
  | .recvTake c' => c' = c ∧ x.recvTake = .ok x'
  | .recvStore c' => c' = c ∧ x.recvStore = .ok x'
  | .recvStop c' => c' = c ∧ x.recvStop = .ok x'
  | .recv c' call => c' = c ∧ x.recv call = .ok x'
  | .stopConn task _ => x.stop task = .ok x'
  | .lockRecv task _ => x.lockRecv task = .ok x'
  | .doStop task _ => x.doStop task = .ok x'
  | .leave _ => x' = { x with conn := x.conn.close }
  | _ => False

/-- What an action does. A connection behind it was there before, or the action has changed it, or
it is new. -/
structure Effect (n : Server) (a : ServerAct) (n' : Server) : Prop where
  loop : ∀ t, LoopStep t a (n.loop t) (n'.loop t)
  listen : ListenStep a n.listenCount n'.listenCount
  static : n.Static n'
  conns : ∀ c x', n'.conns[c]? = some x' → n.conns[c]? = some x' ∨
    (∃ x, n.conns[c]? = some x ∧ n.ConnStep c x x' a) ∨
    ∃ r wire, RecvHalf.new = .ok r ∧ x' = { wire, rcv := r }

variable {a : ServerAct}

/-- A step that changes tasks only. -/
theorem effect_tasks (hloop : ∀ t, LoopStep t a (n.loop t) (n'.loop t))
    (hlisten : ListenStep a n.listenCount n'.listenCount) (hconns : n'.conns = n.conns)
    (hconnections : n'.connections = n.connections) : n.Effect a n' := by
  refine ⟨hloop, hlisten, ⟨Nat.le_of_eq (congrArg _ hconns.symm), ?_⟩, ?_⟩
  · intro cid c hc
    exact .inl (hconnections ▸ hc)
  · intro c x hx
    exact .inl (hconns ▸ hx)

section Quiet

/-! An action that leaves the loops and `listen_count_` alone. -/

variable (hloop : ∀ t l, LoopStep t a l l) (hlisten : ∀ k, ListenStep a k k)

include hloop hlisten

theorem effect_refl : n.Effect a n := effect_tasks (fun t => hloop t _) (hlisten _) rfl rfl

theorem effect_onConn {c : Nat} {f : ServerConn → Exec ServerConn}
    (hf : ∀ x x', f x = .ok x' → n.ConnStep c x x' a) (h : n.onConn c f = .ok n') :
    n.Effect a n' := by
  obtain ⟨x, x', hx, hx', rfl⟩ := onConn_ok h
  refine ⟨fun t => hloop t _, hlisten _, ⟨by simp, fun _ _ h => .inl h⟩, ?_⟩
  intro c' y hy
  rcases eq_or_ne c' c with rfl | hne
  · obtain ⟨hlt, -⟩ := List.getElem?_eq_some_iff.mp hx
    obtain rfl : x' = y := by simpa [List.getElem?_set_self hlt] using hy
    exact .inr (.inl ⟨x, hx, hf x x' hx'⟩)
  · exact .inl ((List.getElem?_set_ne hne.symm).symm.trans hy)

theorem effect_onStopping {cid : Bytes} {s : ServerTask} {f : ServerConn → Exec ServerConn}
    (hf : ∀ c x x', f x = .ok x' → n.ConnStep c x x' a) (h : n.onStopping cid s f = .ok n') :
    n.Effect a n' := by
  obtain ⟨c, -, -, -, h⟩ := onStopping_ok h
  exact effect_onConn hloop hlisten (hf c) h

theorem effect_register {cid wire : Bytes} (h : n.register cid wire = .ok n') : n.Effect a n' := by
  obtain ⟨r, hr, rfl⟩ := register_ok h
  refine ⟨fun t => hloop t _, hlisten _, ⟨by simp, ?_⟩, ?_⟩
  · intro cid' c hc
    rcases lookup_insert_eq_some.mp hc with ⟨-, rfl⟩ | ⟨-, hc⟩
    · exact .inr (by simp)
    · exact .inl (lookup_erase_eq_some.mp hc).2
  · intro c x hx
    rw [List.getElem?_append] at hx
    split at hx
    · exact .inl hx
    · exact .inr (.inr ⟨r, wire, hr, List.mem_singleton.mp (List.mem_of_getElem? hx)⟩)

end Quiet

/-- And then a member of a task changes that is not about its loop. -/
theorem Effect.setTask {m : Server} {s s' : ServerTask} (h : n.Effect a m)
    (hs : m.tasks.lookup task = some s) (hmain : s'.loopMain = s.loopMain)
    (hstop : s'.stop = s.stop) : n.Effect a (m.setTask task s') := by
  refine ⟨fun t => ?_, h.listen, ⟨h.static.length_le, h.static.lookup⟩, h.conns⟩
  have hsame : (m.setTask task s').loop t = m.loop t := loop_of_insert hs rfl hmain hstop t
  rw [hsame]
  exact h.loop t

/-- The last task closes what is in `connections_`. -/
theorem Effect.closeAll {m : Server} (h : n.Effect (.leave task) m) (hconns : m.conns = n.conns) :
    n.Effect (.leave task) m.closeAll := by
  refine ⟨h.loop, h.listen, ⟨?_, fun cid c hc => ?_⟩, fun c y hy => ?_⟩
  · simp [Server.closeAll, hconns]
  · simp [Server.closeAll] at hc
  · simp only [Server.closeAll, List.getElem?_mapIdx, hconns, Option.map_eq_some_iff] at hy
    obtain ⟨x, hx, rfl⟩ := hy
    split
    · exact .inr (.inl ⟨x, hx, rfl⟩)
    · exact .inl hx

/-! ## Every action -/

theorem effect_start {expectedCids : List ClientId}
    (h : n.exec (.start task expectedCids) = .ok n') : n.Effect (.start task expectedCids) n' := by
  simp only [exec] at h
  split at h
  · next hnone =>
    obtain rfl := Except.ok.inj h
    refine effect_tasks (fun t => ?_) rfl rfl rfl
    have hnone := Option.isNone_iff_eq_none.mp hnone
    have hloop : (n.setTask task { expectedCids }).loop t =
        if t = task then some (.waiting, false) else n.loop t := loop_setTask
    by_cases ht : t = task
    · exact .inl ⟨ht, by subst ht; simp [loop, hnone], hloop.trans (if_pos ht)⟩
    · exact .inr ⟨ht, hloop.trans (if_neg ht)⟩
  · cases h

theorem effect_leave (h : n.exec (.leave task) = .ok n') : n.Effect (.leave task) n' := by
  simp only [exec] at h
  split at h
  · next s hs =>
    split at h
    · next hleave =>
      have heffect : n.Effect (.leave task)
          { n with tasks := n.tasks.erase task, taskCount := n.taskCount - 1 } := by
        refine effect_tasks (fun t => ?_) rfl rfl rfl
        by_cases ht : t = task
        · subst ht
          exact .inl ⟨rfl, by simp [loop, hs, hleave], by simp [loop]⟩
        · exact .inr ⟨ht, by simp [loop, AList.lookup_erase_ne ht]⟩
      obtain rfl := Except.ok.inj h
      split
      · exact heffect.closeAll rfl
      · exact heffect
    · cases h
  · cases h

/-- **What each action does.** -/
theorem effect_step (h : n.step a = some n') : n.Effect a n' := by
  have h : n.exec a = .ok n' := Exec.toOption_eq_some.mp h
  cases a with
  | start task expectedCids => exact effect_start h
  | leave task => exact effect_leave h
  | takeLoop task =>
    simp only [exec] at h
    split at h
    · next hzero =>
      obtain ⟨m, hm, h⟩ := Exec.bind_eq_ok.mp h
      obtain ⟨s, hs, hp, rfl⟩ := onTask_ok hm
      obtain rfl := Except.ok.inj h
      refine effect_tasks (fun t => ?_) ⟨hzero, congrArg (· + 1) hzero⟩ rfl rfl
      simp only [LoopStep]
      refine onlyAt_setTask hs ?_ t
      simp at hp
      simp [hp]
    · cases h
  | quitLoop | allConnected | stop =>
    obtain ⟨s, hs, hp, rfl⟩ := onTask_ok h
    refine effect_tasks (fun t => ?_) rfl rfl rfl
    simp only [LoopStep]
    refine onlyAt_setTask hs ?_ t
    simp at hp
    simp [hp]
  | endLoop task timedOut =>
    obtain ⟨m, hm, h⟩ := Exec.bind_eq_ok.mp h
    obtain ⟨s, hs, hp, rfl⟩ := onTask_ok hm
    obtain rfl := Except.ok.inj h
    refine effect_tasks (fun t => ?_) rfl rfl rfl
    simp only [LoopStep]
    refine onlyAt_setTask hs ?_ t
    have howns : s.owns = true := by
      simp at hp
      exact hp.1
    refine ⟨s.stop, ?_, rfl⟩
    cases hloop : s.loopMain <;> simp [ServerTask.owns, hloop] at howns ⊢
  | put task cid c =>
    simp only [exec] at h
    split at h
    · obtain ⟨s, hs, -, rfl⟩ := onTask_ok h
      exact effect_tasks (loop_of_insert hs rfl rfl rfl) rfl rfl rfl
    · cases h
  | accept task hello =>
    simp only [exec] at h
    split at h
    · split at h
      · rcases handleAccept_ok h with rfl | ⟨cid, wire, -, -, h⟩
        · exact effect_refl (fun _ _ => rfl) fun _ => rfl
        · exact effect_register (fun _ _ => rfl) (fun _ => rfl) h
      · cases h
    · cases h
  | arrive =>
    exact effect_onConn (fun _ _ => rfl) (fun _ => rfl)
      (fun _ _ hx => ⟨rfl, (Except.ok.inj hx).symm⟩) h
  | registered | recvStart | recvTake | recvStore | recvStop | recv =>
    exact effect_onConn (fun _ _ => rfl) (fun _ => rfl) (fun _ _ hx => ⟨rfl, hx⟩) h
  | read =>
    simp only [exec] at h
    split at h
    · exact effect_onConn (fun _ _ => rfl) (fun _ => rfl) (fun _ _ hx => ⟨rfl, hx⟩) h
    · cases h
  | spoil | close =>
    simp only [exec] at h
    split at h
    · exact effect_onConn (fun _ _ => rfl) (fun _ => rfl)
        (fun _ _ hx => ⟨rfl, (Except.ok.inj hx).symm⟩) h
    · cases h
  | find task cid =>
    simp only [exec] at h
    split at h
    · next s hs =>
      split at h
      · cases h
      · rcases findConnection_ok h with rfl | ⟨c, m, hc, hm, rfl⟩
        · exact effect_refl (fun _ _ => rfl) fun _ => rfl
        · have heffect : n.Effect (.find task cid) m :=
            effect_onConn (fun _ _ => rfl) (fun _ => rfl) (fun _ _ hx => ⟨hc, hx⟩) hm
          have hs : m.tasks.lookup task = some s := by rw [tasks_onConn hm, hs]
          exact heffect.setTask hs rfl rfl
    · cases h
  | stopConn task cid =>
    simp only [exec] at h
    split at h
    · split at h
      · exact effect_onStopping (fun _ _ => rfl) (fun _ => rfl) (fun _ _ _ hx => hx) h
      · cases h
    · cases h
  | lockRecv task cid =>
    simp only [exec] at h
    split at h
    · exact effect_onStopping (fun _ _ => rfl) (fun _ => rfl) (fun _ _ _ hx => hx) h
    · cases h
  | doStop task cid =>
    simp only [exec] at h
    split at h
    · next s hs =>
      obtain ⟨m, hm, h⟩ := Exec.bind_eq_ok.mp h
      obtain rfl := Except.ok.inj h
      have heffect : n.Effect (.doStop task cid) m :=
        effect_onStopping (fun _ _ => rfl) (fun _ => rfl) (fun _ _ _ hx => hx) hm
      obtain ⟨_, _, _, _, hm⟩ := onStopping_ok hm
      have hs : m.tasks.lookup task = some s := by rw [tasks_onConn hm, hs]
      exact heffect.setTask hs rfl rfl
    · cases h

end Server

end Rosetta

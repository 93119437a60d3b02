import Rosetta.Nodes.Together

/-!
# When two nodes share one connection for a task

`MayStart` and `MayClose` are the conditions: a task is not started on a closed connection, or while
the other node still uses the id on one, and the last task of a node does not close a connection
while a lock byte is on its way to it. In a run that keeps them a task uses the same connection at
both nodes (`same_conn`).

`close` cannot know the second one: `get_unrecv_size` only counts what has arrived.
-/

namespace Rosetta

open Lib CycleBuffer

/-! ## The effect of `start` -/

theorem Link.start_ok {l l' : Link} {e : End} {task : Bytes} (h : l.exec (.start e task) = .ok l') :
    l'.ends e = (l.ends e).start task ∧ ∀ e', e' ≠ e → l'.ends e' = l.ends e' := by
  cases Link.does_of_exec h with
  | start =>
    refine ⟨Link.setEnd_ends _ _, ?_⟩
    intro e' he
    rw [Link.setEnd_ends_ne he]
    rfl

namespace TwoNodes

variable {p p' : TwoNodes}

/-- `task` may call `start` on `c`. -/
def MayStart (p : TwoNodes) (e : End) (c : Nat) (task : Bytes) : Prop :=
  task.length ≤ 249 ∧ (p.tcp c).isOpen = true ∧
    ∀ c' ∈ p.conn e.other task, (p.tcp c').isOpen = false → p.uses e task < p.uses e.other task

instance (p : TwoNodes) (e : End) (c : Nat) (task : Bytes) : Decidable (p.MayStart e c task) :=
  inferInstanceAs (Decidable (_ ∧ _ ∧ _))

section StartOn

variable {e : End} {c : Nat} {task : Bytes} {s : TaskState}

theorem starts_startOn (h : p.startOn e c task s = .ok p') (e' : End) (c' : Nat) (task' : Bytes) :
    p'.starts e' c' task'
      = p.starts e' c' task' + if e' = e ∧ c' = c ∧ task' = task then 1 else 0 := by
  obtain ⟨l, hl, h⟩ := Exec.bind_eq_ok.mp h
  obtain rfl := Except.ok.inj h
  obtain ⟨hself, hother⟩ := Link.start_ok hl
  change ((Function.update p.tcp c { p.tcp c with link := l } c').link.ends e').starts task'
    = ((p.tcp c').link.ends e').starts task' + _
  rcases eq_or_ne c' c with rfl | hc
  · rw [Function.update_self]
    rcases eq_or_ne e' e with rfl | he
    · rw [hself, LinkEnd.starts_start]
      rcases eq_or_ne task' task with rfl | ht
      · rw [Function.update_self, if_pos ⟨rfl, rfl, rfl⟩]
      · rw [Function.update_of_ne ht, if_neg (fun hc => ht hc.2.2), Nat.add_zero]
    · rw [hother e' he, if_neg (fun hc => he hc.1), Nat.add_zero]
  · rw [Function.update_of_ne hc, if_neg (fun h => hc h.2.1), Nat.add_zero]

theorem phase_startOn (h : p.startOn e c task s = .ok p') {e' : End} {c' : Nat} {task' : Bytes}
    (hp : p'.phase e' c' task' ≠ .out) :
    (e' = e ∧ c' = c ∧ task' = task) ∨ p.phase e' c' task' ≠ .out := by
  obtain ⟨l, hl, h⟩ := Exec.bind_eq_ok.mp h
  obtain rfl := Except.ok.inj h
  obtain ⟨hself, hother⟩ := Link.start_ok hl
  change ((Function.update p.tcp c { p.tcp c with link := l } c').link.ends e').phase task' ≠ _
    at hp
  unfold phase
  rcases eq_or_ne c' c with rfl | hc
  · rw [Function.update_self] at hp
    rcases eq_or_ne e' e with rfl | he
    · rw [hself, LinkEnd.phase_start] at hp
      rcases eq_or_ne task' task with rfl | ht
      · exact Or.inl ⟨rfl, rfl, rfl⟩
      · rw [Function.update_of_ne ht] at hp
        exact Or.inr hp
    · rw [hother e' he] at hp
      exact Or.inr hp
  · rw [Function.update_of_ne hc] at hp
    exact Or.inr hp

theorem isOpen_startOn (h : p.startOn e c task s = .ok p') (c' : Nat) :
    (p'.tcp c').isOpen = (p.tcp c').isOpen := by
  obtain ⟨l, -, h⟩ := Exec.bind_eq_ok.mp h
  obtain rfl := Except.ok.inj h
  change (Function.update p.tcp c { p.tcp c with link := l } c').isOpen = _
  rcases eq_or_ne c' c with rfl | hc
  · rw [Function.update_self]
    rfl
  · rw [Function.update_of_ne hc]

theorem uses_startOn (h : p.startOn e c task s = .ok p') (e' : End) (task' : Bytes) :
    p'.uses e' task' = p.uses e' task' + if e' = e ∧ task' = task then 1 else 0 := by
  obtain ⟨l, -, h⟩ := Exec.bind_eq_ok.mp h
  obtain rfl := Except.ok.inj h
  change Function.update p.uses e (Function.update (p.uses e) task (p.uses e task + 1)) e' task' = _
  rcases eq_or_ne e' e with rfl | he
  · rw [Function.update_self]
    rcases eq_or_ne task' task with rfl | ht
    · rw [Function.update_self, if_pos ⟨rfl, rfl⟩]
    · rw [Function.update_of_ne ht, if_neg (fun hc => ht hc.2), Nat.add_zero]
  · rw [Function.update_of_ne he, if_neg (fun hc => he hc.1), Nat.add_zero]

/-- The state of the other tasks, and of those of the other node, is left alone. -/
theorem states_startOn (h : p.startOn e c task s = .ok p') :
    p'.nodes = (p.setState e task s).nodes ∧ p'.next = p.next ∧ p'.accepted = p.accepted ∧
      p'.toConnect = p.toConnect := by
  obtain ⟨l, -, h⟩ := Exec.bind_eq_ok.mp h
  obtain rfl := Except.ok.inj h
  exact ⟨rfl, rfl, rfl, rfl⟩

theorem conn_setState_self : (p.setState e task s).conn e task = s.conn := by
  rw [conn, setState, nodes_setNode]
  exact congrArg TaskState.conn (Function.update_self ..)

theorem conn_setState_ne {e' : End} {task' : Bytes} (h : ¬ (e' = e ∧ task' = task)) :
    (p.setState e task s).conn e' task' = p.conn e' task' := by
  unfold conn setState
  rcases eq_or_ne e' e with rfl | he
  · rw [nodes_setNode]
    exact congrArg TaskState.conn (Function.update_of_ne (fun ht => h ⟨rfl, ht⟩) ..)
  · rw [nodes_setNode_ne he]

theorem Wires.startOn (h : Wires p) (hmay : p.MayStart e c task) (hlt : c < p.next)
    (hp : p.startOn e c task s = .ok p') : Wires p' := by
  obtain ⟨hlen, hopen, -⟩ := hmay
  have hstarts := starts_startOn hp
  have hisOpen := isOpen_startOn hp
  have hnext := (states_startOn hp).2.1
  have hnot : ∀ {c'}, c' ≠ c → ∀ e' task', p'.starts e' c' task' = p.starts e' c' task' := by
    intro c' hc e' task'
    rw [hstarts, if_neg (fun h => hc h.2.1), Nat.add_zero]
  obtain ⟨l, hl, hp⟩ := Exec.bind_eq_ok.mp hp
  obtain rfl := Except.ok.inj hp
  constructor
  case locks =>
    intro c' hopen'
    rw [hisOpen] at hopen'
    change (Function.update p.tcp c { p.tcp c with link := l } c').link.Locks
    rcases eq_or_ne c' c with rfl | hc
    · rw [Function.update_self]
      exact (h.locks c' hopen').start hlen hl
    · rw [Function.update_of_ne hc]
      exact h.locks c' hopen'
  case balanced =>
    intro c' hclosed e' task'
    rw [hisOpen] at hclosed
    have hc : c' ≠ c := by
      rintro rfl
      rw [hopen] at hclosed
      cases hclosed
    rw [hnot hc, hnot hc]
    exact h.balanced c' hclosed e' task'
  case fresh =>
    intro c' hc' e' task'
    rw [hnext] at hc'
    rw [hnot (by omega)]
    exact h.fresh c' hc' e' task'
  case reuse =>
    intro c' e' hreuse
    rw [hisOpen]
    refine h.reuse c' e' ?_
    change ((Function.update p.tcp c { p.tcp c with link := l } c').conns e').reuseable = false
      at hreuse
    rcases eq_or_ne c' c with rfl | hc
    · rwa [Function.update_self] at hreuse
    · rwa [Function.update_of_ne hc] at hreuse

theorem Dials.startOn (h : Dials p)
    (hP : e = .P → (∀ c, (p.nodes .P).states task ≠ .dialed c) ∧ s.dials = false ∧ s.own = none)
    (hp : p.startOn e c task s = .ok p') : Dials p' := by
  have hset : Dials (p.setState e task s) := h.setState rfl rfl hP
  have hisOpen := isOpen_startOn hp
  obtain ⟨hnodes, hnext, haccepted, htc⟩ := states_startOn hp
  constructor
  case accepted =>
    rw [haccepted, hnext]
    exact h.accepted
  case mapped =>
    rw [hnodes, hnext]
    exact hset.mapped
  case own =>
    rw [hnodes, hnext]
    exact hset.own
  case dials =>
    rw [hnodes, htc]
    exact hset.dials
  case one =>
    rw [hnodes]
    exact hset.one
  case old =>
    intro c' hc' hopen
    rw [hisOpen] at hopen
    rw [hnext] at hc'
    rw [hnodes]
    exact hset.old c' hc' hopen
  case newest =>
    intro c' hopen
    rw [hisOpen] at hopen
    rw [hnext]
    exact hset.newest c' hopen

theorem Dials.eq_newest (h : Dials p) (hopen : (p.tcp c).isOpen = true) (hlt : c < p.next) :
    c = p.next - 1 := by
  have hle := h.newest c hopen
  omega

/-- When the task is active at the other node, it comes to the same connection, or it has been used
there once more. -/
theorem Together.same_of_mayStart (h : Together p) (hmay : p.MayStart e c task) (hlt : c < p.next)
    {d : Nat} (hd : p.conn e.other task = some d) :
    c = d ∨ p.uses e task + 1 = p.uses e.other task := by
  obtain ⟨-, hopen, hreused⟩ := hmay
  have hc := h.dials.eq_newest hopen hlt
  cases hopen' : (p.tcp d).isOpen with
  | true => exact Or.inl (hc.trans (h.dials.eq_newest hopen' (h.lt_of_conn hd)).symm)
  | false =>
    right
    have hlt' := hreused d hd hopen'
    have hbal := h.uses.uses e task
    -- on the newest connection the other node is ahead by one at most
    have hle := (h.wires.locks c hopen).starts_le e.other task
    rw [End.other_other] at hle
    rw [← hc] at hbal
    change p.starts e.other c task ≤ p.starts e c task + 1 at hle
    omega

theorem Together.startOn (h : Together p) (hmay : p.MayStart e c task) (hlt : c < p.next)
    (hnone : p.conn e task = none) (hs : s.conn = some c) (htask : task ∈ (p.nodes e).tasks)
    (hP : e = .P → (∀ c, (p.nodes .P).states task ≠ .dialed c) ∧ s.dials = false ∧ s.own = none)
    (hp : p.startOn e c task s = .ok p') : Together p' := by
  refine ⟨h.wires.startOn hmay hlt hp, h.dials.startOn hP hp, ?_⟩
  have hopen := hmay.2.1
  have hstarts := starts_startOn hp
  have huses := uses_startOn hp
  have hisOpen := isOpen_startOn hp
  obtain ⟨hnodes, hnext, -, -⟩ := states_startOn hp
  have hself : p'.conn e task = some c := by
    rw [conn, hnodes, ← hs]
    exact conn_setState_self
  have hother : ∀ {e' task'}, ¬ (e' = e ∧ task' = task) → p'.conn e' task' = p.conn e' task' := by
    intro e' task' hne
    rw [conn, hnodes]
    exact conn_setState_ne hne
  have hc := h.dials.eq_newest hopen hlt
  constructor
  case counted =>
    intro e' task' hne
    rw [hnodes] at hne ⊢
    unfold setState at hne ⊢
    rcases eq_or_ne e' e with rfl | he
    · rw [nodes_setNode] at hne ⊢
      rcases eq_or_ne task' task with rfl | ht
      · exact htask
      · refine h.uses.counted e' task' ?_
        change Function.update (p.nodes e').states task s task' ≠ .idle at hne
        rwa [Function.update_of_ne ht] at hne
    · rw [nodes_setNode_ne he] at hne ⊢
      exact h.uses.counted e' task' hne
  case phase =>
    intro e' c' task' hopen' hphase
    rw [hisOpen] at hopen'
    rcases phase_startOn hp hphase with ⟨rfl, rfl, rfl⟩ | hold
    · exact hself
    · have hconn := h.uses.phase e' c' task' hopen' hold
      rw [hother]
      · exact hconn
      · rintro ⟨rfl, rfl⟩
        rw [hnone] at hconn
        cases hconn
  case last =>
    intro e' task' d hd
    by_cases hthis : e' = e ∧ task' = task
    · obtain ⟨rfl, rfl⟩ := hthis
      rw [hself] at hd
      obtain rfl := Option.some.inj hd
      constructor
      · rw [hstarts, if_pos ⟨rfl, rfl, rfl⟩]
        exact Nat.succ_pos _
      · intro c' hc'
        rw [hstarts, if_neg (fun h => Nat.ne_of_gt hc' h.2.1), Nat.add_zero]
        exact h.wires.fresh c' (by omega) e' task'
    · rw [hother hthis] at hd
      obtain ⟨hpos, hzero⟩ := h.uses.last e' task' d hd
      constructor
      · rw [hstarts]
        exact Nat.add_pos_left hpos _
      · intro c' hc'
        rw [hstarts, if_neg (fun h => hthis ⟨h.1, h.2.2⟩), Nat.add_zero]
        exact hzero c' hc'
  case uses =>
    intro e' task'
    have hold := h.uses.uses e' task'
    rw [← hc] at hold
    rw [huses, huses, hstarts, hstarts, hnext, ← hc]
    rcases eq_or_ne task' task with rfl | ht
    · rcases eq_or_ne e' e with rfl | he
      · simp only [End.other_ne, and_self, if_true, false_and, if_false]
        omega
      · obtain rfl := End.eq_of_ne he
        simp only [he, and_self, if_true, false_and, if_false]
        omega
    · simp only [ht, and_false, if_false]
      exact hold
  case same =>
    intro e' task' d d' hd hd'
    rw [huses, huses]
    rcases eq_or_ne task' task with rfl | ht
    · rcases eq_or_ne e' e with rfl | he
      · rw [hself] at hd
        obtain rfl := Option.some.inj hd
        rw [hother (fun h => End.other_ne e' h.1)] at hd'
        simp only [End.other_ne, and_self, if_true, false_and, if_false, Nat.add_zero]
        exact h.same_of_mayStart hmay hlt hd'
      · obtain rfl := End.eq_of_ne he
        rw [hself] at hd'
        obtain rfl := Option.some.inj hd'
        rw [hother (fun h => he h.1)] at hd
        simp only [he, and_self, if_true, false_and, if_false, Nat.add_zero]
        have hkey := h.same_of_mayStart hmay hlt (d := d)
        rw [End.other_other] at hkey
        rcases hkey hd with heq | huse
        · exact Or.inl heq.symm
        · exact Or.inr huse.symm
    · rw [hother (fun h => ht h.2)] at hd hd'
      simp only [ht, and_false, if_false, Nat.add_zero]
      exact h.uses.same e' task' d d' hd hd'

end StartOn

/-! ## Conditions -/

/-- No lock byte is on its way to `e`. -/
def LocksArrived (l : Link) (e : End) : Prop :=
  ∀ m ∈ (l.dir e.other).sent, isLockId m.1 = true → dataFor m.1 (l.dir e.other).sent
    = dataFor m.1 (l.dir e.other).received ++ box (l.dir e.other).rcv.mapbuffer m.1

instance (l : Link) (e : End) : Decidable (LocksArrived l e) :=
  inferInstanceAs (Decidable (∀ m ∈ (l.dir e.other).sent, _ → _))

/-- If `task` is the last one at `e`, every lock byte has arrived on the connection it closes. -/
def MayClose (p : TwoNodes) (e : End) (task : Bytes) : Prop :=
  (p.uncount e task).isLast e = true → ∀ c ∈ (p.nodes e).connections, (p.tcp c).isOpen = true →
    LocksArrived (p.tcp c).link e

instance (p : TwoNodes) (e : End) (task : Bytes) : Decidable (p.MayClose e task) :=
  inferInstanceAs (Decidable (_ → _))

def Orderly (p : TwoNodes) : NodeAct → Prop
  | .connect task => ∀ c ∈ (p.nodes .P).connections, ((p.tcp c).conns .P).reuseable = true →
      p.MayStart .P c task
  | .wake task => ∀ c ∈ (p.nodes .P).connections, p.MayStart .P c task
  | .startDialed task => ∀ c ∈ ((p.nodes .P).states task).own, p.MayStart .P c task
  | .find task => ∀ c ∈ (p.nodes .Q).connections, ((p.tcp c).conns .Q).reuseable = true →
      p.MayStart .Q c task
  | .leave e task => p.MayClose e task
  | .link _ a => a.Plain
  | _ => True

instance (p : TwoNodes) : DecidablePred p.Orderly
  | .connect _ | .wake _ | .startDialed _ | .find _ => inferInstanceAs (Decidable (∀ c ∈ _, _))
  | .leave e task => inferInstanceAs (Decidable (p.MayClose e task))
  | .link _ a => inferInstanceAs (Decidable a.Plain)
  | .serverStart _ | .dial _ | .dialFail _ | .publish _ | .accept | .put _ | .error _ _
  | .lost _ _ => isTrue trivial

/-! ## Steps that call `start` -/

theorem Together.connect (h : Together p) {task : Bytes} (hmay : p.Orderly (.connect task))
    (hp : p.exec (.connect task) = .ok p') : Together p' := by
  rw [exec] at hp
  split at hp
  · next hidle =>
    have hcount := h.count task
    have hmem : task ∈ ((p.setNode .P ((p.nodes .P).count task)).nodes .P).tasks :=
      Finset.mem_insert_self _ _
    rw [TwoNodes.connect] at hp
    split at hp
    · next c hmap =>
      split at hp
      · next hreuse =>
        have hstart : (p.setNode .P ((p.nodes .P).count task)).MayStart .P c task :=
          hmay c hmap hreuse
        refine hcount.startOn hstart (h.dials.mapped .P c hmap) (conn_of_state hidle) rfl hmem
          (fun _ => ⟨?_, rfl, rfl⟩) hp
        intro c' hd
        change (p.nodes .P).states task = .dialed c' at hd
        rw [hidle] at hd
        cases hd
      · next hreuse =>
        -- the connection is closed, and goes to `recycle_connections_`
        obtain rfl := Except.ok.inj hp
        refine Together.waitOrDial (hcount.retire ?_) hidle hmem rfl
        intro c' hmap'
        obtain rfl := Option.some.inj (hmap.symm.trans hmap')
        exact h.wires.reuse c .P (Bool.eq_false_iff.mpr hreuse)
    · next hmap =>
      obtain rfl := Except.ok.inj hp
      exact hcount.waitOrDial hidle hmem hmap
  · cases hp

theorem Together.wake (h : Together p) {task : Bytes} (hmay : p.Orderly (.wake task))
    (hp : p.exec (.wake task) = .ok p') : Together p' := by
  rw [exec] at hp
  split at hp
  · next c hwaiting hmap =>
    refine h.startOn (hmay c hmap) (h.dials.mapped .P c hmap) (conn_of_state hwaiting) rfl
      (h.uses.mem_tasks hwaiting (by rintro ⟨⟩)) (fun _ => ⟨?_, rfl, rfl⟩) hp
    intro c' hd
    rw [hwaiting] at hd
    cases hd
  · cases hp

theorem Together.startDialed (h : Together p) {task : Bytes} (hmay : p.Orderly (.startDialed task))
    (hp : p.exec (.startDialed task) = .ok p') : Together p' := by
  rw [exec] at hp
  split at hp
  · next c hpublished =>
    have hown : ((p.nodes .P).states task).own = some c := by
      rw [hpublished]
      rfl
    refine h.startOn (hmay c hown) (h.dials.own task c hown) (conn_of_state hpublished) rfl
      (h.uses.mem_tasks hpublished (by rintro ⟨⟩)) (fun _ => ⟨?_, rfl, rfl⟩) hp
    intro c' hd
    rw [hpublished] at hd
    cases hd
  · cases hp

theorem Together.find (h : Together p) {task : Bytes} (hmay : p.Orderly (.find task))
    (hp : p.exec (.find task) = .ok p') : Together p' := by
  rw [exec] at hp
  split at hp
  · next c hwaiting hmap =>
    split at hp
    · next hreuse =>
      refine h.startOn (hmay c hmap hreuse) (h.dials.mapped .Q c hmap) (conn_of_state hwaiting) rfl
        (h.uses.mem_tasks hwaiting (by rintro ⟨⟩)) ?_ hp
      rintro ⟨⟩
    · obtain rfl := Except.ok.inj hp
      exact h
  · obtain rfl := Except.ok.inj hp
    exact h
  · cases hp

/-! ## Steps that close -/

/-- With nothing to read, nothing waits in `mapbuffer_`. -/
theorem box_of_unrecv {r : RecvHalf} (h : r.getUnrecvSize = 0) (id : Bytes) :
    box r.mapbuffer id = [] := by
  unfold box
  cases hl : r.mapbuffer.lookup id with
  | none => rfl
  | some b =>
    have hmem : b.size ∈ r.mapbuffer.entries.map fun e => e.2.size :=
      List.mem_map.mpr ⟨⟨id, b⟩, AList.mem_lookup_iff.mp hl, rfl⟩
    have hsum : (r.mapbuffer.entries.map fun e => e.2.size).sum = 0 := (Nat.add_eq_zero_iff.mp h).2
    refine List.eq_nil_of_length_eq_zero ?_
    rw [length_contents]
    exact List.sum_eq_zero_iff_forall_eq_nat.mp hsum b.size hmem

theorem starts_eq_of_arrived {l : Link} (h : l.Locks) {e : End} (harrived : LocksArrived l e)
    (hunrecv : (l.dir e.other).rcv.getUnrecvSize = 0)
    (hout : ∀ task, (l.ends e).phase task = .out) (task : Bytes) :
    (l.ends e).starts task = (l.ends e.other).starts task := by
  have hphase := h.phase e task
  rw [hout] at hphase
  have hsame : dataFor (lockId task) (l.dir e.other).sent
      = dataFor (lockId task) (l.dir e.other).received := by
    by_cases hmem : ∃ m ∈ (l.dir e.other).sent, m.1 = lockId task
    · obtain ⟨m, hm, hid⟩ := hmem
      have hall := harrived m hm (by rw [hid]; exact isLockId_lockId task)
      rwa [box_of_unrecv hunrecv, List.append_nil, hid] at hall
    · -- the other end has not started the task
      have hnil : dataFor (lockId task) (l.dir e.other).sent = [] :=
        dataWhere_eq_nil fun m hm hid => hmem ⟨m, hm, hid⟩
      have hle := h.stops_le e task
      have hlen := congrArg List.length (hnil.symm.trans (h.sent e.other task))
      rw [List.length_nil, List.length_replicate] at hlen
      obtain hzero : (l.ends e).stops task = 0 := by omega
      rw [hnil, h.received, hzero]
      rfl
  rw [h.sent, h.received] at hsame
  have hlen := congrArg List.length hsame
  rw [List.length_replicate, List.length_replicate] at hlen
  simp only [Phase.owed] at hphase
  omega

theorem Together.uncount (h : Together p) {e : End} {task : Bytes} {c : Nat}
    (hactive : (p.nodes e).states task = .active c) (hout : p.phase e c task = .out) :
    Together (p.uncount e task) := by
  refine ⟨h.wires.congr rfl rfl, ?_, ?_⟩
  · refine h.dials.setState (s := .idle) rfl rfl ?_
    rintro rfl
    refine ⟨?_, rfl, rfl⟩
    intro c' hd
    rw [hactive] at hd
    cases hd
  · refine h.uses.setState (s := .idle) rfl ?_ (fun hne => absurd rfl hne) ?_ (Or.inl rfl)
    · intro task' ht hmem
      exact Finset.mem_erase.mpr ⟨ht, hmem⟩
    · intro c' hopen hphase
      have hconn := h.uses.phase e c' task hopen hphase
      rw [conn_of_state hactive] at hconn
      obtain rfl := Option.some.inj hconn
      exact absurd hout hphase

theorem Together.setToConnect (h : Together p) {b : Bool}
    (hb : ∀ task, ((p.nodes .P).states task).dials = true → b = true) :
    Together { p with toConnect := b } :=
  ⟨h.wires.congr rfl rfl,
    ⟨h.dials.accepted, h.dials.mapped, h.dials.own,
      fun task hd => ⟨hb task hd, (h.dials.dials task hd).2⟩, h.dials.one, h.dials.old,
      h.dials.newest⟩,
    h.uses.congr _ _⟩

/-- **The last task of a node closes no connection on which the nodes are apart.** -/
theorem Together.later_closeAll (h : Together p) {e : End} (hlast : p.isLast e = true) {c : Nat}
    (hmap : (p.nodes e).connections = some c)
    (harrived : (p.tcp c).isOpen = true → LocksArrived (p.tcp c).link e) {t : Tcp}
    (ht : (p.tcp c).close e = .ok t) : Tcp.Later (p.tcp c) t := by
  obtain ⟨hempty, hunrecv⟩ := of_decide_eq_true hlast
  refine Tcp.later_close ht fun hopen => ?_
  have hread : ((p.tcp c).link.dir e.other).rcv.getUnrecvSize = 0 := by
    rwa [unrecvSize, hmap] at hunrecv
  have hout : ∀ task, ((p.tcp c).link.ends e).phase task = .out := by
    intro task
    by_contra hphase
    have hconn := h.uses.phase e c task hopen hphase
    have hmem : task ∈ (p.nodes e).tasks := by
      refine h.uses.counted e task fun hidle => ?_
      rw [conn_of_state hidle] at hconn
      cases hconn
    rw [hempty] at hmem
    exact Finset.notMem_empty task hmem
  have heq := starts_eq_of_arrived (h.wires.locks c hopen) (harrived hopen) hread hout
  intro e' task
  rcases eq_or_ne e' e with rfl | he
  · exact heq task
  · obtain rfl := End.eq_of_ne he
    rw [heq, End.other_other]

theorem Together.closeAll (h : Together p) {e : End} (hlast : p.isLast e = true)
    (harrived : ∀ c ∈ (p.nodes e).connections, (p.tcp c).isOpen = true →
      LocksArrived (p.tcp c).link e)
    (hp : p.closeAll e = .ok p') : Together p' := by
  obtain ⟨q, hq, hp⟩ := Exec.bind_eq_ok.mp hp
  obtain rfl := Except.ok.inj hp
  obtain ⟨htogether, hnodes, htc, hclosed⟩ : Together q ∧ q.nodes = p.nodes ∧
      q.toConnect = p.toConnect ∧
      ∀ c, (p.nodes e).connections = some c → (q.tcp c).isOpen = false := by
    rw [TwoNodes.closeMapped] at hq
    split at hq
    · next c hmap =>
      obtain ⟨t, ht, hq⟩ := Exec.bind_eq_ok.mp hq
      obtain rfl := Except.ok.inj hq
      refine ⟨h.setTcp (h.later_closeAll hlast hmap (harrived c hmap) ht), rfl, rfl, ?_⟩
      intro c' hmap'
      obtain rfl := Option.some.inj (hmap.symm.trans hmap')
      rw [tcp_setTcp]
      exact Tcp.isOpen_eq_false.mpr ⟨e, (Tcp.close_ok ht).2.1⟩
    · next hmap =>
      obtain rfl := Except.ok.inj hq
      refine ⟨h, rfl, rfl, ?_⟩
      intro c hmap'
      rw [hmap] at hmap'
      cases hmap'
  refine (htogether.retire (by rwa [hnodes])).setToConnect ?_
  intro task hd
  have hstates : ((q.retire e).nodes .P).states = (p.nodes .P).states := by
    rw [← hnodes]
    cases e with
    | P => rfl
    | Q => rfl
  rw [hstates] at hd
  cases e with
  | P =>
    -- a task that dials is counted
    have hmem := h.uses.counted .P task (by rintro hidle; rw [hidle] at hd; cases hd)
    rw [(of_decide_eq_true hlast).1] at hmem
    exact absurd hmem (Finset.notMem_empty task)
  | Q =>
    rw [htc, (h.dials.dials task hd).1]
    rfl

theorem Together.leave (h : Together p) {e : End} {task : Bytes} (hmay : p.Orderly (.leave e task))
    (hp : p.exec (.leave e task) = .ok p') : Together p' := by
  rw [exec] at hp
  split at hp
  · next c hactive =>
    split at hp
    · next hout =>
      have huncount := h.uncount hactive hout
      rw [TwoNodes.leave] at hp
      split at hp
      · next hlast =>
        refine huncount.closeAll hlast ?_ hp
        intro c' hmap hopen
        have hmap' : (p.nodes e).connections = some c' := by
          rw [TwoNodes.uncount, nodes_setNode] at hmap
          exact hmap
        exact hmay hlast c' hmap' hopen
      · obtain rfl := Except.ok.inj hp
        exact huncount
    · cases hp
  · cases hp

/-! ## Runs -/

/-- **Every step keeps the two nodes together.** -/
theorem together_step (p : TwoNodes) (a : NodeAct) (p' : TwoNodes) (h : Together p)
    (ha : p.Orderly a) (hp : p.step a = some p') : Together p' := by
  have hp : p.exec a = .ok p' := Exec.toOption_eq_some.mp hp
  cases a with
  | serverStart task => exact h.serverStart hp
  | connect task => exact h.connect ha hp
  | wake task => exact h.wake ha hp
  | dial task => exact h.dial hp
  | dialFail task => exact h.dialFail hp
  | publish task => exact h.publish hp
  | startDialed task => exact h.startDialed ha hp
  | accept => exact h.accept hp
  | find task => exact h.find ha hp
  | put task => exact h.put hp
  | leave e task => exact h.leave ha hp
  | error e c =>
    rw [exec] at hp
    split at hp
    · next hclosed =>
      obtain rfl := Except.ok.inj hp
      exact h.setTcp (Tcp.later_spoil (Tcp.isOpen_eq_false.mpr ⟨e.other, hclosed⟩))
    · cases hp
  | lost e c =>
    rw [exec] at hp
    split at hp
    · next hclosed =>
      obtain ⟨t, ht, hp⟩ := Exec.bind_eq_ok.mp hp
      obtain rfl := Except.ok.inj hp
      refine h.setTcp (Tcp.later_close ht fun hopen => ?_)
      rw [Tcp.isOpen_eq_false.mpr ⟨e.other, hclosed⟩] at hopen
      cases hopen
    · cases hp
  | link c a =>
    rw [exec] at hp
    split at hp
    · next hmay =>
      obtain ⟨l, hl, hp⟩ := Exec.bind_eq_ok.mp hp
      obtain rfl := Except.ok.inj hp
      exact h.setTcp (Tcp.later_link hmay.2 ha hl)
    · cases hp

theorem together_new (h : TwoNodes.new = .ok p) : Together p := by
  obtain ⟨l, hl, h⟩ := Exec.bind_eq_ok.mp h
  obtain rfl := Except.ok.inj h
  have hlocks := Link.locks_new hl
  have hstarts : ∀ e task, (l.ends e).starts task = 0 := by
    intro e task
    obtain ⟨d, -, hl⟩ := Exec.bind_eq_ok.mp hl
    obtain rfl := Except.ok.inj hl
    rfl
  have hout : ∀ e task, (l.ends e).phase task = .out := by
    intro e task
    obtain ⟨d, -, hl⟩ := Exec.bind_eq_ok.mp hl
    obtain rfl := Except.ok.inj hl
    rfl
  constructor
  case wires =>
    refine ⟨fun _ _ => hlocks, ?_, fun _ _ e task => hstarts e task, ?_⟩
    · intro c hclosed
      cases hclosed
    · intro c e hreuse
      cases hreuse
  case dials =>
    refine ⟨Nat.le_refl 0, ?_, ?_, ?_, ?_, ?_, ?_⟩
    · intro e c hc
      cases hc
    · intro task c hc
      cases hc
    · intro task hd
      cases hd
    · intro task task' hd
      cases hd
    · intro c hc
      exact absurd hc (Nat.not_lt_zero c)
    · intro c _
      exact Nat.zero_le _
  case uses =>
    refine ⟨fun _ _ hne => absurd rfl hne, ?_, ?_, ?_, ?_⟩
    · intro e c task _ hphase
      exact absurd (hout e task) hphase
    · intro e task c hc
      cases hc
    · intro e task
      show 0 + (l.ends e.other).starts task = 0 + (l.ends e).starts task
      rw [hstarts, hstarts]
    · intro e task c c' hc
      cases hc

/-- **Both ends of a task use the same connection, in an orderly run.**

A task that is active at both nodes uses the two ends of one connection, and on a connection that
`P` has closed `Q` has started no task that `P` has not.
-/
theorem same_conn {p₀ : TwoNodes} {acts : List NodeAct} (hnew : TwoNodes.new = .ok p₀)
    (hacts : AllSteps step Orderly p₀ acts) (hrun : run step p₀ acts = some p) :
    (∀ task c c', p.conn .P task = some c → p.conn .Q task = some c' → c = c') ∧
      ∀ c, (p.tcp c).closedAt .P = true → ∀ task, p.starts .Q c task ≤ p.starts .P c task := by
  have h : Together p := run_invariant_of together_step (together_new hnew) hacts hrun
  constructor
  · intro task c c' hP hQ
    exact h.conn_eq hP hQ
  · intro c hclosed task
    have hshut := Tcp.isOpen_eq_false.mpr ⟨.P, hclosed⟩
    exact Nat.le_of_eq (h.wires.balanced c hshut .Q task)

/-- A task comes and goes, the last task of each node closes the connection, and the task comes back
on a new one. -/
theorem same_conn_small : ∃ p₀ acts p, TwoNodes.new = .ok p₀ ∧ AllSteps step Orderly p₀ acts ∧
    run step p₀ acts = some p ∧ p.conn .P [65] = some 1 ∧ (p.conn .Q [65]).isSome = true ∧
    ∀ c', p.conn .Q [65] = some c' → 1 = c' := by
  obtain ⟨acts, p₀, hnew, hacts, hview⟩ : ∃ acts : List NodeAct, ∃ p₀, TwoNodes.new = .ok p₀ ∧
      AllSteps step Orderly p₀ acts ∧
      (run step p₀ acts).map (fun p => (p.conn .P [65], (p.conn .Q [65]).isSome))
        = some (some 1, true) :=
    ⟨[.connect [65], .dial [65], .serverStart [65], .accept, .publish [65], .startDialed [65],
      .find [65], .put [65], .link 0 (.registered .P [65]), .link 0 (.registered .Q [65]),
      .link 0 (.net .P (.sendStart [65])), .link 0 (.net .P (.recvStart [65])),
      .link 0 (.net .Q (.sendStart [65])), .link 0 (.net .Q (.recvStart [65])),
      .link 0 (.net .P .drain), .link 0 (.net .P .flush), .link 0 (.net .P (.deliver 16)),
      .link 0 (.net .P .take), .link 0 (.net .P .store),
      .link 0 (.net .Q .drain), .link 0 (.net .Q .flush), .link 0 (.net .Q (.deliver 16)),
      .link 0 (.net .Q .take), .link 0 (.net .Q .store),
      .link 0 (.stop .P [65]), .link 0 (.lockRecv .P [65]), .link 0 (.net .P .sendStop),
      .link 0 (.net .Q .recvStop), .link 0 (.doStop .P [65]), .leave .P [65],
      .link 0 (.stop .Q [65]), .link 0 (.lockRecv .Q [65]), .link 0 (.net .Q .sendStop),
      .link 0 (.net .P .recvStop), .link 0 (.doStop .Q [65]), .error .Q 0, .leave .Q [65],
      .connect [65], .dial [65], .serverStart [65], .accept, .publish [65], .find [65], .put [65],
      .startDialed [65]], _, rfl, by decide, by decide⟩
  obtain ⟨p, hrun, hp⟩ := Option.map_eq_some_iff.mp hview
  obtain ⟨hP, hQ⟩ := Prod.mk.inj hp
  exact ⟨p₀, acts, p, hnew, hacts, hrun, hP, hQ,
    fun c' => (same_conn hnew hacts hrun).1 [65] 1 c' hP⟩

/-- `P` closes the connection when its first task ends, while the lock byte of the second task of
`Q` is in `send_buffer_` there; `P` starts the second task on a new connection. -/
theorem not_same_conn : ∃ p₀ p : TwoNodes, ∃ acts, TwoNodes.new = .ok p₀ ∧
    run step p₀ acts = some p ∧ p.conn .P [66] = some 1 ∧ p.conn .Q [66] = some 0 ∧
    (p.tcp 0).closedAt .P = true ∧ p.starts .Q 0 [66] = 1 ∧ p.starts .P 0 [66] = 0 := by
  obtain ⟨acts, p₀, hnew, hview⟩ : ∃ acts : List NodeAct, ∃ p₀, TwoNodes.new = .ok p₀ ∧
      (run step p₀ acts).map (fun p => decide (p.conn .P [66] = some 1 ∧ p.conn .Q [66] = some 0 ∧
        (p.tcp 0).closedAt .P = true ∧ p.starts .Q 0 [66] = 1 ∧ p.starts .P 0 [66] = 0))
        = some true :=
    ⟨[.connect [65], .dial [65], .serverStart [65], .accept, .publish [65], .startDialed [65],
      .find [65], .put [65], .link 0 (.registered .P [65]), .link 0 (.registered .Q [65]),
      .link 0 (.net .P (.sendStart [65])), .link 0 (.net .P (.recvStart [65])),
      .link 0 (.net .Q (.sendStart [65])), .link 0 (.net .Q (.recvStart [65])),
      .link 0 (.net .Q .drain), .link 0 (.net .Q .flush), .link 0 (.net .Q (.deliver 16)),
      .link 0 (.net .Q .take), .link 0 (.net .Q .store),
      .link 0 (.stop .P [65]), .link 0 (.lockRecv .P [65]), .link 0 (.net .P .sendStop),
      .link 0 (.net .Q .recvStop), .link 0 (.doStop .P [65]),
      .serverStart [66], .find [66], .put [66], .leave .P [65],
      .connect [66], .dial [66], .accept, .publish [66], .startDialed [66]], _, rfl, by decide⟩
  obtain ⟨p, hrun, hd⟩ := Option.map_eq_some_iff.mp hview
  exact ⟨p₀, p, acts, hnew, hrun, of_decide_eq_true hd⟩

end TwoNodes

end Rosetta

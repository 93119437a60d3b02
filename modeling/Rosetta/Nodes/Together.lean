import Rosetta.Link.Locks
import Rosetta.Nodes.Basic

/-!
# Both ends of a task

What a task has to find at both nodes is the same connection. `Together` is what holds along every
run in which no connection is closed, and none is used, too early or too late:

* `Wires` — the lock bytes of each connection; on a closed one both nodes have started the same tasks
* `Dials` — every connection but the newest is closed
* `Uses` — what the nodes have started on the newest connection, against all they have started
-/

namespace Rosetta

open Lib CycleBuffer

/-! ## A connection that goes on -/

/-- What may become of a connection without a call of `start`. -/
structure Tcp.Later (t t' : Tcp) : Prop where
  isOpen : t'.isOpen = true → t.isOpen = true
  starts : ∀ e, (t'.link.ends e).starts = (t.link.ends e).starts
  phase : ∀ e task, (t'.link.ends e).phase task ≠ .out → (t.link.ends e).phase task ≠ .out
  locks : t'.isOpen = true → t.link.Locks → t'.link.Locks
  balanced : t.isOpen = true → t'.isOpen = false →
    ∀ e task, (t.link.ends e).starts task = (t.link.ends e.other).starts task
  reuse : ∀ e, (t'.conns e).reuseable = false → t'.isOpen = false ∨ (t.conns e).reuseable = false

/-- A task that has begun has begun before, and no task has started anew. -/
def LinkEnd.GoesOn (x y : LinkEnd) : Prop :=
  y.starts = x.starts ∧ ∀ task, y.phase task ≠ .out → x.phase task ≠ .out

theorem LinkEnd.GoesOn.refl (x : LinkEnd) : x.GoesOn x := ⟨rfl, fun _ h => h⟩

theorem LinkEnd.goesOn_update {x y : LinkEnd} (hstarts : y.starts = x.starts) {task : Bytes}
    {ph : Phase} (hphase : y.phase = Function.update x.phase task ph) (hx : x.phase task ≠ .out) :
    x.GoesOn y := by
  refine ⟨hstarts, ?_⟩
  intro task' h
  rcases eq_or_ne task' task with rfl | hne
  · exact hx
  · rwa [hphase, Function.update_of_ne hne] at h

theorem Link.goesOn_setEnd {l : Link} {e : End} {x : LinkEnd} (h : (l.ends e).GoesOn x) (e' : End) :
    (l.ends e').GoesOn ((l.setEnd e x).ends e') :=
  Link.rel_setEnd LinkEnd.GoesOn LinkEnd.GoesOn.refl h e'

namespace Tcp

variable {t t' : Tcp} {e : End}

theorem goesOn_of_exec {a : LinkAct} {l : Link} (ha : t.mayStep a = true)
    (hl : t.link.exec a = .ok l) (e : End) : (t.link.ends e).GoesOn (l.ends e) := by
  cases Link.does_of_exec hl with
  | start => cases ha
  | registered hphase | stop hphase | doStop hphase =>
    refine Link.goesOn_setEnd ?_ _
    exact LinkEnd.goesOn_update rfl rfl (by simp [hphase])
  | @lockRecv e task d hwait hd =>
    refine Link.goesOn_setEnd (l := t.link.setDir e.other d) ?_ _
    exact LinkEnd.goesOn_update rfl rfl (by simp [hwait])
  | send | recv | net => exact LinkEnd.GoesOn.refl _

theorem later_link {a : LinkAct} {l : Link} (ha : t.mayStep a = true) (hplain : a.Plain)
    (hl : t.link.exec a = .ok l) : Later t { t with link := l } := by
  refine ⟨fun h => h, fun e => (goesOn_of_exec ha hl e).1, fun e => (goesOn_of_exec ha hl e).2,
    fun _ hlocks => Link.locks_step hlocks hplain hl, ?_, fun e h => Or.inr h⟩
  intro hopen hclosed
  change t.isOpen = false at hclosed
  rw [hopen] at hclosed
  cases hclosed

theorem isOpen_eq_false : t.isOpen = false ↔ ∃ e, t.closedAt e = true := by
  rw [isOpen]
  constructor
  · intro h
    cases hP : t.closedAt .P with
    | true => exact ⟨.P, hP⟩
    | false =>
      refine ⟨.Q, ?_⟩
      simpa [hP] using h
  · rintro ⟨e, he⟩
    cases e with
    | P => rw [he]; rfl
    | Q =>
      rw [he]
      cases t.closedAt .P with
      | false => rfl
      | true => rfl

theorem closedAt_spoil (e e' : End) : (t.spoil e).closedAt e' = t.closedAt e' := by
  rcases eq_or_ne e' e with rfl | he
  · simp [closedAt, spoil]
  · simp [closedAt, spoil, he]

theorem isOpen_spoil (e : End) : (t.spoil e).isOpen = t.isOpen := by
  rw [isOpen, isOpen, closedAt_spoil, closedAt_spoil]

theorem later_spoil (hclosed : t.isOpen = false) : Later t (t.spoil e) := by
  refine ⟨?_, fun _ => rfl, fun _ _ h => h, fun _ h => h, ?_, ?_⟩
  · rw [isOpen_spoil]
    exact fun h => h
  · intro hopen
    rw [hclosed] at hopen
    cases hopen
  · intro e' _
    rw [isOpen_spoil]
    exact Or.inl hclosed

theorem close_ok (h : t.close e = .ok t') : t'.link.ends = t.link.ends ∧ t'.closedAt e = true ∧
    ∀ e', (t'.conns e').reuseable = (t.conns e').reuseable := by
  rw [close] at h
  split at h
  · next hstate =>
    obtain ⟨d, -, h⟩ := Exec.bind_eq_ok.mp h
    obtain rfl := Except.ok.inj h
    have hclose : (t.conns e).close = ((t.conns e).closeBegin).closeEnd := if_pos hstate
    refine ⟨rfl, ?_, ?_⟩
    · simp [closedAt, hclose, PoolConn.closeEnd, ConnState.isClosed]
    · intro e'
      rcases eq_or_ne e' e with rfl | he
      · simp [hclose, PoolConn.closeEnd, PoolConn.closeBegin, hstate]
      · simp [Function.update_of_ne he]
  · next hstate =>
    obtain rfl := Except.ok.inj h
    refine ⟨rfl, ?_, fun _ => rfl⟩
    rw [closedAt, not_not.mp hstate]
    rfl

theorem later_close (h : t.close e = .ok t') (hbalanced : t.isOpen = true →
    ∀ e task, (t.link.ends e).starts task = (t.link.ends e.other).starts task) : Later t t' := by
  obtain ⟨hends, hclosed, -⟩ := close_ok h
  have hshut : t'.isOpen = false := isOpen_eq_false.mpr ⟨e, hclosed⟩
  refine ⟨?_, fun _ => by rw [hends], fun _ _ hp => by rwa [hends] at hp, ?_,
    fun hopen _ => hbalanced hopen, fun _ _ => Or.inl hshut⟩
  · intro hopen
    rw [hshut] at hopen
    cases hopen
  · intro hopen
    rw [hshut] at hopen
    cases hopen

end Tcp

namespace TwoNodes

/-- How often a task has called `start` on a connection. -/
def starts (p : TwoNodes) (e : End) (c : Nat) (task : Bytes) : Nat :=
  ((p.tcp c).link.ends e).starts task

def phase (p : TwoNodes) (e : End) (c : Nat) (task : Bytes) : Phase :=
  ((p.tcp c).link.ends e).phase task

structure Wires (p : TwoNodes) : Prop where
  locks : ∀ c, (p.tcp c).isOpen = true → (p.tcp c).link.Locks
  balanced : ∀ c, (p.tcp c).isOpen = false → ∀ e task, p.starts e c task = p.starts e.other c task
  fresh : ∀ c, p.next ≤ c → ∀ e task, p.starts e c task = 0
  reuse : ∀ c e, ((p.tcp c).conns e).reuseable = false → (p.tcp c).isOpen = false

structure Dials (p : TwoNodes) : Prop where
  accepted : p.accepted ≤ p.next
  mapped : ∀ e c, (p.nodes e).connections = some c → c < p.next
  own : ∀ task c, ((p.nodes .P).states task).own = some c → c < p.next
  dials : ∀ task, ((p.nodes .P).states task).dials = true →
    p.toConnect = true ∧ (p.nodes .P).connections = none
  one : ∀ task task', ((p.nodes .P).states task).dials = true →
    ((p.nodes .P).states task').dials = true → task = task'
  old : ∀ c, c < p.next → (p.tcp c).isOpen = true → (p.nodes .P).connections = some c ∨
    ∃ task, (p.nodes .P).states task = .dialed c
  newest : ∀ c, (p.tcp c).isOpen = true → p.next ≤ c + 1

structure Uses (p : TwoNodes) : Prop where
  counted : ∀ e task, (p.nodes e).states task ≠ .idle → task ∈ (p.nodes e).tasks
  phase : ∀ e c task, (p.tcp c).isOpen = true → p.phase e c task ≠ .out → p.conn e task = some c
  last : ∀ e task c, p.conn e task = some c →
    0 < p.starts e c task ∧ ∀ c', c < c' → p.starts e c' task = 0
  uses : ∀ e task, p.uses e task + p.starts e.other (p.next - 1) task
    = p.uses e.other task + p.starts e (p.next - 1) task
  same : ∀ e task c c', p.conn e task = some c → p.conn e.other task = some c' →
    c = c' ∨ p.uses e task = p.uses e.other task

structure Together (p : TwoNodes) : Prop where
  wires : p.Wires
  dials : p.Dials
  uses : p.Uses

variable {p p' : TwoNodes}

theorem Together.lt_of_conn (h : Together p) {e : End} {task : Bytes} {c : Nat}
    (hconn : p.conn e task = some c) : c < p.next := by
  obtain ⟨hpos, -⟩ := h.uses.last e task c hconn
  by_contra hge
  rw [h.wires.fresh c (Nat.not_lt.mp hge)] at hpos
  exact Nat.lt_irrefl 0 hpos

/-- **A task that is active at both nodes uses one connection.** -/
theorem Together.conn_eq (h : Together p) {task : Bytes} {c c' : Nat} (hP : p.conn .P task = some c)
    (hQ : p.conn .Q task = some c') : c = c' := by
  rcases h.uses.same .P task c c' hP hQ with heq | huses
  · exact heq
  · obtain ⟨hposP, hzeroP⟩ := h.uses.last .P task c hP
    obtain ⟨hposQ, hzeroQ⟩ := h.uses.last .Q task c' hQ
    have hnewest := h.uses.uses .P task
    -- with equally many uses, the nodes have started the task equally often on every connection
    have hstarts : ∀ d, d < p.next → p.starts .P d task = p.starts .Q d task := by
      intro d hd
      cases hopen : (p.tcp d).isOpen with
      | false => exact h.wires.balanced d hopen .P task
      | true =>
        have hle := h.dials.newest d hopen
        obtain rfl : p.next - 1 = d := by omega
        change p.uses .P task + p.starts .Q _ task = p.uses .Q task + p.starts .P _ task at hnewest
        change p.uses .P task = p.uses .Q task at huses
        omega
    have hc := h.lt_of_conn hP
    have hc' := h.lt_of_conn hQ
    rcases Nat.lt_trichotomy c c' with hlt | heq | hlt
    · rw [← hstarts c' hc', hzeroP c' hlt] at hposQ
      exact absurd hposQ (Nat.lt_irrefl 0)
    · exact heq
    · rw [hstarts c hc, hzeroQ c hlt] at hposP
      exact absurd hposP (Nat.lt_irrefl 0)

theorem tcp_setTcp (c : Nat) (t : Tcp) : (p.setTcp c t).tcp c = t := by
  rw [setTcp]
  exact Function.update_self ..

theorem tcp_setTcp_ne {c c' : Nat} (h : c' ≠ c) (t : Tcp) : (p.setTcp c t).tcp c' = p.tcp c' := by
  rw [setTcp]
  exact Function.update_of_ne h ..

theorem Wires.congr (h : Wires p) (htcp : p'.tcp = p.tcp) (hnext : p'.next = p.next) :
    Wires p' := by
  have hstarts : ∀ e c task, p'.starts e c task = p.starts e c task := by
    intro e c task
    rw [starts, starts, htcp]
  constructor
  case locks =>
    rw [htcp]
    exact h.locks
  case balanced => simpa only [htcp, hstarts] using h.balanced
  case fresh => simpa only [hnext, hstarts] using h.fresh
  case reuse =>
    rw [htcp]
    exact h.reuse

/-- Who dials, and what was accepted, makes no difference. -/
theorem Uses.congr (h : Uses p) (b : Bool) (n : Nat) :
    Uses { p with toConnect := b, accepted := n } :=
  ⟨h.counted, h.phase, h.last, h.uses, h.same⟩

section SetTcp

variable {c : Nat} {t : Tcp}

theorem starts_setTcp (ht : Tcp.Later (p.tcp c) t) (e : End) (c' : Nat) (task : Bytes) :
    (p.setTcp c t).starts e c' task = p.starts e c' task := by
  unfold starts
  rcases eq_or_ne c' c with rfl | hc
  · rw [tcp_setTcp, ht.starts]
  · rw [tcp_setTcp_ne hc]

theorem isOpen_setTcp (ht : Tcp.Later (p.tcp c) t) {c' : Nat}
    (h : ((p.setTcp c t).tcp c').isOpen = true) : (p.tcp c').isOpen = true := by
  rcases eq_or_ne c' c with rfl | hc
  · rw [tcp_setTcp] at h
    exact ht.isOpen h
  · rwa [tcp_setTcp_ne hc] at h

theorem phase_setTcp (ht : Tcp.Later (p.tcp c) t) {e : End} {c' : Nat} {task : Bytes}
    (h : (p.setTcp c t).phase e c' task ≠ .out) : p.phase e c' task ≠ .out := by
  unfold phase at h ⊢
  rcases eq_or_ne c' c with rfl | hc
  · rw [tcp_setTcp] at h
    exact ht.phase e task h
  · rwa [tcp_setTcp_ne hc] at h

theorem Wires.setTcp (h : Wires p) (ht : Tcp.Later (p.tcp c) t) : Wires (p.setTcp c t) := by
  constructor
  case locks =>
    intro c' hopen
    rcases eq_or_ne c' c with rfl | hc
    · rw [tcp_setTcp] at hopen ⊢
      exact ht.locks hopen (h.locks c' (ht.isOpen hopen))
    · rw [tcp_setTcp_ne hc] at hopen ⊢
      exact h.locks c' hopen
  case balanced =>
    intro c' hclosed e task
    rw [starts_setTcp ht, starts_setTcp ht]
    rcases eq_or_ne c' c with rfl | hc
    · rw [tcp_setTcp] at hclosed
      cases hopen : (p.tcp c').isOpen with
      | true => exact ht.balanced hopen hclosed e task
      | false => exact h.balanced c' hopen e task
    · rw [tcp_setTcp_ne hc] at hclosed
      exact h.balanced c' hclosed e task
  case fresh =>
    intro c' hc' e task
    rw [starts_setTcp ht]
    exact h.fresh c' hc' e task
  case reuse =>
    intro c' e hreuse
    rcases eq_or_ne c' c with rfl | hc
    · rw [tcp_setTcp] at hreuse ⊢
      rcases ht.reuse e hreuse with hclosed | hold
      · exact hclosed
      · -- a connection does not open again
        refine Bool.eq_false_iff.mpr fun hopen => ?_
        have hclosed := h.reuse c' e hold
        rw [ht.isOpen hopen] at hclosed
        cases hclosed
    · rw [tcp_setTcp_ne hc] at hreuse ⊢
      exact h.reuse c' e hreuse

theorem Dials.setTcp (h : Dials p) (ht : Tcp.Later (p.tcp c) t) : Dials (p.setTcp c t) :=
  ⟨h.accepted, h.mapped, h.own, h.dials, h.one,
    fun c' hc' hopen => h.old c' hc' (isOpen_setTcp ht hopen),
    fun c' hopen => h.newest c' (isOpen_setTcp ht hopen)⟩

theorem Uses.setTcp (h : Uses p) (ht : Tcp.Later (p.tcp c) t) : Uses (p.setTcp c t) := by
  refine ⟨h.counted, ?_, ?_, ?_, h.same⟩
  · intro e c' task hopen hphase
    exact h.phase e c' task (isOpen_setTcp ht hopen) (phase_setTcp ht hphase)
  · intro e task c' hconn
    simp only [starts_setTcp ht]
    exact h.last e task c' hconn
  · intro e task
    rw [starts_setTcp ht, starts_setTcp ht]
    exact h.uses e task

theorem Together.setTcp (h : Together p) (ht : Tcp.Later (p.tcp c) t) : Together (p.setTcp c t) :=
  ⟨h.wires.setTcp ht, h.dials.setTcp ht, h.uses.setTcp ht⟩

end SetTcp

/-! ## Tasks that do not call `start` -/

theorem nodes_setNode (e : End) (n : Node) : (p.setNode e n).nodes e = n := by
  rw [setNode]
  exact Function.update_self ..

theorem nodes_setNode_ne {e e' : End} (h : e' ≠ e) (n : Node) :
    (p.setNode e n).nodes e' = p.nodes e' := by
  rw [setNode]
  exact Function.update_of_ne h ..

section SetNode

variable {e : End} {n : Node}

theorem conn_of_setNode
    (hlast : ∀ task, (n.states task).conn = none ∨ (n.states task).conn = p.conn e task) {e' : End}
    {task : Bytes} {c : Nat} (h : (p.setNode e n).conn e' task = some c) :
    p.conn e' task = some c := by
  unfold conn at h
  rcases eq_or_ne e' e with rfl | he
  · rw [nodes_setNode] at h
    rcases hlast task with hnone | hsame
    · rw [hnone] at h
      cases h
    · rw [← hsame]
      exact h
  · rwa [nodes_setNode_ne he] at h

/-- Tasks of one node come, or let their connections go. -/
theorem Uses.setNode (h : Uses p) (hcounted : ∀ task, n.states task ≠ .idle → task ∈ n.tasks)
    (hphase : ∀ c task, (p.tcp c).isOpen = true → p.phase e c task ≠ .out →
      (n.states task).conn = some c)
    (hlast : ∀ task, (n.states task).conn = none ∨ (n.states task).conn = p.conn e task) :
    Uses (p.setNode e n) := by
  refine ⟨?_, ?_, ?_, h.uses, ?_⟩
  · intro e' task
    rcases eq_or_ne e' e with rfl | he
    · rw [nodes_setNode]
      exact hcounted task
    · rw [nodes_setNode_ne he]
      exact h.counted e' task
  · intro e' c task hopen hp
    unfold conn
    rcases eq_or_ne e' e with rfl | he
    · rw [nodes_setNode]
      exact hphase c task hopen hp
    · rw [nodes_setNode_ne he]
      exact h.phase e' c task hopen hp
  · intro e' task c hc
    exact h.last e' task c (conn_of_setNode hlast hc)
  · intro e' task c c' hc hc'
    exact h.same e' task c c' (conn_of_setNode hlast hc) (conn_of_setNode hlast hc')

variable {task : Bytes} {s : TaskState}

theorem Uses.setState (h : Uses p) (hstates : n.states = Function.update (p.nodes e).states task s)
    (hsub : ∀ task', task' ≠ task → task' ∈ (p.nodes e).tasks → task' ∈ n.tasks)
    (htask : s ≠ .idle → task ∈ n.tasks)
    (hphase : ∀ c, (p.tcp c).isOpen = true → p.phase e c task ≠ .out → s.conn = some c)
    (hlast : s.conn = none ∨ s.conn = p.conn e task) : Uses (p.setNode e n) := by
  refine h.setNode ?_ ?_ ?_
  · rw [hstates, Function.forall_update_iff (p.nodes e).states fun t s => s ≠ .idle → t ∈ n.tasks]
    exact ⟨htask, fun task' ht hne => hsub task' ht (h.counted e task' hne)⟩
  · intro c
    rw [hstates, Function.forall_update_iff (p.nodes e).states fun t s => (p.tcp c).isOpen = true →
      p.phase e c t ≠ .out → s.conn = some c]
    exact ⟨hphase c, fun task' _ => h.phase e c task'⟩
  · rw [hstates, Function.forall_update_iff (p.nodes e).states fun t s => s.conn = none ∨ s.conn = p.conn e t]
    exact ⟨hlast, fun _ _ => Or.inr rfl⟩

/-- A task without a connection gets none. -/
theorem Uses.setState_none (h : Uses p)
    (hstates : n.states = Function.update (p.nodes e).states task s)
    (hsub : ∀ task', task' ≠ task → task' ∈ (p.nodes e).tasks → task' ∈ n.tasks)
    (htask : s ≠ .idle → task ∈ n.tasks) (hnone : p.conn e task = none) (hs : s.conn = none) :
    Uses (p.setNode e n) := by
  refine h.setState hstates hsub htask ?_ (Or.inl hs)
  intro c hopen hp
  have hconn := h.phase e c task hopen hp
  rw [hnone] at hconn
  cases hconn

theorem Uses.setMap (h : Uses p) (hstates : n.states = (p.nodes e).states)
    (htasks : n.tasks = (p.nodes e).tasks) : Uses (p.setNode e n) := by
  refine h.setNode ?_ ?_ ?_
  · rw [hstates, htasks]
    exact h.counted e
  · rw [hstates]
    exact h.phase e
  · intro task
    rw [hstates]
    exact Or.inr rfl

theorem mapped_setNode {k : Nat} (h : ∀ e c, (p.nodes e).connections = some c → c < k)
    (hn : ∀ c, n.connections = some c → c < k) (e' : End) (c : Nat)
    (hc : ((p.setNode e n).nodes e').connections = some c) : c < k := by
  rcases eq_or_ne e' e with rfl | he
  · rw [nodes_setNode] at hc
    exact hn c hc
  · rw [nodes_setNode_ne he] at hc
    exact h e' c hc

theorem own_update {f : Bytes → TaskState} {k : Nat} (hf : ∀ task c, (f task).own = some c → c < k)
    (hs : ∀ c, s.own = some c → c < k) :
    ∀ task' c, (Function.update f task s task').own = some c → c < k := by
  rw [Function.forall_update_iff f fun _ s => ∀ c, s.own = some c → c < k]
  exact ⟨hs, fun task' _ => hf task'⟩

/-- The only task that dials may go on in its own way. -/
theorem one_update {f : Bytes → TaskState} (honly : ∀ task', (f task').dials = true → task' = task)
    (task' task'' : Bytes) (hd : (Function.update f task s task').dials = true)
    (hd' : (Function.update f task s task'').dials = true) : task' = task'' := by
  have hself : ∀ t, (Function.update f task s t).dials = true → t = task := by
    rw [Function.forall_update_iff f fun t s => s.dials = true → t = task]
    exact ⟨fun _ => rfl, fun t _ => honly t⟩
  exact (hself task' hd).trans (hself task'' hd').symm

theorem Dials.setState (h : Dials p) (hstates : n.states = Function.update (p.nodes e).states task s)
    (hmap : n.connections = (p.nodes e).connections)
    (hP : e = .P → (∀ c, (p.nodes .P).states task ≠ .dialed c) ∧ s.dials = false ∧ s.own = none) :
    Dials (p.setNode e n) := by
  have hmapped : ∀ e' c, ((p.setNode e n).nodes e').connections = some c → c < p.next := by
    refine mapped_setNode h.mapped ?_
    rw [hmap]
    exact h.mapped e
  cases e with
  | Q => exact ⟨h.accepted, hmapped, h.own, h.dials, h.one, h.old, h.newest⟩
  | P =>
    obtain ⟨hdialed, hdials, hown⟩ := hP rfl
    have hne : ∀ {task'}, (n.states task').dials = true → task' ≠ task ∧
        ((p.nodes .P).states task').dials = true := by
      intro task' hd
      rw [hstates] at hd
      rcases eq_or_ne task' task with rfl | ht
      · rw [Function.update_self, hdials] at hd
        cases hd
      · rw [Function.update_of_ne ht] at hd
        exact ⟨ht, hd⟩
    refine ⟨h.accepted, hmapped, ?_, ?_, ?_, ?_, h.newest⟩
    · change ∀ task' c, (n.states task').own = some c → c < p.next
      rw [hstates]
      refine own_update h.own fun c hc => ?_
      rw [hown] at hc
      cases hc
    · intro task' hd
      obtain ⟨htc, hnone⟩ := h.dials task' (hne hd).2
      exact ⟨htc, hmap.trans hnone⟩
    · intro task' task'' hd hd'
      exact h.one task' task'' (hne hd).2 (hne hd').2
    · intro c hc hopen
      rcases h.old c hc hopen with hm | ⟨task', ht'⟩
      · exact Or.inl (hmap.trans hm)
      · refine Or.inr ⟨task', ?_⟩
        change n.states task' = .dialed c
        rw [hstates]
        rcases eq_or_ne task' task with rfl | ht
        · exact absurd ht' (hdialed c)
        · rw [Function.update_of_ne ht]
          exact ht'

/-- A closed connection leaves the map. -/
theorem Dials.retire (h : Dials p)
    (hclosed : ∀ c, (p.nodes e).connections = some c → (p.tcp c).isOpen = false) :
    Dials (p.retire e) := by
  have hmapped : ∀ e' c, ((p.retire e).nodes e').connections = some c → c < p.next := by
    refine mapped_setNode h.mapped ?_
    rintro c ⟨⟩
  cases e with
  | Q => exact ⟨h.accepted, hmapped, h.own, h.dials, h.one, h.old, h.newest⟩
  | P =>
    refine ⟨h.accepted, hmapped, h.own, fun task hd => ⟨(h.dials task hd).1, rfl⟩, h.one, ?_,
      h.newest⟩
    intro c hc hopen
    rcases h.old c hc hopen with hm | hd
    · exact absurd hopen (Bool.eq_false_iff.mp (hclosed c hm))
    · exact Or.inr hd

end SetNode

section Actions

variable {task : Bytes}

theorem conn_of_state {e : End} {s : TaskState} (h : (p.nodes e).states task = s) :
    p.conn e task = s.conn := congrArg TaskState.conn h

theorem Uses.mem_tasks (h : Uses p) {e : End} {s : TaskState}
    (hstate : (p.nodes e).states task = s) (hs : s ≠ .idle) : task ∈ (p.nodes e).tasks := by
  refine h.counted e task ?_
  rw [hstate]
  exact hs

theorem Together.serverStart (h : Together p) (hp : p.exec (.serverStart task) = .ok p') :
    Together p' := by
  rw [exec] at hp
  split at hp
  · next hidle =>
    obtain rfl := Except.ok.inj hp
    refine ⟨h.wires.congr rfl rfl, ?_, ?_⟩
    · exact h.dials.setState rfl rfl (fun he => by cases he)
    · exact h.uses.setState_none rfl (fun _ _ hm => Finset.mem_insert_of_mem hm)
        (fun _ => Finset.mem_insert_self _ _) (conn_of_state hidle) rfl
  · cases hp

/-- `task_count_++`. -/
theorem Together.count (h : Together p) (task : Bytes) :
    Together (p.setNode .P ((p.nodes .P).count task)) := by
  refine ⟨h.wires.congr rfl rfl, ?_, ?_⟩
  · exact ⟨h.dials.accepted, mapped_setNode h.dials.mapped (h.dials.mapped .P), h.dials.own,
      h.dials.dials, h.dials.one, h.dials.old, h.dials.newest⟩
  · refine h.uses.setNode ?_ (h.uses.phase .P) (fun _ => Or.inr rfl)
    intro task' hne
    exact Finset.mem_insert_of_mem (h.uses.counted .P task' hne)

theorem Together.retire (h : Together p) {e : End}
    (hclosed : ∀ c, (p.nodes e).connections = some c → (p.tcp c).isOpen = false) :
    Together (p.retire e) :=
  ⟨h.wires.congr rfl rfl, h.dials.retire hclosed, h.uses.setMap rfl rfl⟩

theorem Together.waitOrDial (h : Together p) (hidle : (p.nodes .P).states task = .idle)
    (hcount : task ∈ (p.nodes .P).tasks) (hmap : (p.nodes .P).connections = none) :
    Together (p.waitOrDial task) := by
  have huses : ∀ s : TaskState, s.conn = none → Uses (p.setState .P task s) := by
    intro s hs
    exact h.uses.setState_none rfl (fun _ _ hm => hm) (fun _ => hcount) (conn_of_state hidle) hs
  rw [TwoNodes.waitOrDial]
  split
  · have hnot : ∀ c, (p.nodes .P).states task ≠ .dialed c := by
      intro c hd
      rw [hidle] at hd
      cases hd
    exact ⟨h.wires.congr rfl rfl, h.dials.setState rfl rfl fun _ => ⟨hnot, rfl, rfl⟩,
      huses _ rfl⟩
  · next htc =>
    have hu := huses .dialing rfl
    refine ⟨h.wires.congr rfl rfl, ?_, hu.congr _ _⟩
    refine ⟨h.dials.accepted, mapped_setNode h.dials.mapped (h.dials.mapped .P), ?_,
      fun _ _ => ⟨rfl, hmap⟩, ?_, ?_, h.dials.newest⟩
    · refine own_update h.dials.own ?_
      rintro c ⟨⟩
    · -- nobody else dials
      exact one_update fun task' hd => absurd (h.dials.dials task' hd).1 htc
    · intro c hc hopen
      rcases h.dials.old c hc hopen with hm | ⟨task', ht'⟩
      · exact Or.inl hm
      · refine absurd (h.dials.dials task' ?_).1 htc
        rw [ht']
        rfl

/-- A task dials when the map is empty, and no other one does: all connections are closed. -/
theorem Dials.closed_of_dialing (h : Dials p) (hdialing : (p.nodes .P).states task = .dialing)
    {c : Nat} (hc : c < p.next) : (p.tcp c).isOpen = false := by
  have hd : ((p.nodes .P).states task).dials = true := by
    rw [hdialing]
    rfl
  refine Bool.eq_false_iff.mpr fun hopen => ?_
  rcases h.old c hc hopen with hm | ⟨task', ht'⟩
  · rw [(h.dials task hd).2] at hm
    cases hm
  · obtain rfl := h.one task' task (by rw [ht']; rfl) hd
    rw [hdialing] at ht'
    cases ht'

theorem Dials.dial (h : Dials p) (hdialing : (p.nodes .P).states task = .dialing) :
    Dials { p.setState .P task (.dialed p.next) with next := p.next + 1 } := by
  have hd : ((p.nodes .P).states task).dials = true := by
    rw [hdialing]
    rfl
  have hnew : ∀ c, (p.tcp c).isOpen = true → p.next ≤ c := by
    intro c hopen
    by_contra hlt
    rw [h.closed_of_dialing hdialing (Nat.not_le.mp hlt)] at hopen
    cases hopen
  refine ⟨Nat.le_succ_of_le h.accepted, ?_, ?_, fun _ _ => h.dials task hd, ?_, ?_, ?_⟩
  · refine mapped_setNode (fun e c hc => Nat.lt_succ_of_lt (h.mapped e c hc)) ?_
    exact fun c hc => Nat.lt_succ_of_lt (h.mapped .P c hc)
  · refine own_update (fun task' c hown => Nat.lt_succ_of_lt (h.own task' c hown)) ?_
    rintro c ⟨⟩
    exact Nat.lt_succ_self _
  · exact one_update fun task' hd' => h.one task' task hd' hd
  · intro c hc hopen
    refine Or.inr ⟨task, ?_⟩
    obtain rfl : c = p.next := Nat.le_antisymm (Nat.le_of_lt_succ hc) (hnew c hopen)
    exact Function.update_self ..
  · intro c hopen
    exact Nat.succ_le_succ (hnew c hopen)

/-- On a connection that is not yet dialed nothing is started, and all others are balanced. -/
theorem Together.uses_dial (h : Together p) (hdialing : (p.nodes .P).states task = .dialing) :
    Uses { p.setState .P task (.dialed p.next) with next := p.next + 1 } := by
  have hu : Uses (p.setState .P task (.dialed p.next)) :=
    h.uses.setState_none rfl (fun _ _ hm => hm)
      (fun _ => h.uses.mem_tasks hdialing (by rintro ⟨⟩)) (conn_of_state hdialing) rfl
  refine ⟨hu.counted, hu.phase, hu.last, ?_, hu.same⟩
  intro e task'
  have hzero : ∀ e, p.starts e p.next task' = 0 :=
    fun e => h.wires.fresh p.next (Nat.le_refl _) e task'
  have hequal : p.starts e (p.next - 1) task' = p.starts e.other (p.next - 1) task' := by
    rcases Nat.eq_zero_or_pos p.next with h0 | hpos
    · have hle : p.next ≤ p.next - 1 := by omega
      rw [h.wires.fresh _ hle, h.wires.fresh _ hle]
    · have hlt : p.next - 1 < p.next := by omega
      exact h.wires.balanced _ (h.dials.closed_of_dialing hdialing hlt) e task'
  have huses := h.uses.uses e task'
  change p.uses e task' + p.starts e.other (p.next + 1 - 1) task'
    = p.uses e.other task' + p.starts e (p.next + 1 - 1) task'
  rw [Nat.add_sub_cancel, hzero, hzero]
  omega

theorem Together.dial (h : Together p) (hp : p.exec (.dial task) = .ok p') : Together p' := by
  rw [exec] at hp
  split at hp
  · next hdialing =>
    obtain rfl := Except.ok.inj hp
    refine ⟨⟨h.wires.locks, h.wires.balanced, ?_, h.wires.reuse⟩, h.dials.dial hdialing,
      h.uses_dial hdialing⟩
    intro c hc e task'
    exact h.wires.fresh c (Nat.le_of_succ_le hc) e task'
  · cases hp

theorem Together.dialFail (h : Together p) (hp : p.exec (.dialFail task) = .ok p') :
    Together p' := by
  rw [exec] at hp
  split at hp
  · next hdialing =>
    obtain rfl := Except.ok.inj hp
    refine ⟨h.wires.congr rfl rfl, ?_, ?_⟩
    · refine h.dials.setState rfl rfl fun _ => ⟨?_, rfl, rfl⟩
      intro c hd
      rw [hdialing] at hd
      cases hd
    · exact h.uses.setState_none rfl (fun _ _ hm => hm)
        (fun _ => h.uses.mem_tasks hdialing (by rintro ⟨⟩)) (conn_of_state hdialing) rfl
  · cases hp

theorem Together.publish (h : Together p) (hp : p.exec (.publish task) = .ok p') :
    Together p' := by
  rw [exec] at hp
  split at hp
  · next c hdialed =>
    obtain rfl := Except.ok.inj hp
    have hd : ((p.nodes .P).states task).dials = true := by
      rw [hdialed]
      rfl
    obtain ⟨-, hmap⟩ := h.dials.dials task hd
    have hlt : c < p.next := h.dials.own task c (by rw [hdialed]; rfl)
    have hu : Uses (p.setNode .P (((p.nodes .P).insert c).setState task (.published c))) :=
      h.uses.setState_none rfl (fun _ _ hm => hm)
        (fun _ => h.uses.mem_tasks hdialed (by rintro ⟨⟩)) (conn_of_state hdialed) rfl
    refine ⟨h.wires.congr rfl rfl, ?_, hu.congr _ _⟩
    have hnone : ∀ {task'},
        (Function.update (p.nodes .P).states task (.published c) task').dials ≠ true := by
      intro task' hd'
      rcases eq_or_ne task' task with rfl | ht
      · rw [Function.update_self] at hd'
        cases hd'
      · rw [Function.update_of_ne ht] at hd'
        exact ht (h.dials.one _ _ hd' hd)
    refine ⟨h.dials.accepted, ?_, ?_, fun _ hd' => absurd hd' hnone, fun _ _ hd' => absurd hd' hnone,
      ?_, h.dials.newest⟩
    · refine mapped_setNode h.dials.mapped ?_
      intro c' hc'
      change (p.nodes .P).connections.or (some c) = some c' at hc'
      rw [hmap] at hc'
      obtain rfl := Option.some.inj hc'
      exact hlt
    · refine own_update h.dials.own ?_
      rintro c' ⟨⟩
      exact hlt
    · intro c' hc' hopen
      left
      rcases h.dials.old c' hc' hopen with hm | ⟨task', ht'⟩
      · rw [hmap] at hm
        cases hm
      · obtain rfl := h.dials.one task' task (by rw [ht']; rfl) hd
        rw [hdialed] at ht'
        obtain rfl := TaskState.dialed.inj ht'
        change (p.nodes .P).connections.or (some c) = some c
        rw [hmap]
        rfl
  · cases hp

theorem Together.accept (h : Together p) (hp : p.exec .accept = .ok p') : Together p' := by
  rw [exec] at hp
  split at hp
  · next hlt =>
    obtain rfl := Except.ok.inj hp
    have hu : Uses (p.setNode .Q { p.nodes .Q with connections := some p.accepted }) :=
      h.uses.setMap rfl rfl
    refine ⟨h.wires.congr rfl rfl,
      ⟨hlt, ?_, h.dials.own, h.dials.dials, h.dials.one, h.dials.old, h.dials.newest⟩,
      hu.congr _ _⟩
    refine mapped_setNode h.dials.mapped ?_
    rintro c ⟨⟩
    exact hlt
  · cases hp

theorem Together.put (h : Together p) (hp : p.exec (.put task) = .ok p') : Together p' := by
  rw [exec] at hp
  split at hp
  · next c hfound =>
    obtain rfl := Except.ok.inj hp
    have htask : task ∈ (p.nodes .Q).tasks := h.uses.mem_tasks hfound (by rintro ⟨⟩)
    have hconn : p.conn .Q task = some c := conn_of_state hfound
    refine ⟨h.wires.congr rfl rfl, h.dials.setState rfl rfl (fun he => by cases he), ?_⟩
    split
    · refine h.uses.setState rfl (fun _ _ hm => hm) (fun _ => htask) ?_ (Or.inr hconn.symm)
      intro c' hopen hphase
      rw [← h.uses.phase .Q c' task hopen hphase, hconn]
      rfl
    · next hreuse =>
      -- the connection is closed, and the call of `start` there is forgotten
      refine h.uses.setState rfl (fun _ _ hm => hm) (fun _ => htask) ?_ (Or.inl rfl)
      intro c' hopen hphase
      have hconn' := h.uses.phase .Q c' task hopen hphase
      rw [hconn] at hconn'
      obtain rfl := Option.some.inj hconn'
      rw [h.wires.reuse c .Q (Bool.eq_false_iff.mpr hreuse)] at hopen
      cases hopen
  · cases hp

end Actions

end TwoNodes

end Rosetta

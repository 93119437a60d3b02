import Mathlib.Algebra.BigOperators.Group.Finset.Basic
import Rosetta.Lib.Diamond
import Rosetta.Mesh.Agreement

/-!
# All nodes get to know their peers

* `listener` — the queue of a node and the reports about it, as a `Listener`
* `Heard` — what holds in addition while every hello comes in whole
* `todo` — a bound on the steps that are left
* `completes` — the steps come to an end, and then each node has all its peers in `connection_map`
-/

namespace Rosetta

open Lib

namespace Listener

variable {l : Listener} {g : Greeting} {expectedCids : List ClientId} {cid : Bytes}

theorem step_greet (hloop : l.loop = .accepted g)
    (hgreet : Rosetta.greet expectedCids g = .ok (.registered cid)) :
    l.step (.greet expectedCids) = some { l with loop := .registered } := by
  simp only [step, hloop, hgreet]

theorem rearmed_greet (hloop : l.loop = .accepted g)
    (hgreet : Rosetta.greet expectedCids g = .ok (.registered cid)) :
    l.Rearmed (.greet expectedCids) := by
  simp only [Rearmed, hloop, hgreet]
  intro hret
  cases hret

/-- The client is turned away. -/
theorem step_greet_stranger (hloop : l.loop = .accepted g)
    (hgreet : Rosetta.greet expectedCids g = .ok (.notReallyClient cid)) :
    l.step (.greet expectedCids) = some { l with loop := .polling } := by
  simp only [step, hloop, hgreet]

end Listener

namespace Mesh

open Function

variable {r : Roster} {m m' : Mesh} {a b : ClientId}

/-! ## The listening sockets -/

/-- A listening socket with these clients in its queue. -/
def listenerOf (pending : List ClientId) (ready : Bool) (loop : MeshLoop) : Listener where
  pending := pending.map fun a => .ofHello a.hello
  ready := ready
  loop := match loop with
    | .polling => .polling
    | .reported => .reported
    | .accepted a | .acked a => .accepted (.ofHello a.hello)
    | .registered => .registered

/-- The listening socket of a node. -/
def listener (m : Mesh) (b : ClientId) : Listener := listenerOf (m.pending b) (m.ready b) (m.loop b)

theorem listener_congr (hpending : m'.pending b = m.pending b) (hready : m'.ready b = m.ready b)
    (hloop : m'.loop b = m.loop b) : m'.listener b = m.listener b := by
  unfold listener
  rw [hpending, hready, hloop]

/-- **A step at a node is a step of its listening socket, or none**, and `handle_accept` returns
early only when a hello is cut short. -/
theorem listener_step (h : Inv r m) {act : MeshAct} (hstep : m.step r act = some m')
    (x : ClientId) : m'.listener x = m.listener x ∨
      ∃ y, (m.listener x).step y = some (m'.listener x) ∧
        (act.whole = true → (m.listener x).Rearmed y) := by
  cases does_of_step hstep with
  | listen | start | reuse | readAck | writeHello | publish | put => exact .inl rfl
  | @connect a b =>
    by_cases hx : x = b
    · subst hx
      refine .inr ⟨.arrive (.ofHello a.hello), ?_, fun _ => trivial⟩
      simp [Listener.step, listener, listenerOf]
    · exact .inl (listener_congr (update_of_ne hx _ _) (update_of_ne hx _ _) rfl)
  | @epollWait b hstarted hloop hready =>
    by_cases hx : x = b
    · subst hx
      refine .inr ⟨.epollWait, ?_, fun _ => trivial⟩
      simp [Listener.step, listener, listenerOf, hloop, hready]
    · exact .inl (listener_congr rfl (update_of_ne hx _ _) (update_of_ne hx _ _))
  | @accept a b rest hloop hpending =>
    by_cases hx : x = b
    · subst hx
      refine .inr ⟨.accept, ?_, fun _ => trivial⟩
      simp [Listener.step, listener, listenerOf, hloop, hpending]
    · exact .inl (listener_congr (update_of_ne hx _ _) rfl (update_of_ne hx _ _))
  | @writeAck a b hloop =>
    by_cases hx : x = b
    · subst hx
      exact .inl (by simp [listener, listenerOf, hloop])
    · exact .inl (listener_congr rfl rfl (update_of_ne hx _ _))
  | @register a b cut hello cid hloop hhello hgreet =>
    by_cases hx : x = b
    · subst hx
      have hall := greet_of_mem (h.greeted hhello).2.2
      have hat : (m.listener x).loop = .accepted (.ofHello a.hello) := by
        simp only [listener, listenerOf, hloop]
      refine .inr ⟨.greet (r.expects x), ?_, fun _ => Listener.rearmed_greet hat hall⟩
      rw [Listener.step_greet hat hall]
      simp only [listener, listenerOf, update_self]
    · exact .inl (listener_congr rfl rfl (update_of_ne hx _ _))
  | @refuse a b cut hello hloop hhello hgreet =>
    by_cases hx : x = b
    · subst hx
      have hat : (m.listener x).loop = .accepted (.ofHello a.hello) := by
        simp only [listener, listenerOf, hloop]
      refine .inr ⟨.greet [], ?_, fun hwhole => ?_⟩
      · rw [Listener.step_greet_stranger hat (greet_hello [] a)]
        simp only [listener, listenerOf, update_self]
      · obtain rfl := Option.isNone_iff_eq_none.mp hwhole
        exact absurd (h.greet_registers hhello) (hgreet _)
    · exact .inl (listener_congr rfl rfl (update_of_ne hx _ _))
  | @epollMod b hloop =>
    by_cases hx : x = b
    · subst hx
      refine .inr ⟨.epollMod, ?_, fun _ => trivial⟩
      simp [Listener.step, listener, listenerOf, hloop]
    · exact .inl (listener_congr rfl (update_of_ne hx _ _) (update_of_ne hx _ _))

/-- A node has begun. -/
def Begun (m : Mesh) (b : ClientId) : Prop :=
  m.listening b = true ∨ m.started b = true ∨ m.loop b ≠ .polling

/-- The loop goes on at a node that has begun. -/
theorem begun_of_loop {loop : ClientId → MeshLoop} {l : MeshLoop} (hb : m.Begun b)
    {x : ClientId} (hx : m.listening x = true ∨ m.started x = true ∨ loop x ≠ .polling)
    (hloop : loop = update m.loop b l) : m.Begun x := by
  by_cases hxb : x = b
  · subst hxb
    exact hb
  · rwa [hloop, update_of_ne hxb] at hx

theorem begun_of_step {act : MeshAct} (hstep : m.step r act = some m') {x : ClientId}
    (hx : m'.Begun x) : x ∈ r.nodes ∨ m.Begun x := by
  cases does_of_step hstep with
  | @listen a ha =>
    by_cases hxa : x = a
    · exact .inl (hxa ▸ ha)
    · right
      simpa only [Begun, update_of_ne hxa] using hx
  | @start a hlistening =>
    right
    by_cases hxa : x = a
    · exact .inl (hxa ▸ hlistening)
    · simpa only [Begun, update_of_ne hxa] using hx
  | connect | reuse | readAck | writeHello | publish | put => exact .inr hx
  | epollWait hstarted => exact .inr (begun_of_loop (.inr (.inl hstarted)) hx rfl)
  | accept hloop | writeAck hloop | register hloop | refuse hloop | epollMod hloop =>
    exact .inr (begun_of_loop (.inr (.inr (by simp [hloop]))) hx rfl)

/-- The invariant with the listening sockets. -/
structure Reached (r : Roster) (m : Mesh) : Prop where
  inv : Inv r m
  covered : ∀ b, (m.listener b).Covered
  nodes : ∀ b, m.Begun b → b ∈ r.nodes

theorem reached_start (r : Roster) : Reached r {} :=
  ⟨inv_start r, fun _ => Listener.covered_start, by simp [Begun]⟩

theorem reached_step (h : Reached r m) {act : MeshAct} (hstep : m.step r act = some m') :
    Reached r m' := by
  refine ⟨inv_step h.inv hstep, fun x => ?_, fun x hx => ?_⟩
  · rcases listener_step h.inv hstep x with heq | ⟨y, hy, -⟩
    · rw [heq]
      exact h.covered x
    · exact Listener.covered_step (h.covered x) hy
  · exact (begun_of_step hstep hx).elim id (h.nodes x)

/-- Every hello has come in whole. -/
structure Heard (r : Roster) (m : Mesh) : Prop extends Reached r m where
  served : ∀ b, (m.listener b).Served
  closed : ∀ l, m.closed l = false

theorem heard_start (r : Roster) : Heard r {} :=
  ⟨reached_start r, fun _ _ => rfl, fun _ => rfl⟩

theorem heard_step (h : Heard r m) {act : MeshAct} (hwhole : act.whole = true)
    (hstep : m.step r act = some m') : Heard r m' := by
  refine ⟨reached_step h.toReached hstep, fun x => ?_, fun l => ?_⟩
  · rcases listener_step h.inv hstep x with heq | ⟨y, hy, hrearmed⟩
    · rw [heq]
      exact h.served x
    · exact (Listener.served_step hy).mpr (hrearmed hwhole)
  · cases does_of_step hstep with
    | refuse hloop hhello hgreet =>
      obtain rfl := Option.isNone_iff_eq_none.mp hwhole
      exact absurd (h.inv.greet_registers hhello) (hgreet _)
    | listen | start | connect | reuse | readAck | writeHello | publish | epollWait | accept
    | writeAck | register | epollMod | put => exact h.closed l

theorem Reached.pending_of_ready (h : Reached r m) (hready : m.ready b = true) :
    m.pending b ≠ [] := by
  have hne := (h.covered b).ready hready
  simpa [listener, listenerOf] using hne

theorem Reached.pending_of_reported (h : Reached r m) (hloop : m.loop b = .reported) :
    m.pending b ≠ [] := by
  have hne := (h.covered b).reported (by simp [listener, listenerOf, hloop])
  simpa [listener, listenerOf] using hne

theorem Heard.pending_of_idle (h : Heard r m) (hloop : m.loop b = .polling)
    (hready : m.ready b = false) : m.pending b = [] := by
  have hnil := h.served b ⟨by simp [listener, listenerOf, hloop], hready⟩
  simpa [listener, listenerOf] using hnil

/-! ## The end -/

/-- Some nodes can go on, and none of them can take a step. -/
def StuckAt (r : Roster) (up : ClientId → Prop) (m : Mesh) : Prop :=
  ∀ act, up act.node → m.step r act = none

/-- The epoll thread of `b` waits for the hello of `a`. -/
def Waits (m : Mesh) (a b : ClientId) : Prop :=
  m.loop b = .acked a ∧ (m.dialed (a, b)).isGreeted = false

variable {up : ClientId → Prop}

theorem StuckAt.started (hstuck : StuckAt r up m) (hb : b ∈ r.nodes) (hup : up b) :
    m.listening b = true ∧ m.started b = true := by
  have hlistening : m.listening b = true := by
    by_contra hnot
    have hnone := hstuck (.listen b) hup
    simp [step, hb, hnot] at hnone
  refine ⟨hlistening, ?_⟩
  by_contra hnot
  have hnone := hstuck (.start b) hup
  simp [step, hlistening, hnot] at hnone

/-- A node that waits for nobody who does not go on has begun and has taken everyone. -/
theorem Heard.settled (h : Heard r m) (hstuck : StuckAt r up m) (hb : b ∈ r.nodes)
    (hup : up b) (hwaits : ∀ a, m.Waits a b → up a) : m.loop b = .polling ∧ m.pending b = [] := by
  have hloop : m.loop b = .polling := by
    cases hl : m.loop b with
    | polling => rfl
    | reported =>
      obtain ⟨a, rest, hpending⟩ := List.exists_cons_of_ne_nil (h.pending_of_reported hl)
      have hnone := hstuck (.accept b) hup
      simp [step, hl, hpending] at hnone
    | accepted a =>
      have hnone := hstuck (.writeAck b) hup
      simp [step, hl] at hnone
    | acked a =>
      exfalso
      have hp := h.inv.paired a b
      have hack := h.inv.ack_of_acked hl
      have hmeets := hp.meets
      rw [place_acked (h.inv.apart a b (.inr hl)) hl] at hmeets
      by_cases hgreeted : (m.dialed (a, b)).isGreeted = true
      · have hhello : m.hello (a, b) = some a.hello := by rw [hp.hello, if_pos hgreeted]
        have hnone := hstuck (.greet b none) hup
        rw [h.inv.step_greet hl hhello] at hnone
        cases hnone
      · -- its hello is still to come
        have ha := hwaits a ⟨hl, Bool.eq_false_of_not_eq_true hgreeted⟩
        cases hd : m.dialed (a, b) with
        | idle => simp [hd, Dialed.meets] at hmeets
        | connected =>
          have hnone := hstuck (.readAck a b) ha
          simp [step, hd, hack] at hnone
        | acked =>
          have hnone := hstuck (.writeHello a b) ha
          simp [step, hd] at hnone
        | greeted | mapped => exact hgreeted (by rw [hd]; rfl)
    | registered =>
      have hnone := hstuck (.epollMod b) hup
      simp [step, hl] at hnone
  refine ⟨hloop, h.pending_of_idle hloop ?_⟩
  by_contra hready
  have hnone := hstuck (.epollWait b) hup
  simp [step, (hstuck.started hb hup).2, hloop, hready] at hnone

/-- Whom a node has let in, it has in `connection_map`. -/
theorem Reached.mapped_of_place (h : Reached r m) (hstuck : StuckAt r up m) (hup : up b)
    (hreg : m.place a b = .registered) : m.connectionMap (b, a) = some (a, b) := by
  have hab := h.inv.dials_of_place hreg
  have hstarted := (hstuck.started (r.peers a b hab).2 hup).2
  have hconn := connections_of_place hreg
  have hexpects := (r.agree a b).mp hab
  cases hmap : m.connectionMap (b, a) with
  | none =>
    have hnone := hstuck (.put b a) hup
    simp [step, hstarted, hexpects, hmap, hconn] at hnone
  | some l =>
    rcases h.inv.connectionMap_eq hmap with ⟨hba, -⟩ | ⟨-, rfl⟩
    · exact absurd hba (r.not_both hab)
    · rfl

/-- Nobody is in the hands of a node that has taken everyone. -/
theorem Heard.place_of_idle (h : Heard r m) (hloop : m.loop b = .polling)
    (hpending : m.pending b = []) : m.place a b = .registered ∨ m.place a b = .away := by
  have hof := m.of_place a b
  cases hplace : m.place a b with
  | away => exact .inr rfl
  | registered => exact .inl rfl
  | queued => simp [hplace, hpending] at hof
  | accepted | acked => simp [hplace, hloop] at hof
  | closed => simp [hplace, h.closed] at hof

/-- Then it has all the others that go on in `connection_map`, and they have it. -/
theorem Heard.connected (h : Heard r m) (hstuck : StuckAt r up m) (hab : b ∈ r.dials a)
    (hloop : m.loop b = .polling) (hpending : m.pending b = []) (hupa : up a) (hupb : up b) :
    m.connectionMap (a, b) = some (a, b) ∧ m.connectionMap (b, a) = some (a, b) := by
  obtain ⟨ha, hb⟩ := r.peers a b hab
  obtain ⟨-, hstarted⟩ := hstuck.started ha hupa
  have hlistening := (hstuck.started hb hupb).1
  have hplace := h.place_of_idle (a := a) hloop hpending
  have hmeets := (h.inv.paired a b).meets
  have hmapped : m.dialed (a, b) = .mapped := by
    cases hd : m.dialed (a, b) with
    | mapped => rfl
    | idle =>
      have hnone := hstuck (.connect a b) hupa
      simp [step, hstarted, hab, hd, h.inv.dialing_eq_none hab hd, hlistening, hpending,
        listenBacklog] at hnone
    | connected | acked => rcases hplace with hq | hq <;> simp [hd, hq, Dialed.meets] at hmeets
    | greeted =>
      have hnone := hstuck (.publish a b) hupa
      simp [step, hd] at hnone
  have hreg : m.place a b = .registered := by
    refine hplace.resolve_right fun haway => ?_
    simp [hmapped, haway, Dialed.meets] at hmeets
  exact ⟨h.inv.mapped a b hmapped, h.mapped_of_place hstuck hupb hreg⟩

end Mesh

/-! ## What is left to do -/

/-- A sum in which one term changes. -/
theorem sum_of_point {ι : Type*} [DecidableEq ι] {s : Finset ι} {f g : ι → Nat} {i : ι}
    (hi : i ∈ s) (h : ∀ j ∈ s, j ≠ i → f j = g j) :
    ∑ j ∈ s, f j + g i = ∑ j ∈ s, g j + f i := by
  have hrest : ∑ j ∈ s.erase i, f j = ∑ j ∈ s.erase i, g j :=
    Finset.sum_congr rfl fun j hj => h j (Finset.mem_of_mem_erase hj) (Finset.ne_of_mem_erase hj)
  rw [← Finset.add_sum_erase s f hi, ← Finset.add_sum_erase s g hi, hrest]
  omega

/-- The steps of a client thread that are left, with those of the server for it. -/
def Dialed.todo : Dialed → Nat
  | .idle => 9
  | .connected => 3
  | .acked => 2
  | .greeted => 1
  | .mapped => 0

/-- The connections that are to be made. -/
def Roster.edges (r : Roster) : Finset Edge :=
  (r.nodes ×ˢ r.nodes).filter fun l => l.2 ∈ r.dials l.1

theorem Roster.mem_edges (r : Roster) {a b : ClientId} (h : b ∈ r.dials a) : (a, b) ∈ r.edges := by
  rw [edges, Finset.mem_filter, Finset.mem_product]
  exact ⟨r.peers a b h, h⟩

namespace Mesh

variable {r : Roster} {m m' : Mesh} {a b : ClientId}

/-- The steps of the epoll thread that are left: five for each client in the queue. -/
def loopTodo (pending : List ClientId) : MeshLoop → Nat
  | .polling => 5 * pending.length
  | .reported => 5 * pending.length - 1
  | .accepted _ => 5 * pending.length + 3
  | .acked _ => 5 * pending.length + 2
  | .registered => 5 * pending.length + 1

def nodeTodo (m : Mesh) (a : ClientId) : Nat :=
  (if m.listening a then 0 else 1) + (if m.started a then 0 else 1)
    + loopTodo (m.pending a) (m.loop a)

def edgeTodo (m : Mesh) (l : Edge) : Nat :=
  (m.dialed l).todo + if m.connectionMap (l.2, l.1) = none then 1 else 0

def todo (r : Roster) (m : Mesh) : Nat := ∑ a ∈ r.nodes, m.nodeTodo a + ∑ l ∈ r.edges, m.edgeTodo l

/-- A step at one node. -/
theorem todo_of_node (ha : a ∈ r.nodes) (hself : m'.nodeTodo a < m.nodeTodo a)
    (hnodes : ∀ x, x ≠ a → m'.nodeTodo x = m.nodeTodo x)
    (hedges : ∀ l, m'.edgeTodo l = m.edgeTodo l) : m'.todo r < m.todo r := by
  have hsum := sum_of_point (f := m'.nodeTodo) (g := m.nodeTodo) ha fun x _ hx => hnodes x hx
  have hsame : ∑ l ∈ r.edges, m'.edgeTodo l = ∑ l ∈ r.edges, m.edgeTodo l :=
    Finset.sum_congr rfl fun l _ => hedges l
  unfold todo
  omega

/-- A step with one connection. -/
theorem todo_of_edge {l : Edge} (hl : l ∈ r.edges) (hself : m'.edgeTodo l < m.edgeTodo l)
    (hedges : ∀ l' ∈ r.edges, l' ≠ l → m'.edgeTodo l' = m.edgeTodo l')
    (hnodes : ∀ x, m'.nodeTodo x = m.nodeTodo x) : m'.todo r < m.todo r := by
  have hsum := sum_of_point (f := m'.edgeTodo) (g := m.edgeTodo) hl hedges
  have hsame : ∑ x ∈ r.nodes, m'.nodeTodo x = ∑ x ∈ r.nodes, m.nodeTodo x :=
    Finset.sum_congr rfl fun x _ => hnodes x
  unfold todo
  omega

/-- A step at a node and with a connection. -/
theorem todo_of_both {l : Edge} (ha : a ∈ r.nodes) (hl : l ∈ r.edges)
    (hself : m'.nodeTodo a + m'.edgeTodo l < m.nodeTodo a + m.edgeTodo l)
    (hnodes : ∀ x, x ≠ a → m'.nodeTodo x = m.nodeTodo x)
    (hedges : ∀ l', l' ≠ l → m'.edgeTodo l' = m.edgeTodo l') : m'.todo r < m.todo r := by
  have hsum := sum_of_point (f := m'.nodeTodo) (g := m.nodeTodo) ha fun x _ hx => hnodes x hx
  have hsum' := sum_of_point (f := m'.edgeTodo) (g := m.edgeTodo) hl fun l' _ hl' => hedges l' hl'
  unfold todo
  omega

open Function

/-- The epoll thread of a node goes on. -/
theorem todo_of_loop (ha : a ∈ r.nodes) {pending : ClientId → List ClientId}
    {ready : ClientId → Bool} {loop : ClientId → MeshLoop}
    {connections : ClientId × Bytes → Option ClientId} {ack closed : Edge → Bool}
    (hpending : ∀ x, x ≠ a → pending x = m.pending x) (hloop : ∀ x, x ≠ a → loop x = m.loop x)
    (hself : loopTodo (pending a) (loop a) < loopTodo (m.pending a) (m.loop a)) :
    todo r { m with pending, ready, loop, connections, ack, closed } < m.todo r := by
  refine todo_of_node ha ?_ (fun x hx => ?_) fun l => rfl
  · unfold nodeTodo
    exact Nat.add_lt_add_left hself _
  · simp only [nodeTodo, hpending x hx, hloop x hx]

theorem todo_of_dialed (hedge : (a, b) ∈ r.edges) {d : Dialed} {hello : Edge → Option Bytes}
    (hself : d.todo < (m.dialed (a, b)).todo) :
    todo r { m with dialed := update m.dialed (a, b) d, hello } < m.todo r := by
  refine todo_of_edge hedge ?_ (fun l _ hl => ?_) fun x => rfl
  · simp only [edgeTodo, update_self]
    exact Nat.add_lt_add_right hself _
  · simp only [edgeTodo, update_of_ne hl]

theorem Reached.mem_edges (h : Reached r m) (hd : m.dialed (a, b) ≠ .idle) : (a, b) ∈ r.edges :=
  r.mem_edges (h.inv.dials a b hd)

/-- One more client is in the queue of `b`, and less is to be done by its thread. -/
theorem todo_connect (h : Reached r m) (hdials : b ∈ r.dials a) (hd : m.dialed (a, b) = .idle) :
    todo r { m with
      dialing := update m.dialing (a, r.address a b) (some b)
      dialed := update m.dialed (a, b) .connected
      pending := update m.pending b (m.pending b ++ [a])
      ready := update m.ready b true } < m.todo r := by
  have hqueue : loopTodo (m.pending b ++ [a]) (m.loop b)
      = loopTodo (m.pending b) (m.loop b) + 5 := by
    cases hloop : m.loop b with
    | reported =>
      have hpos := List.length_pos_iff.mpr (h.pending_of_reported hloop)
      simp only [loopTodo, List.length_append, List.length_singleton]
      omega
    | polling | accepted | acked | registered =>
      simp only [loopTodo, List.length_append, List.length_singleton]
      omega
  refine todo_of_both (r.peers a b hdials).2 (r.mem_edges hdials) ?_ (fun x hx => ?_) fun l hl => ?_
  · simp only [nodeTodo, edgeTodo, update_self, hqueue, hd, Dialed.todo]
    omega
  · simp only [nodeTodo, update_of_ne hx]
  · simp only [edgeTodo, update_of_ne hl]

theorem todo_publish (h : Reached r m) (hd : m.dialed (a, b) = .greeted) :
    todo r { m with
      dialed := update m.dialed (a, b) .mapped
      connectionMap := update m.connectionMap (a, b) (some (a, b)) } < m.todo r := by
  have hdials := h.inv.dials a b (by simp [hd])
  have hmap : ∀ l ∈ r.edges, (l.2, l.1) ≠ (a, b) := by
    rintro ⟨x, y⟩ hl heq
    obtain ⟨rfl, rfl⟩ := Prod.mk.inj heq
    exact r.not_both hdials (Finset.mem_filter.mp hl).2
  refine todo_of_edge (r.mem_edges hdials) ?_ (fun l hl hne => ?_) fun x => rfl
  · have hself := hmap (a, b) (r.mem_edges hdials)
    simp only [edgeTodo, update_self, update_of_ne hself, hd, Dialed.todo]
    omega
  · simp only [edgeTodo, update_of_ne hne, update_of_ne (hmap l hl)]

theorem todo_put (hexpects : b ∈ r.expects a) (hnone : m.connectionMap (a, b) = none)
    {c : Edge} :
    todo r { m with connectionMap := update m.connectionMap (a, b) (some c) } < m.todo r := by
  refine todo_of_edge (r.mem_edges ((r.agree b a).mpr hexpects)) ?_ (fun l _ hne => ?_)
    fun x => rfl
  · simp [edgeTodo, hnone]
  · have hmap : (l.2, l.1) ≠ (a, b) := by
      intro heq
      obtain ⟨rfl, rfl⟩ := Prod.mk.inj heq
      exact hne rfl
    simp only [edgeTodo, update_of_ne hmap]

/-- **Every step leaves less to do.** -/
theorem todo_lt (h : Reached r m) {act : MeshAct} (hstep : m.step r act = some m') :
    m'.todo r < m.todo r := by
  have hnode : ∀ b, m.started b = true ∨ m.loop b ≠ .polling → b ∈ r.nodes :=
    fun b hb => h.nodes b (.inr hb)
  cases does_of_step hstep with
  | listen ha hnot =>
    refine todo_of_node ha ?_ (fun x hx => ?_) fun l => rfl
    · simp [nodeTodo, hnot]
    · simp only [nodeTodo, update_of_ne hx]
  | start hlistening hnot =>
    refine todo_of_node (h.nodes _ (.inl hlistening)) ?_ (fun x hx => ?_) fun l => rfl
    · simp [nodeTodo, hnot]
    · simp only [nodeTodo, update_of_ne hx]
  | connect hdials hd => exact todo_connect h hdials hd
  | reuse hdials hd hc => exact absurd hc (by simp [h.inv.dialing_eq_none hdials hd])
  | readAck hd => exact todo_of_dialed (h.mem_edges (by simp [hd])) (by rw [hd]; decide)
  | writeHello hd => exact todo_of_dialed (h.mem_edges (by simp [hd])) (by rw [hd]; decide)
  | publish hd => exact todo_publish h hd
  | epollWait hstarted hloop hready =>
    refine todo_of_loop (hnode _ (.inl hstarted)) (fun x _ => rfl)
      (fun x hx => update_of_ne hx _ _) ?_
    have hpos := List.length_pos_iff.mpr (h.pending_of_ready hready)
    simp only [update_self, hloop, loopTodo]
    omega
  | accept hloop hpending =>
    refine todo_of_loop (hnode _ (.inr (by simp [hloop])))
      (fun x hx => update_of_ne hx _ _) (fun x hx => update_of_ne hx _ _) ?_
    simp only [update_self, hloop, hpending, loopTodo, List.length_cons]
    omega
  | writeAck hloop | register hloop | refuse hloop | epollMod hloop =>
    refine todo_of_loop (hnode _ (.inr (by simp [hloop]))) (fun x _ => rfl)
      (fun x hx => update_of_ne hx _ _) ?_
    simp only [update_self, hloop, loopTodo]
    omega
  | put hexpects hnone => exact todo_put hexpects hnone

theorem todo_start (r : Roster) : todo r {} = 2 * r.nodes.card + 10 * r.edges.card := by
  have hnodes : ∀ a ∈ r.nodes, nodeTodo {} a = 2 := fun a _ => rfl
  have hedges : ∀ l ∈ r.edges, edgeTodo {} l = 10 := fun l _ => rfl
  rw [todo, Finset.sum_const_nat hnodes, Finset.sum_const_nat hedges, Nat.mul_comm,
    Nat.mul_comm r.edges.card]

theorem reached_of_run {acts : List MeshAct} (hrun : run (step r) {} acts = some m) :
    Reached r m ∧ acts.length ≤ 2 * r.nodes.card + 10 * r.edges.card := by
  have hlength := run_length_le (P := fun _ _ => True) (I := Reached r) (todo r)
    (fun _ _ _ h _ hs => ⟨reached_step h hs, todo_lt h hs⟩) (reached_start r)
    (allSteps_of_forall (Q := fun _ => True) (fun _ _ => trivial) _) hrun
  rw [todo_start] at hlength
  exact ⟨run_invariant (fun _ _ _ h hs => reached_step h hs) (reached_start r) hrun, by omega⟩

theorem heard_of_run {acts : List MeshAct} (hwhole : ∀ act ∈ acts, act.whole = true)
    (hrun : run (step r) {} acts = some m) : Heard r m :=
  run_invariant_of (P := fun _ act => act.whole = true)
    (fun _ _ _ h hact hs => heard_step h hact hs) (heard_start r) (allSteps_of_forall hwhole _) hrun

/-- A run that is as long as a run can be is at its end. -/
theorem stuck_of_length {acts : List MeshAct} (hrun : run (step r) {} acts = some m)
    (hlength : 2 * r.nodes.card + 10 * r.edges.card ≤ acts.length) : Stuck (step r) m := by
  intro act
  by_contra hne
  obtain ⟨m', hm'⟩ := Option.ne_none_iff_exists'.mp hne
  have hlong : run (step r) {} (acts ++ [act]) = some m' :=
    run_append_eq_some.mpr ⟨m, hrun, run_cons_eq_some.mpr ⟨m', hm', rfl⟩⟩
  have hle := (reached_of_run hlong).2
  rw [List.length_append, List.length_singleton] at hle
  omega

/-- What `connection_map` of each node has in the end. -/
theorem Heard.connectionMap_eq (h : Heard r m) (hstuck : Stuck (step r) m) (a b : ClientId) :
    m.connectionMap (a, b) =
      if b ∈ r.dials a then some (a, b) else if b ∈ r.expects a then some (b, a) else none := by
  have hat : StuckAt r (fun _ => True) m := fun act _ => hstuck act
  have hall : ∀ x y, y ∈ r.dials x → m.connectionMap (x, y) = some (x, y) ∧
      m.connectionMap (y, x) = some (x, y) := by
    intro x y hxy
    have hsettled := h.settled hat (r.peers x y hxy).2 trivial fun _ _ => trivial
    exact h.connected hat hxy hsettled.1 hsettled.2 trivial trivial
  split
  · next hab => exact (hall a b hab).1
  · next hab =>
    split
    · next hba => exact (hall b a ((r.agree b a).mpr hba)).2
    · next hba =>
      cases hmap : m.connectionMap (a, b) with
      | none => rfl
      | some l =>
        rcases h.inv.connectionMap_eq hmap with ⟨hmem, -⟩ | ⟨hmem, -⟩
        · exact absurd hmem hab
        · exact absurd hmem hba

/-- Both ends have the same connection, and the other nodes have none. -/
theorem Heard.meets (h : Heard r m) (hstuck : Stuck (step r) m) (a b : ClientId) :
    m.connectionMap (a, b) = m.connectionMap (b, a) ∧
      ((m.connectionMap (a, b)).isSome = true ↔ b ∈ r.dials a ∨ b ∈ r.expects a) := by
  simp only [h.connectionMap_eq hstuck, ← r.agree]
  by_cases hab : b ∈ r.dials a
  · simp [hab, r.not_both hab]
  · by_cases hba : a ∈ r.dials b
    · simp [hab, hba]
    · simp [hab, hba]

/--
**All nodes get to know their peers.**

Whatever the order in which the nodes of a roster start, connect and accept, they take only so many
steps. If no hello has been cut short, then where no step is possible, `connection_map` of each node
has exactly its peers, each with the connection that the peer has for it.
-/
theorem completes {acts : List MeshAct} (hrun : run (step r) {} acts = some m) :
    acts.length ≤ 2 * r.nodes.card + 10 * r.edges.card ∧
      ((∀ act ∈ acts, act.whole = true) → Stuck (step r) m → ∀ a b,
        m.connectionMap (a, b) = m.connectionMap (b, a) ∧
        ((m.connectionMap (a, b)).isSome = true ↔ b ∈ r.dials a ∨ b ∈ r.expects a)) := by
  obtain ⟨hreached, hlength⟩ := reached_of_run hrun
  exact ⟨hlength, fun hwhole => (heard_of_run hwhole hrun).meets⟩

/-- Two nodes, in as many steps as there can be. -/
theorem completes_small : ∃ r : Roster, ∃ a b m, run (step r) {} (pairActs a b) = some m ∧
    (∀ act ∈ pairActs a b, act.whole = true) ∧ Stuck (step r) m ∧
    m.connectionMap (b, a) = some (a, b) := by
  let a : ClientId := ⟨[1], by decide⟩
  let b : ClientId := ⟨[2], by decide⟩
  let r : Roster := .pair a b (by decide)
  obtain ⟨m, hrun, hmap⟩ := (Option.any_eq_true _ _).mp (show (run (step r) {}
    (pairActs a b)).any (fun m => m.connectionMap (a, b) = some (a, b)) = true by decide +kernel)
  have hstuck : Stuck (step r) m := stuck_of_length hrun (by decide)
  have hwhole : ∀ act ∈ pairActs a b, act.whole = true := by decide
  refine ⟨r, a, b, m, hrun, hwhole, hstuck, ?_⟩
  rw [← ((completes hrun).2 hwhole hstuck a b).1]
  exact of_decide_eq_true hmap

end Mesh

end Rosetta

import Rosetta.Mesh.Complete

/-!
# Nodes that hang

From some time on, some of the nodes take no step any more, and their sockets stay open. In
`handle_accept` the epoll thread reads the hello of a client without a timeout: if the client hangs
before it has written it, the thread hangs with it.

* `Half` — a node has connected to another one, and its hello is still to come
* `blocked_iff` — which nodes are blocked in the end, and what the others have
-/

namespace Rosetta

open Lib

namespace Mesh

open Function

variable {r : Roster} {m m₀ m' : Mesh} {a b : ClientId} {up : ClientId → Prop}
  {acts₀ acts : List MeshAct}

/-- `a` has connected to `b`, and its hello is still to come. -/
def Half (m : Mesh) (a b : ClientId) : Prop :=
  m.dialed (a, b) = .connected ∨ m.dialed (a, b) = .acked

/-- Only the thread of `a` changes how far it has come. -/
theorem dialed_of_step {act : MeshAct} (hstep : m.step r act = some m') (hact : act.node ≠ a) :
    m'.dialed (a, b) = m.dialed (a, b) := by
  cases does_of_step hstep with
  | connect | reuse | readAck | writeHello | publish =>
    exact update_of_ne (fun he => hact (congrArg Prod.fst he).symm) _ _
  | listen | start | epollWait | accept | writeAck | register | refuse | epollMod | put => rfl

theorem dialed_of_run (hacts : ∀ act ∈ acts, up act.node) (hrun : run (step r) m₀ acts = some m)
    (ha : ¬ up a) : m.dialed (a, b) = m₀.dialed (a, b) := by
  refine run_invariant_of (P := fun _ act => up act.node)
    (I := fun m => m.dialed (a, b) = m₀.dialed (a, b)) ?_ rfl (allSteps_of_forall hacts m₀) hrun
  intro n act n' hn hact hstep
  rw [← hn]
  exact dialed_of_step hstep fun he => ha (he ▸ hact)

theorem half_congr (h : m.dialed (a, b) = m₀.dialed (a, b)) : m.Half a b ↔ m₀.Half a b := by
  unfold Half
  rw [h]

theorem Inv.half_of_waits (h : Inv r m) (hwaits : m.Waits a b) : m.Half a b := by
  obtain ⟨hloop, hnot⟩ := hwaits
  have hmeets := (h.paired a b).meets
  rw [place_acked (h.apart a b (.inr hloop)) hloop] at hmeets
  cases hd : m.dialed (a, b) with
  | connected => exact .inl hd
  | acked => exact .inr hd
  | idle => simp [hd, Dialed.meets] at hmeets
  | greeted | mapped => simp [hd, Dialed.isGreeted] at hnot

/-- Who has connected is in the queue, or is being served. -/
theorem Heard.not_half (h : Heard r m) (hloop : m.loop b = .polling) (hpending : m.pending b = []) :
    ¬ m.Half a b := by
  intro hhalf
  have hmeets := (h.inv.paired a b).meets
  rcases hhalf with hd | hd <;> rcases h.place_of_idle (a := a) hloop hpending with hp | hp <;>
    simp [hd, hp, Dialed.meets] at hmeets

theorem Heard.greeted_iff (h : Heard r m) (hstuck : StuckAt r up m) (hup : up b)
    (hloop : m.loop b = .polling) (hpending : m.pending b = []) (hab : b ∈ r.dials a) :
    m.connectionMap (b, a) = some (a, b) ↔ (m.dialed (a, b)).isGreeted = true := by
  have hmeets := (h.inv.paired a b).meets
  constructor
  · intro hmap
    rcases h.inv.maps b a (a, b) hmap with ⟨-, hmapped⟩ | ⟨-, hreg⟩
    · exact absurd (h.inv.dials b a (by simp [hmapped])) (r.not_both hab)
    · rw [hreg] at hmeets
      cases hd : m.dialed (a, b) with
      | greeted | mapped => rfl
      | idle | connected | acked => simp [hd, Dialed.meets] at hmeets
  · intro hgreeted
    refine h.mapped_of_place hstuck hup
      ((h.place_of_idle hloop hpending).resolve_right fun haway => ?_)
    cases hd : m.dialed (a, b) with
    | greeted | mapped => simp [hd, haway, Dialed.meets] at hmeets
    | idle | connected | acked => simp [hd, Dialed.isGreeted] at hgreeted

/--
**A node that hangs blocks the nodes that wait for its hello, and no others.**

After any run some nodes hang, and the others go on in any order until they cannot; no hello is cut
short. A node that goes on then waits forever for one that hangs, if and only if one that hangs had
connected to it without a hello. If not, it has those of its clients in `connection_map` that go on,
which have it as well, and those that had written their hello.
-/
theorem blocked_iff (hrun₀ : run (step r) {} acts₀ = some m₀)
    (hwhole : ∀ act ∈ acts₀ ++ acts, act.whole = true) (hacts : ∀ act ∈ acts, up act.node)
    (hrun : run (step r) m₀ acts = some m) :
    acts₀.length + acts.length ≤ 2 * r.nodes.card + 10 * r.edges.card ∧
      (StuckAt r up m → ∀ b ∈ r.nodes, up b →
        ((∃ a, ¬ up a ∧ m.Waits a b) ↔ ∃ a, ¬ up a ∧ m₀.Half a b) ∧
        ((¬ ∃ a, ¬ up a ∧ m₀.Half a b) → ∀ a, b ∈ r.dials a →
          (up a → m.connectionMap (a, b) = some (a, b)) ∧
          (m.connectionMap (b, a) = some (a, b) ↔
            up a ∨ (m₀.dialed (a, b)).isGreeted = true))) := by
  have hall : run (step r) {} (acts₀ ++ acts) = some m :=
    run_append_eq_some.mpr ⟨m₀, hrun₀, hrun⟩
  have h := heard_of_run hwhole hall
  have hlength := (reached_of_run hall).2
  rw [List.length_append] at hlength
  refine ⟨hlength, fun hstuck b hb hup => ?_⟩
  have hsame : ∀ a, ¬ up a → m.dialed (a, b) = m₀.dialed (a, b) :=
    fun a ha => dialed_of_run hacts hrun ha
  have hfree : (¬ ∃ a, ¬ up a ∧ m.Waits a b) → m.loop b = .polling ∧ m.pending b = [] := by
    intro hnot
    refine h.settled hstuck hb hup fun a hwaits => ?_
    by_contra ha
    exact hnot ⟨a, ha, hwaits⟩
  have hiff : (∃ a, ¬ up a ∧ m.Waits a b) ↔ ∃ a, ¬ up a ∧ m₀.Half a b := by
    constructor
    · rintro ⟨a, ha, hwaits⟩
      exact ⟨a, ha, (half_congr (hsame a ha)).mp (h.inv.half_of_waits hwaits)⟩
    · rintro ⟨a, ha, hhalf⟩
      by_contra hnot
      obtain ⟨hloop, hpending⟩ := hfree hnot
      exact h.not_half hloop hpending ((half_congr (hsame a ha)).mpr hhalf)
  refine ⟨hiff, fun hnot a hab => ?_⟩
  obtain ⟨hloop, hpending⟩ := hfree fun hwaits => hnot (hiff.mp hwaits)
  by_cases ha : up a
  · obtain ⟨hmap, hmap'⟩ := h.connected hstuck hab hloop hpending ha hup
    exact ⟨fun _ => hmap, iff_of_true hmap' (.inl ha)⟩
  · rw [h.greeted_iff hstuck hup hloop hpending hab, hsame a ha]
    exact ⟨fun hup => absurd hup ha, ⟨.inr, fun hg => hg.resolve_left ha⟩⟩

section Run

private def client : ClientId := ⟨[1], by decide⟩

private def server : ClientId := ⟨[2], by decide⟩

private def both : Roster := .pair client server (by decide)

private theorem stuckAt_server (h : Inv both m) (hlistening : m.listening server = true)
    (hstarted : m.started server = true) (hloop : m.loop server = .acked client)
    (hhello : m.hello (client, server) = none)
    (hconn : m.connections (server, client.bytes) = none) : StuckAt both (· = server) m := by
  have hidle : ∀ x, m.dialed (server, x) = .idle := by
    intro x
    by_contra hd
    have hmem : x ∈ both.dials server := h.dials server x hd
    have hnil : both.dials server = [] := by decide
    rw [hnil] at hmem
    cases hmem
  intro act hact
  cases act with
  | listen | start | epollWait | accept | writeAck | greet | epollMod =>
    obtain rfl : _ = server := hact
    simp [step, hlistening, hstarted, hloop, hhello]
  | connect a x | reuse a x =>
    obtain rfl : a = server := hact
    have hnil : both.dials server = [] := by decide
    simp [step, hnil]
  | readAck a x | writeHello a x | publish a x =>
    obtain rfl : a = server := hact
    simp [step, hidle x]
  | put a x =>
    obtain rfl : a = server := hact
    have hexpects : both.expects server = [client] := by decide
    simp only [step, hexpects, List.mem_singleton, Option.map_eq_none_iff, ite_eq_right_iff]
    rintro ⟨-, rfl, -⟩
    exact hconn

/-- A client hangs when it has connected. -/
theorem blocked_iff_small : ∃ (acts₀ acts : List MeshAct) (m₀ m : Mesh),
    run (step both) {} acts₀ = some m₀ ∧ (∀ act ∈ acts₀ ++ acts, act.whole = true) ∧
    (∀ act ∈ acts, act.node = server) ∧ run (step both) m₀ acts = some m ∧
    StuckAt both (· = server) m ∧ ∃ a, a ≠ server ∧ m.Waits a server := by
  let acts₀ : List MeshAct :=
    [.listen client, .listen server, .start server, .start client, .connect client server]
  let acts : List MeshAct := [.epollWait server, .accept server, .writeAck server]
  obtain ⟨m₀, hrun₀, hm₀⟩ := (Option.any_eq_true _ _).mp (show (run (step both) {} acts₀).any
    (fun m => decide (m.dialed (client, server) = .connected) &&
      (run (step both) m acts).any fun m => (m.listening server && m.started server) &&
        decide (m.loop server = .acked client ∧ m.hello (client, server) = none ∧
          m.connections (server, client.bytes) = none)) = true by decide +kernel)
  obtain ⟨hdialed, hview⟩ := (Bool.and_eq_true _ _).mp hm₀
  obtain ⟨m, hrun, hm⟩ := (Option.any_eq_true _ _).mp hview
  simp only [Bool.and_eq_true, decide_eq_true_eq] at hm
  obtain ⟨⟨hlistening, hstarted⟩, hloop, hhello, hconn⟩ := hm
  have hinv := (reached_of_run (run_append_eq_some.mpr ⟨m₀, hrun₀, hrun⟩)).1.inv
  have hstuck := stuckAt_server hinv hlistening hstarted hloop hhello hconn
  have hwhole : ∀ act ∈ acts₀ ++ acts, act.whole = true := by decide
  have hacts : ∀ act ∈ acts, act.node = server := by decide
  refine ⟨acts₀, acts, m₀, m, hrun₀, hwhole, hacts, hrun, hstuck, ?_⟩
  have hblocked := (blocked_iff hrun₀ hwhole hacts hrun).2 hstuck server (by decide) rfl
  exact hblocked.1.mpr ⟨client, by decide, .inl (of_decide_eq_true hdialed)⟩

end Run

end Mesh

end Rosetta

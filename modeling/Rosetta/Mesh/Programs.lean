import Rosetta.Channel.HexBuffer
import Rosetta.Mesh.Config
import Rosetta.Nodes.Schedule

/-!
# From the start to the results

The nodes create their channel, and then their threads use it: `connection_map` of each node is what
the mesh has left there. A connection belongs to two nodes, so what a node sends over it is for one
other node only (`other_of_mapped`), and whether a message id is used by one thread can be seen at
each node for itself (`Private`).

* `results_from_start` — the two parts together
* `channel_results` — the same from a configuration, with the ids that are given to a `TCPChannel`
-/

namespace Rosetta

open Lib

/-- The node at the other end of a connection. -/
def Edge.other (c : Edge) (a : ClientId) : ClientId := if c.1 = a then c.2 else c.1

namespace Mesh

variable {r : Roster} {m m' : Mesh} {τ ρ : Type} [DecidableEq τ]

/-- The nodes after `init`, with their threads. -/
def deployment (m : Mesh) (home : τ → ClientId) : Deployment ClientId τ Edge where
  home := home
  connectionMap a b := m.connectionMap (a, b)

theorem other_of_mapped (h : Inv r m) {a b : ClientId} {c : Edge}
    (hc : m.connectionMap (a, b) = some c) : c.other a = b ∧ c.other b = a := by
  have hne : a ≠ b := by
    rintro rfl
    rcases h.connectionMap_eq hc with ⟨hmem, -⟩ | ⟨hmem, -⟩
    · exact r.not_both hmem hmem
    · have hdials := (r.agree a a).mpr hmem
      exact r.not_both hdials hdials
  rcases h.connectionMap_eq hc with ⟨-, rfl⟩ | ⟨-, rfl⟩
  · simp [Edge.other, hne]
  · simp [Edge.other, hne.symm]

/-- One thread of a node sends to another node with an id, and one receives from it. -/
def Private (home : τ → ClientId) (sender receiver : ClientId → ClientId → Bytes → τ)
    (n : Network ClientId τ Edge ρ) : Prop :=
  ∀ t, (n.procs t).All (fun key _ => sender (home t) key.1 key.2 = t)
    fun key _ => receiver (home t) key.1 key.2 = t

variable {home : τ → ClientId} {sender receiver : ClientId → ClientId → Bytes → τ}
  {n₀ n₁ n₂ : Network ClientId τ Edge ρ}

omit [DecidableEq τ] in
/-- **Private ids are ids with one writer and one reader.** -/
theorem owned_of_private (h : Inv r m) (hn : Private home sender receiver n₀) :
    n₀.Owned (m.deployment home) (fun q => sender q.1.2 (q.1.1.other q.1.2) q.2)
      fun q => receiver (q.1.1.other q.1.2) q.1.2 q.2 := by
  intro t
  refine (hn t).mono (fun key data ht q hq => ?_) fun key length ht q hq => ?_
  · obtain ⟨c, hc, rfl⟩ := Option.map_eq_some_iff.mp hq
    have hother : c.other (home t) = key.1 := (other_of_mapped h hc).1
    show sender (home t) (c.other (home t)) key.2 = t
    rw [hother]
    exact ht
  · obtain ⟨c, hc, rfl⟩ := Option.map_eq_some_iff.mp hq
    have hother : c.other key.1 = home t := (other_of_mapped h hc).2
    show receiver (c.other key.1) key.1 key.2 = t
    rw [hother]
    exact ht

omit [DecidableEq τ] in
/-- The order in which the nodes have met cannot be seen any more. -/
theorem deployment_unique (h : Heard r m) (hend : Stuck (step r) m) (h' : Heard r m')
    (hend' : Stuck (step r) m') (home : τ → ClientId) : m'.deployment home = m.deployment home := by
  unfold deployment
  congr
  funext a b
  rw [h.connectionMap_eq hend, h'.connectionMap_eq hend']

variable {creates creates' : List MeshAct} {acts₁ acts₂ : List (NetworkAct ClientId τ Edge)}

/-- If the threads of a node keep to ids of their own, their results do not depend on how the nodes
have met, nor on the schedule. -/
theorem results_of_private (h : Heard r m) (hend : Stuck (step r) m) (h' : Heard r m')
    (hend' : Stuck (step r) m') (hfresh : n₀.Fresh) (hsound : n₀.Sound)
    (hprivate : Private home sender receiver n₀)
    (h₁ : run (Network.step (m.deployment home)) n₀ acts₁ = some n₁) (hdone : n₁.Finished)
    (h₂ : run (Network.step (m'.deployment home)) n₀ acts₂ = some n₂) :
    (n₂.Finished → n₂.procs = n₁.procs) ∧
      ((∀ l, (n₁.dirs l).sentSize ≤ 2 ^ 53) → n₂.Running (m'.deployment home) →
        ∃ acts₃ n₃, run (Network.step (m'.deployment home)) n₂ acts₃ = some n₃ ∧
          n₃.procs = n₁.procs) := by
  have howned := owned_of_private h.inv hprivate
  rw [deployment_unique h hend h' hend' home] at h₂ ⊢
  constructor
  · intro hdone₂
    obtain ⟨m, hm₁, hm₂⟩ := Network.exists_same_end hfresh hsound howned h₁ hdone h₂ hdone₂
    rw [hm₁.procs, hm₂.procs]
  · intro hsize hrunning
    obtain ⟨acts₃, n₃, m, -, hn₃, hm₁, hm₃⟩ :=
      Network.exists_onward hfresh hsound howned h₁ hdone hsize h₂ hrunning
    exact ⟨acts₃, n₃, hn₃, by rw [hm₃.procs, hm₁.procs]⟩

/--
**From the start to the results.**

The nodes of a roster create their channel in any two ways in which no hello is cut short, and their
threads run in any two ways on what has come out. If the threads of a node keep to ids of their own
and all end the first time, they end with the same results the second time; and from wherever they
are the second time, with the workers running, they can go on to these results.
-/
theorem results_from_start (hm : run (step r) {} creates = some m)
    (hwhole : ∀ act ∈ creates, act.whole = true) (hend : Stuck (step r) m)
    (hm' : run (step r) {} creates' = some m') (hwhole' : ∀ act ∈ creates', act.whole = true)
    (hend' : Stuck (step r) m') (hfresh : n₀.Fresh)
    (hsound : n₀.Sound) (hprivate : Private home sender receiver n₀)
    (h₁ : run (Network.step (m.deployment home)) n₀ acts₁ = some n₁) (hdone : n₁.Finished)
    (h₂ : run (Network.step (m'.deployment home)) n₀ acts₂ = some n₂) :
    (n₂.Finished → n₂.procs = n₁.procs) ∧
      ((∀ l, (n₁.dirs l).sentSize ≤ 2 ^ 53) → n₂.Running (m'.deployment home) →
        ∃ acts₃ n₃, run (Network.step (m'.deployment home)) n₂ acts₃ = some n₃ ∧
          n₃.procs = n₁.procs) :=
  results_of_private (heard_of_run hwhole hm) hend (heard_of_run hwhole' hm') hend' hfresh hsound
    hprivate h₁ hdone h₂

/-! ## The ids of a channel -/

variable {p : τ → Proc (ClientId × Bytes) UInt8 ρ} {dirs : Edge × ClientId → Direction}

section Run

private def idA : ClientId := ⟨[97], by decide⟩

private def idB : ClientId := ⟨[98], by decide⟩

private def roster : Roster := .pair idA idB (by decide)

/-- The other node starts first, and has its connection first. -/
private def otherActs : List MeshAct :=
  [.listen idB, .start idB, .listen idA, .start idA, .connect idA idB, .epollWait idB, .accept idB,
    .writeAck idB, .readAck idA idB, .writeHello idA idB, .greet idB none, .put idB idA,
    .epollMod idB, .publish idA idB]

/-- A thread on either node. -/
private def nodeOf : Bool → ClientId
  | false => idA
  | true => idB

private def threadOf (a : ClientId) : Bool := decide (a = idB)

/-- One node sends two bytes, and the other one says how many have come. -/
private def counting : Bool → Proc (ClientId × Bytes) UInt8 Bytes
  | false => .send (idB, [97]) [3, 4] (.recv (idB, [98]) 1 .done)
  | true => .recv (idA, [97]) 2 fun x => .send (idA, [98]) [x.length.toUInt8] (.done x)

private def there : Edge × ClientId := ((idA, idB), idA)

private def back : Edge × ClientId := ((idA, idB), idB)

private def countingActs : List (NetworkAct ClientId Bool Edge) :=
  [.conn there (.sendStart [115]), .conn there (.recvStart [116]), .call false,
    .conn back (.sendStart [116]), .conn back (.recvStart [115]), .conn there .drain,
    .conn there .flush, .conn there (.deliver 12), .conn there .take, .conn there .store,
    .call true, .call true, .conn back .drain, .conn back .flush, .conn back (.deliver 11),
    .conn back .take, .conn back .store, .call false]

/-- The first message arrives in two pieces. -/
private def piecesActs : List (NetworkAct ClientId Bool Edge) :=
  [.call false, .conn there (.sendStart [115]), .conn there .drain, .conn there .flush,
    .conn there (.deliver 5), .conn there (.recvStart [116]), .conn there (.deliver 7),
    .conn there .take, .conn there .store, .call true, .conn back (.sendStart [116]),
    .conn back (.recvStart [115]), .call true, .conn back .drain, .conn back .flush,
    .conn back (.deliver 11), .conn back .take, .conn back .store, .call false]

private theorem sound_counting (d : Direction) :
    Network.Sound (⟨counting, fun _ => d⟩ : Network ClientId Bool Edge Bytes) := by
  intro t
  cases t with
  | false => exact ⟨by decide, by decide, fun _ => trivial⟩
  | true => exact ⟨by decide, fun x => ⟨⟨by decide, .inl (by decide)⟩, trivial⟩⟩

private theorem private_counting (d : Direction) : Private nodeOf (fun a _ _ => threadOf a)
    (fun a _ _ => threadOf a) (⟨counting, fun _ => d⟩ : Network ClientId Bool Edge Bytes) := by
  intro t
  cases t with
  | false => exact ⟨by decide, by decide, fun _ => trivial⟩
  | true => exact ⟨by decide, fun x => ⟨rfl, trivial⟩⟩

private def counted (n : Network ClientId Bool Edge Bytes) : Bool :=
  decide ((n.procs false).result = some [2]) && decide ((n.procs true).result = some [3, 4])

private theorem finished_of_counted {n : Network ClientId Bool Edge Bytes} (h : counted n = true) :
    n.Finished := by
  simp only [counted, Bool.and_eq_true, decide_eq_true_eq] at h
  intro t
  cases t with
  | false => rw [h.1]; rfl
  | true => rw [h.2]; rfl

/-- Two ways to meet and two schedules. -/
theorem results_from_start_small : ∃ (creates creates' : List MeshAct) (m m' : Mesh)
    (acts₁ acts₂ : List (NetworkAct ClientId Bool Edge))
    (n₀ n₁ n₂ : Network ClientId Bool Edge Bytes),
    (run (step roster) {} creates = some m ∧ (∀ act ∈ creates, act.whole = true) ∧
      Stuck (step roster) m) ∧
    (run (step roster) {} creates' = some m' ∧ (∀ act ∈ creates', act.whole = true) ∧
      Stuck (step roster) m') ∧
    n₀.Fresh ∧ n₀.Sound ∧
    Private nodeOf (fun a _ _ => threadOf a) (fun a _ _ => threadOf a) n₀ ∧
    run (Network.step (m.deployment nodeOf)) n₀ acts₁ = some n₁ ∧ n₁.Finished ∧
    run (Network.step (m'.deployment nodeOf)) n₀ acts₂ = some n₂ ∧
    n₁.procs false = .done [2] ∧ n₂.procs = n₁.procs := by
  obtain ⟨d₀, hnew, hview, hview'⟩ : ∃ d₀, Direction.new = .ok d₀ ∧
      ((run (step roster) {} (pairActs idA idB)).any fun m =>
        (run (Network.step (m.deployment nodeOf)) ⟨counting, fun _ => d₀⟩ countingActs).any
          counted) = true ∧
      ((run (step roster) {} otherActs).any fun m =>
        (run (Network.step (m.deployment nodeOf)) ⟨counting, fun _ => d₀⟩ piecesActs).any
          counted) = true :=
    ⟨_, rfl, by decide +kernel, by decide +kernel⟩
  obtain ⟨m, hm, hview⟩ := (Option.any_eq_true _ _).mp hview
  obtain ⟨m', hm', hview'⟩ := (Option.any_eq_true _ _).mp hview'
  obtain ⟨n₁, h₁, hend₁⟩ := (Option.any_eq_true _ _).mp hview
  obtain ⟨n₂, h₂, hend₂⟩ := (Option.any_eq_true _ _).mp hview'
  have hwhole : ∀ act ∈ pairActs idA idB, act.whole = true := by decide
  have hwhole' : ∀ act ∈ otherActs, act.whole = true := by decide
  have hstuck : Stuck (step roster) m := stuck_of_length hm (by decide)
  have hstuck' : Stuck (step roster) m' := stuck_of_length hm' (by decide)
  have hdone := finished_of_counted hend₁
  have hfresh : (⟨counting, fun _ => d₀⟩ : Network ClientId Bool Edge Bytes).Fresh := fun _ => hnew
  have hsame := (results_from_start hm hwhole hstuck hm' hwhole' hstuck' hfresh (sound_counting d₀)
    (private_counting d₀) h₁ hdone h₂).1 (finished_of_counted hend₂)
  simp only [counted, Bool.and_eq_true, decide_eq_true_eq] at hend₁
  exact ⟨pairActs idA idB, otherActs, m, m', countingActs, piecesActs, _, n₁, n₂,
    ⟨hm, hwhole, hstuck⟩, ⟨hm', hwhole', hstuck'⟩, hfresh, sound_counting d₀, private_counting d₀,
    h₁, hdone, h₂, Proc.eq_done hend₁.1, hsame⟩

end Run

end Mesh

end Rosetta

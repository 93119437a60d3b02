import Mathlib.Data.Finset.Card
import Rosetta.Pool.Epoll

/-!
# Which connections are polled

`Watched` is said of every connection that a map keeps or a call has in its hand: as long as it is
open, it is in the epoll set or about to be added. For the connections that were given to a task
there is no "about to be".

Steps add connections to the set and open none (`Grows`); only the last `stop` takes more out of the
set than is closed, and there the maps have to be empty of open connections. `polled` follows for
runs that are `Careful`.
-/

namespace Rosetta

open Lib

namespace IoNode

variable {n n' : IoNode}

/-- As long as it is open, the connection is in the epoll set. -/
def Registered (n : IoNode) (side : Side) (c : Nat) : Prop :=
  n.isOpen side c → (side, c) ∈ n.registered

/-- The same, or it is about to be added. -/
def Watched (n : IoNode) (side : Side) (c : Nat) : Prop :=
  c < (n.pools.pool side).next ∧
    (n.isOpen side c → (side, c) ∈ n.registered ∨ (side, c) ∈ n.pending)

/-- The calls under way belong to tasks, and `task_count_` is the number of the tasks. -/
structure Attached (n : IoNode) : Prop where
  inited : ∀ t, n.tasks t ≠ none → n.isInited = true
  counted : ∃ s : Finset Nat, (∀ t, t ∈ s ↔ n.tasks t ≠ none) ∧ s.card = n.pools.server.taskCount
  clients : ∀ k, (n.pools.clients k).busy = true → ∃ t io, n.tasks t = some io ∧ k ∈ io.clients
  puts : ∀ k, n.pools.puts k ≠ none → ∃ t io, n.tasks t = some io ∧ k ∈ io.puts

structure Polls (n : IoNode) : Prop where
  known : ∀ side c, n.pools.Known side c → n.Watched side c
  clients : ∀ k c, n.pools.clients k = .connected c → k ∉ n.dialers → n.Registered .client c
  served : ∀ t io c, n.tasks t = some io → c ∈ io.served →
    c < n.pools.server.next ∧ n.Registered .server c
  /-- nothing is left of a set that was closed -/
  empty : n.isInited = false → n.registered = [] ∧ ∀ c, (Side.server, c) ∉ n.pending

/-! ## Connections stay in the set -/

/-- No connection leaves the set as long as it is open. -/
structure Grows (n n' : IoNode) : Prop where
  ages : n.pools.Ages n'.pools
  registered : ∀ side c, (side, c) ∈ n.registered → n'.Registered side c
  pending : ∀ side c, (side, c) ∈ n.pending → n'.isOpen side c →
    (side, c) ∈ n'.registered ∨ (side, c) ∈ n'.pending

theorem isOpen_of_ages (h : n.pools.Ages n'.pools) {side : Side} {c : Nat}
    (hc : c < (n.pools.pool side).next) (hopen : n'.isOpen side c) : n.isOpen side c := by
  by_contra hclosed
  have hclosed' := h.closed side c hc (Bool.not_eq_false _ ▸ hclosed)
  rw [isOpen, hclosed'] at hopen
  cases hopen

theorem Registered.mono {side : Side} {c : Nat} (h : n.Registered side c) (hg : n.Grows n')
    (hc : c < (n.pools.pool side).next) : n'.Registered side c :=
  fun hopen => hg.registered side c (h (isOpen_of_ages hg.ages hc hopen)) hopen

theorem Watched.mono {side : Side} {c : Nat} (h : n.Watched side c) (hg : n.Grows n') :
    n'.Watched side c := by
  refine ⟨h.1.trans_le (hg.ages.next_le side), fun hopen => ?_⟩
  rcases h.2 (isOpen_of_ages hg.ages h.1 hopen) with hreg | hpend
  · exact .inl (hg.registered side c hreg hopen)
  · exact hg.pending side c hpend hopen

/-- A watched connection that is not about to be added is in the set. -/
theorem Watched.registered {side : Side} {c : Nat} (h : n.Watched side c)
    (hpend : (side, c) ∉ n.pending) : n.Registered side c :=
  fun hopen => (h.2 hopen).resolve_right hpend

theorem grows_of_mem (hages : n.pools.Ages n'.pools) (hreg : n.registered ⊆ n'.registered)
    (hpend : n.pending ⊆ n'.pending) : n.Grows n' :=
  ⟨hages, fun _ _ h _ => hreg h, fun _ _ h _ => .inr (hpend h)⟩

/-! ## What a step has to show -/

/-- No task comes or goes, and no task loses a call that goes on. -/
structure Keeps (n n' : IoNode) : Prop where
  tasks : ∀ t, n'.tasks t ≠ none ↔ n.tasks t ≠ none
  clients : ∀ t io k, n.tasks t = some io → k ∈ io.clients → (n'.pools.clients k).busy = true →
    ∃ io', n'.tasks t = some io' ∧ k ∈ io'.clients
  puts : ∀ t io k, n.tasks t = some io → k ∈ io.puts → ∃ io', n'.tasks t = some io' ∧ k ∈ io'.puts

theorem keeps_of_eq (h : n'.tasks = n.tasks) : n.Keeps n' := by
  refine ⟨fun t => by rw [h], ?_, ?_⟩
  · intro t io k ht hk _
    exact ⟨io, h ▸ ht, hk⟩
  · intro t io k ht hk
    exact ⟨io, h ▸ ht, hk⟩

theorem keeps_setTask {t : Nat} {io io' : IoTask} (ht : n.tasks t = some io)
    (h : n'.tasks = Function.update n.tasks t (some io'))
    (hclients : ∀ k ∈ io.clients, (n'.pools.clients k).busy = true → k ∈ io'.clients)
    (hputs : io.puts ⊆ io'.puts) : n.Keeps n' := by
  constructor
  · intro t'
    rcases eq_or_ne t' t with rfl | hne
    · simp [h, ht]
    · simp [h, hne]
  · intro t' io₁ k ht' hk hbusy
    rcases eq_or_ne t' t with rfl | hne
    · obtain rfl := Option.some.inj (ht.symm.trans ht')
      exact ⟨io', by simp [h], hclients k hk hbusy⟩
    · exact ⟨io₁, by simpa [h, hne] using ht', hk⟩
  · intro t' io₁ k ht' hk
    rcases eq_or_ne t' t with rfl | hne
    · obtain rfl := Option.some.inj (ht.symm.trans ht')
      exact ⟨io', by simp [h], hputs hk⟩
    · exact ⟨io₁, by simpa [h, hne] using ht', hk⟩

/-- The connections that a task serves are not touched by its other calls. -/
theorem served_setTask {t : Nat} {io io' : IoTask} (ht : n.tasks t = some io)
    (h : n'.tasks = Function.update n.tasks t (some io')) (hserved : io'.served = io.served)
    {t' : Nat} {io₁ : IoTask} {c : Nat} (ht' : n'.tasks t' = some io₁) (hc : c ∈ io₁.served) :
    ∃ io₀, n.tasks t' = some io₀ ∧ c ∈ io₀.served := by
  rcases eq_or_ne t' t with rfl | hne
  · obtain rfl : io' = io₁ := by simpa [h] using ht'
    exact ⟨io, ht, hserved ▸ hc⟩
  · exact ⟨io₁, by simpa [h, hne] using ht', hc⟩

/-- A step of a task that goes on. -/
theorem Attached.of_step (h : n.Attached) {a : PoolAct} (he : n.pools.Effect a n'.pools)
    (hcount : n'.pools.server.taskCount = n.pools.server.taskCount)
    (hinited : n'.isInited = n.isInited) (hkeeps : n.Keeps n')
    (hconnect : ∀ k address, a = .connect k address → ∃ t io, n'.tasks t = some io ∧ k ∈ io.clients)
    (hfind : ∀ k nodeId, a = .find k nodeId → ∃ t io, n'.tasks t = some io ∧ k ∈ io.puts) :
    n'.Attached := by
  refine ⟨?_, ?_, ?_, ?_⟩
  · intro t ht
    rw [hinited]
    exact h.inited t ((hkeeps.tasks t).mp ht)
  · obtain ⟨s, hs, hcard⟩ := h.counted
    exact ⟨s, fun t => (hs t).trans (hkeeps.tasks t).symm, hcard.trans hcount.symm⟩
  · intro k hk
    rcases he.busy k hk with hold | ⟨address, ha⟩
    · obtain ⟨t, io, ht, hmem⟩ := h.clients k hold
      obtain ⟨io', ht', hmem'⟩ := hkeeps.clients t io k ht hmem hk
      exact ⟨t, io', ht', hmem'⟩
    · exact hconnect k address ha
  · intro k hk
    rcases he.puts k hk with hold | ⟨nodeId, ha⟩
    · obtain ⟨t, io, ht, hmem⟩ := h.puts k hold
      obtain ⟨io', ht', hmem'⟩ := hkeeps.puts t io k ht hmem
      exact ⟨t, io', ht', hmem'⟩
    · exact hfind k nodeId ha

/-- A step that leaves the set to the open connections. -/
theorem Polls.of_step (h : n.Polls) {a : PoolAct} (he : n.pools.Effect a n'.pools)
    (hg : n.Grows n') (hdialers : n.dialers ⊆ n'.dialers)
    (hnew : ∀ side, a.creates = some side → (side, (n.pools.pool side).next) ∈ n'.pending)
    (hgives : ∀ k c, a.Gives n.pools k c → k ∉ n'.dialers → n'.Registered .client c)
    (hserved : ∀ t io c, n'.tasks t = some io → c ∈ io.served →
      (∃ io', n.tasks t = some io' ∧ c ∈ io'.served) ∨
        (c < n.pools.server.next ∧ n'.Registered .server c))
    (hempty : n'.isInited = false → n'.registered = [] ∧ ∀ c, (Side.server, c) ∉ n'.pending) :
    n'.Polls := by
  refine ⟨?_, ?_, ?_, hempty⟩
  · intro side c hc
    rcases he.known side c hc with hold | ⟨hside, rfl⟩
    · exact (h.known side c hold).mono hg
    · exact ⟨he.creates side hside, fun _ => .inr (hnew side hside)⟩
  · intro k c hk hdial
    rcases he.connected k c hk with hold | hgive
    · -- a connection that it held before is known, so its number is not that of a new one
      have hknown := h.known .client c (.inr (.inr ⟨rfl, k, hold⟩))
      exact (h.clients k c hold fun hmem => hdial (hdialers hmem)).mono hg hknown.1
    · exact hgives k c hgive hdial
  · intro t io c ht hc
    rcases hserved t io c ht hc with ⟨io', ht', hc'⟩ | ⟨hlt, hreg⟩
    · obtain ⟨hlt, hreg⟩ := h.served t io' c ht' hc'
      exact ⟨hlt.trans_le (hg.ages.next_le .server), hreg.mono hg hlt⟩
    · exact ⟨hlt.trans_le (hg.ages.next_le .server), hreg⟩

/-- A call of a task that makes and gives nothing, after which the task serves what it did. -/
theorem Polls.of_task (h : n.Polls) {a : PoolAct} {p : NodePools} (he : n.pools.Effect a p)
    (hcreates : a.creates = none) (hgives : ∀ k c, ¬ a.Gives n.pools k c) {t : Nat}
    {io io' : IoTask} (ht : n.tasks t = some io) (hserved : io'.served = io.served) :
    Polls { n.setTask t (some io') with pools := p } := by
  refine h.of_step he ?_ (List.Subset.refl _) ?_ ?_ ?_ h.empty
  · exact grows_of_mem he.ages (List.Subset.refl _) (List.Subset.refl _)
  · intro side hside
    rw [hcreates] at hside
    cases hside
  · exact fun k c hgive => absurd hgive (hgives k c)
  · exact fun t' io₁ c ht' hc => .inl (served_setTask ht rfl hserved ht' hc)

/-- `Attached` and `Polls`, for the induction. -/
structure Good (n : IoNode) : Prop where
  attached : n.Attached
  polls : n.Polls

theorem good_start : Good {} := by
  refine ⟨⟨?_, ?_, ?_, ?_⟩, ⟨?_, ?_, ?_, ?_⟩⟩
  · exact fun _ h => absurd rfl h
  · exact ⟨∅, fun t => by simp, rfl⟩
  · intro k h
    cases h
  · exact fun _ h => absurd rfl h
  · rintro side c (⟨key, h⟩ | ⟨-, k, f, h, -⟩ | ⟨-, k, h⟩)
    · cases side with
      | server => simp [NodePools.pool] at h
      | client => simp [NodePools.pool] at h
    · cases h
    · cases h
  · intro k c h
    cases h
  · intro t io c h
    cases h
  · exact fun _ => ⟨rfl, fun _ => List.not_mem_nil⟩

/-- An action of the pools that no task begins with, and that makes and gives nothing. -/
theorem Good.of_quiet (h : n.Good) {a : PoolAct} {p : NodePools} (hp : n.pools.step a = some p)
    (hpools : n'.pools = p) (htasks : n'.tasks = n.tasks) (hinited : n'.isInited = n.isInited)
    (hdialers : n'.dialers = n.dialers) (hpending : n'.pending = n.pending)
    (hreg : ∀ e ∈ n'.registered, e ∈ n.registered)
    (hleft : ∀ side c, (side, c) ∈ n.registered → n'.Registered side c)
    (hcount : p.server.taskCount = n.pools.server.taskCount)
    (hquiet : a.creates = none ∧ (∀ k address, a ≠ .connect k address) ∧
      (∀ k nodeId, a ≠ .find k nodeId) ∧ ∀ k c, ¬ a.Gives n.pools k c) : n'.Good := by
  subst hpools
  obtain ⟨hcreates, hconnect, hfind, hgives⟩ := hquiet
  have he := NodePools.effect_step hp
  have hg : n.Grows n' := ⟨he.ages, hleft, fun _ _ hmem _ => .inr (hpending ▸ hmem)⟩
  constructor
  · exact h.attached.of_step he hcount hinited (keeps_of_eq htasks)
      (fun k address ha => absurd ha (hconnect k address))
      (fun k nodeId ha => absurd ha (hfind k nodeId))
  · refine h.polls.of_step he hg ?_ ?_ ?_ ?_ ?_
    · rw [hdialers]
      exact List.Subset.refl _
    · intro side hside
      rw [hcreates] at hside
      cases hside
    · exact fun k c hgive => absurd hgive (hgives k c)
    · intro t io c ht hc
      exact .inl ⟨io, htasks ▸ ht, hc⟩
    · intro hni
      rw [hinited] at hni
      obtain ⟨hnil, hpend⟩ := h.polls.empty hni
      refine ⟨List.eq_nil_iff_forall_not_mem.mpr fun e he => ?_, fun c => hpending ▸ hpend c⟩
      have hmem := hreg e he
      simp [hnil] at hmem

/-! ## The steps -/

theorem poolStep_eq_some {a : PoolAct} :
    n.poolStep a = some n' ↔ ∃ p, n.pools.step a = some p ∧ { n with pools := p } = n' :=
  Option.map_eq_some_iff

theorem Good.accept (h : n.Good) {cid : Bytes} (hstep : n.step (.accept cid) = some n') :
    n'.Good := by
  simp only [step, Option.ite_none_right_eq_some, poolStep_eq_some] at hstep
  obtain ⟨hinited, p, hp, rfl⟩ := hstep
  have he := NodePools.effect_step hp
  have hcount := NodePools.taskCount_step PoolAct.noConfusion (fun _ => PoolAct.noConfusion) hp
  constructor
  · exact h.attached.of_step he hcount rfl (keeps_of_eq rfl) (fun _ _ => PoolAct.noConfusion)
      fun _ _ => PoolAct.noConfusion
  · refine h.polls.of_step he ?_ (List.Subset.refl _) ?_ ?_ ?_ ?_
    · exact grows_of_mem he.ages (List.Subset.refl _) (List.subset_cons_self _ _)
    · intro side hside
      obtain rfl := Option.some.inj hside
      exact List.mem_cons_self
    · exact fun _ _ hgive => hgive.elim
    · exact fun t io c ht hc => .inl ⟨io, ht, hc⟩
    · intro hni
      rw [hinited] at hni
      cases hni

theorem Good.publish (h : n.Good) {k : Nat} (hstep : n.step (.publish k) = some n') :
    n'.Good := by
  simp only [step, poolStep_eq_some] at hstep
  obtain ⟨p, hp, rfl⟩ := hstep
  have he := NodePools.effect_step hp
  have hcount := NodePools.taskCount_step PoolAct.noConfusion (fun _ => PoolAct.noConfusion) hp
  constructor
  · exact h.attached.of_step he hcount rfl (keeps_of_eq rfl) (fun _ _ => PoolAct.noConfusion)
      fun _ _ => PoolAct.noConfusion
  · refine h.polls.of_step he ?_ (List.subset_cons_self _ _) ?_ ?_ ?_ ?_
    · exact grows_of_mem he.ages (List.Subset.refl _) (List.subset_cons_self _ _)
    · intro side hside
      obtain rfl := Option.some.inj hside
      exact List.mem_cons_self
    · -- the client has dialed, and its connection is still to be added
      rintro k' c ⟨rfl, -⟩ hdial
      exact absurd List.mem_cons_self hdial
    · exact fun t io c ht hc => .inl ⟨io, ht, hc⟩
    · intro hni
      obtain ⟨hnil, hpend⟩ := h.polls.empty hni
      exact ⟨hnil, fun c hmem => hpend c (by simpa using hmem)⟩

/-- `connect` gives a connection of the map that has been added. -/
theorem Good.connect (h : n.Good) {t k : Nat} {address : Bytes}
    (hcare : n.Careful (.connect t k address)) (hstep : n.step (.connect t k address) = some n') :
    n'.Good := by
  simp only [step] at hstep
  split at hstep
  · next io ht =>
    obtain ⟨p, hp, rfl⟩ := poolStep_eq_some.mp hstep
    have he := NodePools.effect_step hp
    have hcount := NodePools.taskCount_step PoolAct.noConfusion (fun _ => PoolAct.noConfusion) hp
    have hself : Function.update n.tasks t (some { io with clients := k :: io.clients }) t =
        some { io with clients := k :: io.clients } := Function.update_self _ _ _
    have hg : n.Grows { n.setTask t (some { io with clients := k :: io.clients }) with
        pools := p } :=
      grows_of_mem he.ages (List.Subset.refl _) (List.Subset.refl _)
    constructor
    · refine h.attached.of_step he hcount rfl ?_ ?_ fun _ _ => PoolAct.noConfusion
      · exact keeps_setTask ht rfl (fun _ hk _ => List.mem_cons_of_mem _ hk) (List.Subset.refl _)
      · intro k' address' ha
        obtain ⟨rfl, -⟩ := PoolAct.connect.inj ha
        exact ⟨t, _, hself, List.mem_cons_self⟩
    · refine h.polls.of_step he hg (List.Subset.refl _) (fun _ hside => by cases hside) ?_ ?_ ?_
      · rintro k' c ⟨rfl, hlookup⟩ -
        have hwatch := h.polls.known .client c (.inl ⟨address, hlookup⟩)
        exact (hwatch.registered (hcare c hlookup)).mono hg hwatch.1
      · intro t' io' c ht' hc
        refine .inl (served_setTask ht rfl ?_ ht' hc)
        rfl
      · exact h.polls.empty
  · cases hstep

theorem Good.find (h : n.Good) {t k : Nat} {nodeId : Bytes}
    (hstep : n.step (.find t k nodeId) = some n') : n'.Good := by
  simp only [step] at hstep
  split at hstep
  · next io ht =>
    obtain ⟨p, hp, rfl⟩ := poolStep_eq_some.mp hstep
    have he := NodePools.effect_step hp
    have hcount := NodePools.taskCount_step PoolAct.noConfusion (fun _ => PoolAct.noConfusion) hp
    have hself : Function.update n.tasks t (some { io with puts := k :: io.puts }) t =
        some { io with puts := k :: io.puts } := Function.update_self _ _ _
    constructor
    · refine h.attached.of_step he hcount rfl ?_ (fun _ _ => PoolAct.noConfusion) ?_
      · exact keeps_setTask ht rfl (fun _ hk _ => hk) (List.subset_cons_self _ _)
      · intro k' nodeId' ha
        obtain ⟨rfl, -⟩ := PoolAct.find.inj ha
        exact ⟨t, _, hself, List.mem_cons_self⟩
    · exact h.polls.of_task he rfl (fun _ _ hgive => hgive.elim) ht rfl
  · cases hstep

/-- `put_connection` serves a connection that has been added. -/
theorem Good.put (h : n.Good) {t k : Nat} (hcare : n.Careful (.put t k))
    (hstep : n.step (.put t k) = some n') : n'.Good := by
  simp only [step] at hstep
  split at hstep
  · next io ht =>
    simp only [Option.ite_none_right_eq_some, poolStep_eq_some] at hstep
    obtain ⟨hk, p, hp, rfl⟩ := hstep
    have he := NodePools.effect_step hp
    have hcount := NodePools.taskCount_step PoolAct.noConfusion (fun _ => PoolAct.noConfusion) hp
    have hself : Function.update n.tasks t (some { io with served := n.handedBy k ++ io.served }) t =
        some { io with served := n.handedBy k ++ io.served } := Function.update_self _ _ _
    have hg : n.Grows { n.setTask t (some { io with served := n.handedBy k ++ io.served }) with
        pools := p } :=
      grows_of_mem he.ages (List.Subset.refl _) (List.Subset.refl _)
    constructor
    · exact h.attached.of_step he hcount rfl
        (keeps_setTask ht rfl (fun _ hk _ => hk) (List.Subset.refl _))
        (fun _ _ => PoolAct.noConfusion) fun _ _ => PoolAct.noConfusion
    · refine h.polls.of_step he hg (List.Subset.refl _) (fun _ hside => by cases hside)
        (fun _ _ hgive => hgive.elim) ?_ h.polls.empty
      intro t' io' c ht' hc
      rcases eq_or_ne t' t with rfl | hne
      · obtain rfl := Option.some.inj (hself.symm.trans ht')
        rcases List.mem_append.mp hc with hnew | hold
        · -- the connection of the call
          simp only [handedBy] at hnew
          split at hnew
          · next f hf =>
            split at hnew
            · obtain rfl := List.mem_singleton.mp hnew
              have hwatch := h.polls.known .server f.conn (.inr (.inl ⟨rfl, k, f, hf, rfl⟩))
              exact .inr ⟨hwatch.1, (hwatch.registered (hcare f hf)).mono hg hwatch.1⟩
            · cases hnew
          · cases hnew
        · exact .inl ⟨io, ht, hold⟩
      · exact .inl ⟨io', by simpa [setTask, hne] using ht', hc⟩
  · cases hstep

theorem Good.clientClose (h : n.Good) {t k unrecv : Nat}
    (hstep : n.step (.clientClose t k unrecv) = some n') : n'.Good := by
  simp only [step] at hstep
  split at hstep
  · next io ht =>
    simp only [Option.ite_none_right_eq_some, poolStep_eq_some] at hstep
    obtain ⟨⟨hk, hdial⟩, p, hp, rfl⟩ := hstep
    have he := NodePools.effect_step hp
    have hcount := NodePools.taskCount_step PoolAct.noConfusion (fun _ => PoolAct.noConfusion) hp
    have hidle : (p.clients k).busy = false := by
      simp only [NodePools.step] at hp
      split at hp
      · cases hp
        simp [NodePools.setClient, ClientState.busy]
      · cases hp
    constructor
    · refine h.attached.of_step he hcount rfl (keeps_setTask ht rfl ?_ (List.Subset.refl _))
        (fun _ _ => PoolAct.noConfusion) fun _ _ => PoolAct.noConfusion
      intro k' hk' hbusy
      refine List.mem_filter.mpr ⟨hk', decide_eq_true ?_⟩
      rintro rfl
      have hbusy' : (p.clients k').busy = true := hbusy
      rw [hidle] at hbusy'
      cases hbusy'
    · exact h.polls.of_task he rfl (fun _ _ hgive => hgive.elim) ht rfl
  · cases hstep

theorem Good.wake (h : n.Good) {k : Nat} (hcare : n.Careful (.wake k))
    (hstep : n.step (.wake k) = some n') : n'.Good := by
  obtain ⟨p, hp, rfl⟩ := poolStep_eq_some.mp hstep
  have he := NodePools.effect_step hp
  have hcount := NodePools.taskCount_step PoolAct.noConfusion (fun _ => PoolAct.noConfusion) hp
  have hg : n.Grows { n with pools := p } :=
    grows_of_mem he.ages (List.Subset.refl _) (List.Subset.refl _)
  constructor
  · exact h.attached.of_step he hcount rfl (keeps_of_eq rfl) (fun _ _ => PoolAct.noConfusion)
      fun _ _ => PoolAct.noConfusion
  · refine h.polls.of_step he hg (List.Subset.refl _) (fun _ hside => by cases hside) ?_
      (fun t io c ht hc => .inl ⟨io, ht, hc⟩) h.polls.empty
    rintro k' c ⟨rfl, hwakes⟩ -
    have hknown : n.pools.Known .client c := by
      unfold NodePools.wakesOn at hwakes
      split at hwakes
      · next address _ => exact .inl ⟨address, hwakes⟩
      · cases hwakes
    have hwatch := h.polls.known .client c hknown
    exact (hwatch.registered (hcare c hwakes)).mono hg hwatch.1

theorem closed_of_update {side : Side} {c : Nat} {f : PoolConn → PoolConn} {p : NodePools}
    (hp : p = n.pools.setPool side ((n.pools.pool side).update c f))
    (hf : ∀ x, (f x).state.isClosed = true) : ((p.pool side).conns c).state.isClosed = true := by
  rw [hp, NodePools.pool_setPool]
  simpa [Pool.update] using hf _

/-- `handle_read` and `handle_error` take a connection out of the set when they close it. -/
theorem Good.epollDel (h : n.Good) {a : PoolAct} {side : Side} {c : Nat} {p : NodePools}
    (hp : n.pools.step a = some p) (ha : a = .eof side c ∨ a = .errorClose side c)
    (hclosed : ((p.pool side).conns c).state.isClosed = true) :
    Good { n.epollDel side c with pools := p } := by
  have hcount : p.server.taskCount = n.pools.server.taskCount := by
    rcases ha with rfl | rfl
    · exact NodePools.taskCount_step PoolAct.noConfusion (fun _ => PoolAct.noConfusion) hp
    · exact NodePools.taskCount_step PoolAct.noConfusion (fun _ => PoolAct.noConfusion) hp
  refine h.of_quiet hp rfl rfl rfl rfl rfl (fun e he => List.mem_of_mem_filter he) ?_ hcount ?_
  · intro side' c' hmem hopen
    refine List.mem_filter.mpr ⟨hmem, decide_eq_true ?_⟩
    rintro heq
    obtain ⟨rfl, rfl⟩ := Prod.mk.inj heq
    have hopen' : ((p.pool side').conns c').state.isClosed = false := hopen
    rw [hclosed] at hopen'
    cases hopen'
  · rcases ha with rfl | rfl
    · exact ⟨rfl, fun _ _ => PoolAct.noConfusion, fun _ _ => PoolAct.noConfusion, fun _ _ => id⟩
    · exact ⟨rfl, fun _ _ => PoolAct.noConfusion, fun _ _ => PoolAct.noConfusion, fun _ _ => id⟩

theorem Good.eof (h : n.Good) {side : Side} {c : Nat} (hstep : n.step (.eof side c) = some n') :
    n'.Good := by
  simp only [step, Option.ite_none_right_eq_some, poolStep_eq_some] at hstep
  obtain ⟨-, p, hp, rfl⟩ := hstep
  refine h.epollDel hp (.inl rfl) ?_
  simp only [NodePools.step, Option.ite_none_right_eq_some, Option.some.injEq] at hp
  exact closed_of_update hp.2.symm PoolConn.isClosed_closeBegin

theorem Good.errorClose (h : n.Good) {side : Side} {c : Nat}
    (hstep : n.step (.errorClose side c) = some n') : n'.Good := by
  simp only [step, Option.ite_none_right_eq_some, poolStep_eq_some] at hstep
  obtain ⟨-, p, hp, rfl⟩ := hstep
  refine h.epollDel hp (.inr rfl) ?_
  simp only [NodePools.step, Option.ite_none_right_eq_some, Option.some.injEq] at hp
  exact closed_of_update hp.2.symm PoolConn.isClosed_closeBegin

/-- A step of the pools alone. -/
theorem Good.poolStep (h : n.Good) {a : PoolAct} (hstart : a ≠ .serverStart)
    (hstop : ∀ unrecv, a ≠ .serverStop unrecv) (hquiet : a.creates = none ∧
      (∀ k address, a ≠ .connect k address) ∧ (∀ k nodeId, a ≠ .find k nodeId) ∧
      ∀ k c, ¬ a.Gives n.pools k c) (hstep : n.poolStep a = some n') : n'.Good := by
  obtain ⟨p, hp, rfl⟩ := poolStep_eq_some.mp hstep
  exact h.of_quiet hp rfl rfl rfl rfl rfl (fun _ he => he) (fun _ _ hmem _ => hmem)
    (NodePools.taskCount_step hstart hstop hp) hquiet

theorem Good.epollAdd (h : n.Good) (hinited : n.isInited = true) (side : Side) (c : Nat) :
    (n.epollAdd side c).Good := by
  have hg : n.Grows (n.epollAdd side c) := by
    refine ⟨.refl n.pools, fun _ _ hmem _ => List.mem_cons_of_mem _ hmem, ?_⟩
    intro side' c' hmem _
    by_cases heq : (side', c') = (side, c)
    · exact .inl (heq ▸ List.mem_cons_self)
    · exact .inr (List.mem_filter.mpr ⟨hmem, decide_eq_true heq⟩)
  refine ⟨⟨h.attached.1, h.attached.2, h.attached.3, h.attached.4⟩, ⟨?_, ?_, ?_, ?_⟩⟩
  · exact fun side' c' hc => (h.polls.known side' c' hc).mono hg
  · intro k c' hk hdial
    exact (h.polls.clients k c' hk hdial).mono hg (h.polls.known .client c' (.inr (.inr ⟨rfl, k, hk⟩))).1
  · intro t io c' ht hc
    obtain ⟨hlt, hreg⟩ := h.polls.served t io c' ht hc
    exact ⟨hlt, hreg.mono hg hlt⟩
  · intro hni
    have hni' : n.isInited = false := hni
    rw [hinited] at hni'
    cases hni'

theorem Good.added (h : n.Good) {c : Nat} (hstep : n.step (.added c) = some n') : n'.Good := by
  simp only [step, Option.ite_none_right_eq_some, Option.some.injEq] at hstep
  obtain ⟨hpend, rfl⟩ := hstep
  refine h.epollAdd ?_ .server c
  by_contra hni
  exact (h.polls.empty (Bool.eq_false_iff.mpr hni)).2 c hpend

/-- The client that has dialed adds the connection that it holds. -/
theorem Good.addConnection (h : n.Good) {k : Nat} (hstep : n.step (.addConnection k) = some n') :
    n'.Good := by
  simp only [step] at hstep
  split at hstep
  · next c hk =>
    simp only [Option.ite_none_right_eq_some, Option.some.injEq] at hstep
    obtain ⟨-, rfl⟩ := hstep
    obtain ⟨t, io, ht, -⟩ := h.attached.clients k (by rw [hk]; rfl)
    have hadd := h.epollAdd (h.attached.inited t (by simp [ht])) .client c
    refine ⟨⟨hadd.attached.1, hadd.attached.2, hadd.attached.3, hadd.attached.4⟩,
      ⟨hadd.polls.known, ?_, hadd.polls.served, hadd.polls.empty⟩⟩
    intro k' c' hk' hdial
    rcases eq_or_ne k' k with rfl | hne
    · obtain rfl := ClientState.connected.inj (hk.symm.trans hk')
      exact fun _ => List.mem_cons_self
    · refine hadd.polls.clients k' c' hk' fun hmem => hdial ?_
      exact List.mem_filter.mpr ⟨hmem, decide_eq_true hne⟩
  · cases hstep

theorem Good.start (h : n.Good) {t : Nat} (hstep : n.step (.start t) = some n') : n'.Good := by
  simp only [step, Option.ite_none_right_eq_some, Option.isNone_iff_eq_none] at hstep
  obtain ⟨hnone, hstep⟩ := hstep
  -- a new set is empty, and so is what is left of one that was closed
  have hreg : (if n.isInited then n.registered else []) = n.registered := by
    split
    · rfl
    · next hni => exact (h.polls.empty (Bool.eq_false_iff.mpr hni)).1.symm
  rw [hreg] at hstep
  obtain ⟨p, hp, rfl⟩ := poolStep_eq_some.mp hstep
  have he := NodePools.effect_step hp
  have hg : n.Grows { n.setTask t (some {}) with isInited := true, registered := n.registered, pools := p } :=
    grows_of_mem he.ages (List.Subset.refl _) (List.Subset.refl _)
  -- the calls of the other tasks
  have hothers : ∀ {t' : Nat} {io : IoTask}, n.tasks t' = some io →
      (n.setTask t (some {})).tasks t' = some io := by
    intro t' io ht'
    have hne : t' ≠ t := by
      rintro rfl
      rw [hnone] at ht'
      cases ht'
    simpa [setTask, hne] using ht'
  refine ⟨⟨fun _ _ => rfl, ?_, ?_, ?_⟩, ?_⟩
  · obtain ⟨s, hs, hcard⟩ := h.attached.counted
    refine ⟨insert t s, fun t' => ?_, ?_⟩
    · rcases eq_or_ne t' t with rfl | hne
      · simp [setTask]
      · simp [setTask, hne, hs]
    · have hnew : p.server.taskCount = n.pools.server.taskCount + 1 := by
        simp only [NodePools.step, Option.some.injEq] at hp
        rw [← hp]
        rfl
      rw [Finset.card_insert_of_notMem fun hmem => (hs t).mp hmem hnone, hcard]
      exact hnew.symm
  · intro k hk
    rcases he.busy k hk with hold | ⟨address, ha⟩
    · obtain ⟨t', io, ht', hmem⟩ := h.attached.clients k hold
      exact ⟨t', io, hothers ht', hmem⟩
    · cases ha
  · intro k hk
    rcases he.puts k hk with hold | ⟨nodeId, ha⟩
    · obtain ⟨t', io, ht', hmem⟩ := h.attached.puts k hold
      exact ⟨t', io, hothers ht', hmem⟩
    · cases ha
  · refine h.polls.of_step he hg (List.Subset.refl _) (fun _ hside => by cases hside)
      (fun _ _ hgive => hgive.elim) ?_ ?_
    · intro t' io c ht' hc
      refine .inl ⟨io, ?_, hc⟩
      rcases eq_or_ne t' t with rfl | hne
      · obtain rfl : ({} : IoTask) = io := by simpa [setTask] using ht'
        cases hc
      · simpa [setTask, hne] using ht'
    · intro hni
      cases hni

/-- A task leaves, and the server stays. -/
theorem Good.leave (h : n.Good) {t unrecv : Nat} {io : IoTask} (ht : n.tasks t = some io)
    (hclients : ∀ k ∈ io.clients, (n.pools.clients k).busy = false)
    (hputs : ∀ k ∈ io.puts, n.pools.puts k = none)
    (hstep : (n.setTask t none).poolStep (.serverStop unrecv) = some n') : n'.Good := by
  obtain ⟨p, hp, rfl⟩ := poolStep_eq_some.mp hstep
  have he := NodePools.effect_step hp
  have hg : n.Grows { n.setTask t none with pools := p } :=
    grows_of_mem he.ages (List.Subset.refl _) (List.Subset.refl _)
  have hself : (n.setTask t none).tasks t = none := Function.update_self _ _ _
  have hothers : ∀ {t' : Nat} {io' : IoTask}, n.tasks t' = some io' → t' ≠ t →
      (n.setTask t none).tasks t' = some io' := by
    intro t' io' ht' hne
    simpa [setTask, hne] using ht'
  have hrest : ∀ t', (n.setTask t none).tasks t' ≠ none → t' ≠ t ∧ n.tasks t' ≠ none := by
    intro t' ht'
    have hne : t' ≠ t := by
      rintro rfl
      exact ht' hself
    exact ⟨hne, by simpa [setTask, hne] using ht'⟩
  refine ⟨⟨fun t' ht' => h.attached.inited t' (hrest t' ht').2, ?_, ?_, ?_⟩, ?_⟩
  · obtain ⟨s, hs, hcard⟩ := h.attached.counted
    refine ⟨s.erase t, fun t' => ?_, ?_⟩
    · rcases eq_or_ne t' t with rfl | hne
      · simp [setTask]
      · simp [setTask, hne, hs]
    · have hnew : p.server.taskCount = n.pools.server.taskCount - 1 := by
        simp only [NodePools.step, Option.ite_none_right_eq_some, Option.some.injEq] at hp
        obtain ⟨-, rfl⟩ := hp
        exact NodePools.lastTask_taskCount _ unrecv
      rw [Finset.card_erase_of_mem ((hs t).mpr (by simp [ht])), hcard]
      exact hnew.symm
  · intro k hk
    rcases he.busy k hk with hold | ⟨address, ha⟩
    · obtain ⟨t', io', ht', hmem⟩ := h.attached.clients k hold
      -- the task that leaves has no busy client
      refine ⟨t', io', hothers ht' ?_, hmem⟩
      rintro rfl
      obtain rfl := Option.some.inj (ht.symm.trans ht')
      have hbusy : (n.pools.clients k).busy = true := hold
      rw [hclients k hmem] at hbusy
      cases hbusy
    · cases ha
  · intro k hk
    rcases he.puts k hk with hold | ⟨nodeId, ha⟩
    · obtain ⟨t', io', ht', hmem⟩ := h.attached.puts k hold
      refine ⟨t', io', hothers ht' ?_, hmem⟩
      rintro rfl
      obtain rfl := Option.some.inj (ht.symm.trans ht')
      exact hold (hputs k hmem)
    · cases ha
  · refine h.polls.of_step he hg (List.Subset.refl _) (fun _ hside => by cases hside)
      (fun _ _ hgive => hgive.elim) ?_ h.polls.empty
    intro t' io' c ht' hc
    obtain ⟨hne, -⟩ := hrest t' (by
      rw [show (n.setTask t none).tasks t' = some io' from ht']
      exact Option.some_ne_none io')
    exact .inl ⟨io', by simpa [setTask, hne] using ht', hc⟩

/-- The set is closed when no task is left and the maps hold no open connection. -/
theorem Good.shut (h : n.Good) (hlast : n.pools.server.taskCount = 0)
    (hserver : n.pools.server.connections = ∅)
    (hclient : ∀ key c, n.pools.client.connections.lookup key = some c → ¬ n.isOpen .client c) :
    Good { n with
      isInited := false
      registered := []
      pending := n.pending.filter fun e => e.1 ≠ .server } := by
  have hnone : ∀ t, n.tasks t = none := by
    obtain ⟨s, hs, hcard⟩ := h.attached.counted
    have hempty : s = ∅ := Finset.card_eq_zero.mp (hcard.trans hlast)
    intro t
    by_contra ht
    have hmem := (hs t).mpr ht
    simp [hempty] at hmem
  -- no task is left that a client could belong to
  have hidle : ∀ k, (n.pools.clients k).busy = false := by
    intro k
    by_contra hk
    obtain ⟨t, io, ht, -⟩ := h.attached.clients k (Bool.not_eq_false _ ▸ hk)
    rw [hnone t] at ht
    cases ht
  have hfree : ∀ k c, n.pools.clients k ≠ .connected c := by
    intro k c hk
    have hbusy := hidle k
    rw [hk] at hbusy
    cases hbusy
  refine ⟨⟨fun t ht => absurd (hnone t) ht, h.attached.2, h.attached.3, h.attached.4⟩,
    ⟨?_, ?_, ?_, ?_⟩⟩
  · intro side c hc
    refine ⟨(h.polls.known side c hc).1, fun hopen => ?_⟩
    rcases hc with ⟨key, hkey⟩ | ⟨rfl, k, f, hk, -⟩ | ⟨rfl, k, hk⟩
    · cases side with
      | server =>
        have hkey' : n.pools.server.connections.lookup key = some c := hkey
        rw [hserver] at hkey'
        simp at hkey'
      | client => exact absurd hopen (hclient key c hkey)
    · obtain ⟨t, io, ht, -⟩ := h.attached.puts k fun hno => by
        rw [hno] at hk
        cases hk
      rw [hnone t] at ht
      cases ht
    · exact absurd hk (hfree k c)
  · exact fun k c hk => absurd hk (hfree k c)
  · intro t io c ht
    have ht' : n.tasks t = some io := ht
    rw [hnone t] at ht'
    cases ht'
  · refine fun _ => ⟨rfl, fun c hmem => ?_⟩
    have hne := (List.mem_filter.mp hmem).2
    simp at hne

theorem Good.stop (h : n.Good) {t unrecv : Nat} (hcare : n.Careful (.stop t unrecv))
    (hstep : n.step (.stop t unrecv) = some n') : n'.Good := by
  simp only [step] at hstep
  split at hstep
  · next io ht =>
    simp only [Option.ite_none_right_eq_some] at hstep
    obtain ⟨⟨hclients, hputs⟩, hstep⟩ := hstep
    obtain ⟨m, hm, hstep⟩ := Option.bind_eq_some_iff.mp hstep
    have hleft := h.leave ht hclients hputs hm
    split at hstep
    · next hlast =>
      obtain ⟨p, hp, rfl⟩ := poolStep_eq_some.mp hm
      obtain rfl := Option.some.inj hstep
      simp only [NodePools.step, Option.ite_none_right_eq_some, Option.some.injEq] at hp
      obtain ⟨hpos, hp⟩ := hp
      have hcount : p.server.taskCount = n.pools.server.taskCount - 1 := by
        subst hp
        exact NodePools.lastTask_taskCount _ unrecv
      have hone : n.pools.server.taskCount = 1 := by
        have hpos' : 0 < n.pools.server.taskCount := hpos
        have hzero : p.server.taskCount = 0 := hlast.1
        omega
      refine hleft.shut hlast.1 ?_ ?_
      · subst hp
        have htwo : n.pools.server.taskCount - 1 = 0 ∧ unrecv = 0 := ⟨by rw [hone], hlast.2⟩
        simp only [NodePools.lastTask, setTask, htwo]
        rfl
      · intro key c hkey
        subst hp
        have hcare' := hcare ⟨hone, hlast.2⟩
        exact hcare' ⟨key, c⟩ (AList.mem_lookup_iff.mp hkey)
    · cases hstep
      exact hleft
  · cases hstep

/-- **One step** of a careful run. -/
theorem good_step {a : IoAct} (h : n.Good) (hcare : n.Careful a) (hstep : n.step a = some n') :
    n'.Good := by
  cases a with
  | start t => exact h.start hstep
  | stop t unrecv => exact h.stop hcare hstep
  | accept cid => exact h.accept hstep
  | added c => exact h.added hstep
  | eof side c => exact h.eof hstep
  | error side c =>
    simp only [step, Option.ite_none_right_eq_some] at hstep
    exact h.poolStep PoolAct.noConfusion (fun _ => PoolAct.noConfusion)
      ⟨rfl, fun _ _ => PoolAct.noConfusion, fun _ _ => PoolAct.noConfusion, fun _ _ => id⟩ hstep.2
  | errorClose side c => exact h.errorClose hstep
  | closeEnd side c =>
    exact h.poolStep PoolAct.noConfusion (fun _ => PoolAct.noConfusion)
      ⟨rfl, fun _ _ => PoolAct.noConfusion, fun _ _ => PoolAct.noConfusion, fun _ _ => id⟩ hstep
  | find t k nodeId => exact h.find hstep
  | put t k => exact h.put hcare hstep
  | connect t k address => exact h.connect hcare hstep
  | wake k => exact h.wake hcare hstep
  | publish k => exact h.publish hstep
  | dialFail k =>
    exact h.poolStep PoolAct.noConfusion (fun _ => PoolAct.noConfusion)
      ⟨rfl, fun _ _ => PoolAct.noConfusion, fun _ _ => PoolAct.noConfusion, fun _ _ => id⟩ hstep
  | addConnection k => exact h.addConnection hstep
  | clientClose t k unrecv => exact h.clientClose hstep

/-! ## Every connection of a task is polled -/

/-- Of the connections that the tasks were given, those that are open are in the epoll set. -/
structure Polled (n : IoNode) : Prop where
  /-- dialed, or taken out of the map by `connect` -/
  dialed : ∀ k c, n.pools.clients k = .connected c → k ∉ n.dialers → n.isOpen .client c →
    (Side.client, c) ∈ n.registered
  /-- accepted, and taken by `put_connection` -/
  accepted : ∀ t io c, n.tasks t = some io → c ∈ io.served → n.isOpen .server c →
    (Side.server, c) ∈ n.registered

/-- **Every live connection is polled**, whatever the channels of the node do, as long as no
connection gets lost at one of the three places of `Careful`. -/
theorem polled {acts : List IoAct} (hcare : AllSteps step Careful {} acts)
    (hrun : run step {} acts = some n) : n.Polled := by
  have h : n.Good := run_invariant_of (fun _ _ _ => good_step) good_start hcare hrun
  exact ⟨h.polls.clients, fun t io c ht hc => (h.polls.served t io c ht hc).2⟩

/-- A channel dials and takes an accepted connection, a second one shares both, and the first one
ends. -/
theorem polled_small : ∃ acts n, AllSteps step Careful {} acts ∧ run step {} acts = some n ∧
    n.pools.clients 1 = .connected 0 ∧ n.isOpen .client 0 ∧ n.Polled := by
  obtain ⟨acts, hcare, hview⟩ : ∃ acts : List IoAct, AllSteps step Careful {} acts ∧
      (run step {} acts).map (fun n => (n.pools.clients 1, decide (n.isOpen .client 0))) =
        some (.connected 0, true) :=
    ⟨[.start 0, .connect 0 0 [1], .publish 0, .addConnection 0, .accept [2], .added 0,
      .find 0 0 [2], .put 0 0, .start 1, .connect 1 1 [1], .find 1 1 [2], .put 1 1,
      .clientClose 0 0 0, .stop 0 0], by decide, rfl⟩
  obtain ⟨n, hrun, hn⟩ := Option.map_eq_some_iff.mp hview
  simp only [Prod.mk.injEq, decide_eq_true_eq] at hn
  exact ⟨acts, n, hcare, hrun, hn.1, hn.2, polled hcare hrun⟩

/-- **Not in every run.** The last client of the node closes when a frame has not been read, so its
connection stays in the map. The server closes the epoll set. The next channel reuses the connection
and does not add it. -/
theorem not_polled : ¬ ∀ acts n, run step {} acts = some n → n.isInited = true → n.Polled := by
  intro hall
  obtain ⟨acts, hview⟩ : ∃ acts : List IoAct, (run step {} acts).map (fun n =>
      (n.pools.clients 1, n.dialers, decide (n.isOpen .client 0), n.registered, n.isInited)) =
        some (.connected 0, [], true, [], true) :=
    ⟨[.start 0, .connect 0 0 [1], .publish 0, .addConnection 0, .clientClose 0 0 1, .stop 0 0,
      .start 1, .connect 1 1 [1]], rfl⟩
  obtain ⟨n, hrun, hn⟩ := Option.map_eq_some_iff.mp hview
  simp only [Prod.mk.injEq, decide_eq_true_eq] at hn
  obtain ⟨hclient, hdial, hopen, hreg, hinited⟩ := hn
  have hmem := (hall acts n hrun hinited).dialed 1 0 hclient (by simp [hdial]) hopen
  simp [hreg] at hmem

end IoNode

end Rosetta

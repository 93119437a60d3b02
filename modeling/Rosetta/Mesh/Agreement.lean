import Rosetta.Mesh.Basic

/-!
# What holds while the nodes connect

* `place` — how far the server of a node has come with a peer
* `Paired` — the two ends of a connection, and what is in its socket
* `Inv` — the invariant, and `inv_step` — every step keeps it
* `same_connection` — two nodes that have each other in `connection_map` mean one connection
-/

namespace Rosetta

open Lib

/-- How far a server has come with a peer. -/
inductive Place where
  | away
  /-- in the queue of the listening socket -/
  | queued
  | accepted
  /-- the ack has been written, the hello is read -/
  | acked
  /-- in `connections_` -/
  | registered
  /-- its hello has been cut short -/
  | closed
  deriving DecidableEq, Repr

/-- The ack has been written. -/
def Place.isAcked : Place → Bool
  | .acked | .registered | .closed => true
  | _ => false

/-- The hello has been written. -/
def Dialed.isGreeted : Dialed → Bool
  | .greeted | .mapped => true
  | _ => false

/-- How far the two ends of a connection can be at the same time. -/
def Dialed.meets : Dialed → Place → Bool
  | .idle, .away => true
  | .connected, .queued | .connected, .accepted | .connected, .acked => true
  | .acked, .acked => true
  | .greeted, .acked | .mapped, .acked | .greeted, .registered | .mapped, .registered => true
  | .greeted, .closed | .mapped, .closed => true
  | _, _ => false

/-- Whose hello is there can be let in or turned away. -/
theorem Dialed.meets_of_isGreeted {d : Dialed} (h : d.isGreeted = true) :
    d.meets .registered = true ∧ d.meets .closed = true := by
  cases d with
  | greeted | mapped => exact ⟨rfl, rfl⟩
  | idle | connected | acked => cases h

theorem ClientId.eq_of_bytes {a b : ClientId} (h : a.bytes = b.bytes) : a = b := by
  cases a
  cases b
  cases h
  rfl

namespace Mesh

open Function

variable {r : Roster} {m m' : Mesh} {a b : ClientId}

/-! ## Where a peer is -/

def place (m : Mesh) (a b : ClientId) : Place :=
  if a ∈ m.pending b then .queued
  else if m.loop b = .accepted a then .accepted
  else if m.loop b = .acked a then .acked
  else if m.connections (b, a.bytes) = some a then .registered
  else if m.closed (a, b) then .closed
  else .away

theorem place_congr (hpending : a ∈ m'.pending b ↔ a ∈ m.pending b)
    (haccepted : m'.loop b = .accepted a ↔ m.loop b = .accepted a)
    (hacked : m'.loop b = .acked a ↔ m.loop b = .acked a)
    (hconn : m'.connections (b, a.bytes) = some a ↔ m.connections (b, a.bytes) = some a)
    (hclosed : m'.closed (a, b) = m.closed (a, b)) : m'.place a b = m.place a b := by
  simp only [place, hpending, haccepted, hacked, hconn, hclosed]

theorem place_queued (h : a ∈ m.pending b) : m.place a b = .queued := if_pos h

theorem place_accepted (hpending : a ∉ m.pending b) (hloop : m.loop b = .accepted a) :
    m.place a b = .accepted := by
  rw [place, if_neg hpending, if_pos hloop]

theorem place_acked (hpending : a ∉ m.pending b) (hloop : m.loop b = .acked a) :
    m.place a b = .acked := by
  have hne : m.loop b ≠ .accepted a := by
    rw [hloop]
    exact fun h => nomatch h
  rw [place, if_neg hpending, if_neg hne, if_pos hloop]

theorem place_registered (hpending : a ∉ m.pending b) (hloop : m.loop b = .registered)
    (hconn : m.connections (b, a.bytes) = some a) : m.place a b = .registered := by
  have hne : m.loop b ≠ .accepted a ∧ m.loop b ≠ .acked a := by
    rw [hloop]
    exact ⟨fun h => (nomatch h), fun h => nomatch h⟩
  rw [place, if_neg hpending, if_neg hne.1, if_neg hne.2, if_pos hconn]

theorem place_closed (hpending : a ∉ m.pending b) (hloop : m.loop b = .polling)
    (hconn : m.connections (b, a.bytes) ≠ some a) (hclosed : m.closed (a, b) = true) :
    m.place a b = .closed := by
  have hne : m.loop b ≠ .accepted a ∧ m.loop b ≠ .acked a := by
    rw [hloop]
    exact ⟨fun h => (nomatch h), fun h => nomatch h⟩
  rw [place, if_neg hpending, if_neg hne.1, if_neg hne.2, if_neg hconn, if_pos hclosed]

/-- What a place says about the state. -/
theorem of_place (m : Mesh) (a b : ClientId) : match m.place a b with
    | .queued => a ∈ m.pending b
    | .accepted => m.loop b = .accepted a
    | .acked => m.loop b = .acked a
    | .registered => m.connections (b, a.bytes) = some a
    | .closed => m.closed (a, b) = true
    | .away => True := by
  unfold place
  by_cases hpending : a ∈ m.pending b
  · rwa [if_pos hpending]
  · rw [if_neg hpending]
    by_cases haccepted : m.loop b = .accepted a
    · rwa [if_pos haccepted]
    · rw [if_neg haccepted]
      by_cases hacked : m.loop b = .acked a
      · rwa [if_pos hacked]
      · rw [if_neg hacked]
        by_cases hconn : m.connections (b, a.bytes) = some a
        · rwa [if_pos hconn]
        · rw [if_neg hconn]
          by_cases hclosed : m.closed (a, b) = true
          · rwa [if_pos hclosed]
          · rw [if_neg hclosed]
            trivial

theorem connections_of_place (h : m.place a b = .registered) :
    m.connections (b, a.bytes) = some a := by
  simpa only [h] using m.of_place a b

/-! ## The two ends -/

structure Paired (m : Mesh) (a b : ClientId) : Prop where
  meets : (m.dialed (a, b)).meets (m.place a b) = true
  ack : m.ack (a, b) = (m.place a b).isAcked
  hello : m.hello (a, b) = if (m.dialed (a, b)).isGreeted then some a.hello else none

theorem Paired.congr (h : Paired m a b) (hplace : m'.place a b = m.place a b)
    (hdialed : m'.dialed (a, b) = m.dialed (a, b)) (hack : m'.ack (a, b) = m.ack (a, b))
    (hhello : m'.hello (a, b) = m.hello (a, b)) : Paired m' a b := by
  refine ⟨?_, ?_, ?_⟩
  · rw [hdialed, hplace]
    exact h.meets
  · rw [hack, hplace]
    exact h.ack
  · rw [hhello, hdialed]
    exact h.hello

structure Inv (r : Roster) (m : Mesh) : Prop where
  paired : ∀ a b, Paired m a b
  dials : ∀ a b, m.dialed (a, b) ≠ .idle → b ∈ r.dials a
  /-- At the address of a peer a node has connected to that peer. -/
  dialing : ∀ a b addr, m.dialing (a, addr) = some b → addr = r.address a b ∧ m.dialed (a, b) ≠ .idle
  /-- A connection is kept under the id of the node that has made it. -/
  kept : ∀ a b cid, m.connections (b, cid) = some a → cid = a.bytes ∧ m.place a b = .registered
  nodup : ∀ b, (m.pending b).Nodup
  apart : ∀ a b, m.loop b = .accepted a ∨ m.loop b = .acked a → a ∉ m.pending b
  maps : ∀ a b l, m.connectionMap (a, b) = some l →
    (l = (a, b) ∧ m.dialed (a, b) = .mapped) ∨ (l = (b, a) ∧ m.place b a = .registered)
  mapped : ∀ a b, m.dialed (a, b) = .mapped → m.connectionMap (a, b) = some (a, b)

theorem inv_start (r : Roster) : Inv r {} := by
  have hplace : ∀ a b, ({} : Mesh).place a b = .away := fun a b => by simp [place]
  refine ⟨fun a b => ⟨?_, ?_, rfl⟩, ?_, ?_, ?_, ?_, ?_, ?_, ?_⟩
  · rw [hplace]
    rfl
  · rw [hplace]
    rfl
  all_goals simp

/-- No other pair has changed. -/
structure Same (m m' : Mesh) (a b : ClientId) : Prop where
  place : m'.place a b = m.place a b
  dialed : m'.dialed (a, b) = m.dialed (a, b)
  ack : m'.ack (a, b) = m.ack (a, b)
  hello : m'.hello (a, b) = m.hello (a, b)

/-- A step of the two ends of one connection. -/
theorem Inv.pairs (h : Inv r m) (hself : Paired m' a b)
    (hother : ∀ x y, (x, y) ≠ (a, b) → Same m m' x y) (x y : ClientId) : Paired m' x y := by
  by_cases hxy : (x, y) = (a, b)
  · obtain ⟨rfl, rfl⟩ := Prod.mk.inj hxy
    exact hself
  · have hsame := hother x y hxy
    exact (h.paired x y).congr hsame.place hsame.dialed hsame.ack hsame.hello

/-! ## The client -/

/-- The client goes on: what it has written and mapped then belongs to how far it has come. -/
theorem Inv.client (h : Inv r m) {d : Dialed} {hello : Edge → Option Bytes}
    {map : Edge → Option Edge} (hidle : m.dialed (a, b) ≠ .idle) (hold : m.dialed (a, b) ≠ .mapped)
    (hnew : d ≠ .idle) (hmeets : d.meets (m.place a b) = true)
    (hhello : hello = update m.hello (a, b) (if d.isGreeted then some a.hello else none))
    (hmap : map = if d = .mapped then update m.connectionMap (a, b) (some (a, b))
      else m.connectionMap) :
    Inv r { m with dialed := update m.dialed (a, b) d, hello := hello, connectionMap := map } := by
  have hne : ∀ {x y}, (x, y) ≠ (a, b) → update m.dialed (a, b) d (x, y) = m.dialed (x, y) :=
    fun hxy => update_of_ne hxy _ _
  refine ⟨h.pairs (a := a) (b := b) ⟨?_, (h.paired a b).ack, ?_⟩
    fun x y hxy => ⟨rfl, hne hxy, rfl, ?_⟩, ?_, ?_, h.kept, h.nodup, h.apart, ?_, ?_⟩
  · show (update m.dialed (a, b) d (a, b)).meets (m.place a b) = true
    rw [update_self]
    exact hmeets
  · simp only [hhello, update_self]
  · simp only [hhello, update_of_ne hxy]
  · intro x y hxy
    by_cases heq : (x, y) = (a, b)
    · obtain ⟨rfl, rfl⟩ := Prod.mk.inj heq
      exact h.dials x y hidle
    · exact h.dials x y (by simpa only [hne heq] using hxy)
  · intro x y addr hy
    obtain ⟨hat, hold⟩ := h.dialing x y addr hy
    refine ⟨hat, ?_⟩
    by_cases heq : (x, y) = (a, b)
    · obtain ⟨rfl, rfl⟩ := Prod.mk.inj heq
      simpa only [update_self] using hnew
    · simpa only [hne heq] using hold
  · intro x y l hl
    by_cases heq : (x, y) = (a, b)
    · obtain ⟨rfl, rfl⟩ := Prod.mk.inj heq
      by_cases hd : d = .mapped
      · simp only [hmap, if_pos hd, update_self, Option.some.injEq] at hl
        exact .inl ⟨hl.symm, by simp only [update_self, hd]⟩
      · simp only [hmap, if_neg hd] at hl
        exact .inr ((h.maps x y l hl).resolve_left fun hleft => hold hleft.2)
    · have hl : m.connectionMap (x, y) = some l := by
        rw [← hl, hmap]
        split
        · exact (update_of_ne heq _ _).symm
        · rfl
      have hold := h.maps x y l hl
      rw [← hne heq] at hold
      exact hold
  · intro x y hxy
    by_cases heq : (x, y) = (a, b)
    · obtain ⟨rfl, rfl⟩ := Prod.mk.inj heq
      have hd : d = .mapped := by simpa only [update_self] using hxy
      simp only [hmap, if_pos hd, update_self]
    · have hold : m.connectionMap (x, y) = some (x, y) :=
        h.mapped x y (by simpa only [hne heq] using hxy)
      rw [← hold]
      simp only [hmap]
      split
      · exact update_of_ne heq _ _
      · rfl

theorem Inv.readAck (h : Inv r m) (hd : m.dialed (a, b) = .connected)
    (hack : m.ack (a, b) = true) :
    Inv r { m with dialed := update m.dialed (a, b) .acked } := by
  have hp := h.paired a b
  have hmeets := hp.meets
  rw [hp.ack] at hack
  rw [hd] at hmeets
  refine h.client (by simp [hd]) (by simp [hd]) (by simp) ?_ ?_ rfl
  · cases hplace : m.place a b with
    | acked => rfl
    | away | queued | accepted => simp [hplace, Place.isAcked] at hack
    | registered | closed => simp [hplace, Dialed.meets] at hmeets
  · have hnone : m.hello (a, b) = none := by rw [hp.hello, hd]; rfl
    exact (update_eq_self_iff.mpr hnone.symm).symm

theorem Inv.writeHello (h : Inv r m) (hd : m.dialed (a, b) = .acked) :
    Inv r { m with
      dialed := update m.dialed (a, b) .greeted
      hello := update m.hello (a, b) (some a.hello) } := by
  have hmeets := (h.paired a b).meets
  rw [hd] at hmeets
  refine h.client (by simp [hd]) (by simp [hd]) (by simp) ?_ rfl rfl
  cases hplace : m.place a b with
  | acked => rfl
  | away | queued | accepted | registered | closed => simp [hplace, Dialed.meets] at hmeets

theorem Inv.publish (h : Inv r m) (hd : m.dialed (a, b) = .greeted) :
    Inv r { m with
      dialed := update m.dialed (a, b) .mapped
      connectionMap := update m.connectionMap (a, b) (some (a, b)) } := by
  have hp := h.paired a b
  have hmeets := hp.meets
  rw [hd] at hmeets
  refine h.client (by simp [hd]) (by simp [hd]) (by simp) ?_ ?_ rfl
  · cases hplace : m.place a b with
    | acked | registered | closed => rfl
    | away | queued | accepted => simp [hplace, Dialed.meets] at hmeets
  · have hsome : m.hello (a, b) = some a.hello := by rw [hp.hello, hd]; rfl
    exact (update_eq_self_iff.mpr hsome.symm).symm

/-! ## The server -/

/-- The server of `b` goes on with `a`, whose client has not moved. -/
theorem Inv.server (h : Inv r m) {pending : ClientId → List ClientId} {ready : ClientId → Bool}
    {loop : ClientId → MeshLoop} {connections : ClientId × Bytes → Option ClientId}
    {ack closed : Edge → Bool} {q : Place}
    (hself : place { m with pending, ready, loop, connections, ack, closed } a b = q)
    (hother : ∀ x y, (x, y) ≠ (a, b) →
      place { m with pending, ready, loop, connections, ack, closed } x y = m.place x y)
    (hmeets : (m.dialed (a, b)).meets q = true)
    (hack : ack = update m.ack (a, b) q.isAcked) (hold : m.place a b ≠ .registered)
    (hkept : ∀ x y cid, connections (y, cid) = some x →
      m.connections (y, cid) = some x ∨ (x = a ∧ y = b ∧ cid = a.bytes ∧ q = .registered))
    (hnodup : ∀ y, (pending y).Nodup)
    (hapart : ∀ x y, loop y = .accepted x ∨ loop y = .acked x → x ∉ pending y) :
    Inv r { m with pending, ready, loop, connections, ack, closed } := by
  have hstays : ∀ {x y}, m.place x y = .registered →
      place { m with pending, ready, loop, connections, ack, closed } x y = .registered := by
    intro x y hxy
    by_cases heq : (x, y) = (a, b)
    · obtain ⟨rfl, rfl⟩ := Prod.mk.inj heq
      exact absurd hxy hold
    · rw [hother x y heq, hxy]
  refine ⟨h.pairs (a := a) (b := b) ⟨?_, ?_, (h.paired a b).hello⟩
    fun x y hxy => ⟨hother x y hxy, rfl, ?_, rfl⟩, h.dials, h.dialing, ?_, hnodup, hapart, ?_,
    h.mapped⟩
  · rw [hself]
    exact hmeets
  · rw [hself]
    simp only [hack, update_self]
  · simp only [hack, update_of_ne hxy]
  · intro x y cid hc
    rcases hkept x y cid hc with hc | ⟨rfl, rfl, rfl, rfl⟩
    · obtain ⟨hcid, hplace⟩ := h.kept x y cid hc
      exact ⟨hcid, hstays hplace⟩
    · exact ⟨rfl, hself⟩
  · intro x y l hl
    exact (h.maps x y l hl).imp_right fun hright => ⟨hright.1, hstays hright.2⟩

/-- The client of which the loop reads the hello has its ack. -/
theorem Inv.ack_of_acked (h : Inv r m) (hloop : m.loop b = .acked a) : m.ack (a, b) = true := by
  rw [(h.paired a b).ack, place_acked (h.apart a b (.inr hloop)) hloop]
  rfl

/-- The loop of one node goes on, and no client comes or goes. -/
theorem Inv.apart_update (h : Inv r m) {l : MeshLoop}
    (hl : ∀ x, l = .accepted x ∨ l = .acked x → x ∉ m.pending b) (x y : ClientId)
    (hxy : update m.loop b l y = .accepted x ∨ update m.loop b l y = .acked x) :
    x ∉ m.pending y := by
  by_cases hy : y = b
  · subst hy
    rw [update_self] at hxy
    exact hl x hxy
  · rw [update_of_ne hy] at hxy
    exact h.apart x y hxy

theorem Inv.accept (h : Inv r m) {rest : List ClientId} (hloop : m.loop b = .reported)
    (hpending : m.pending b = a :: rest) : Inv r { m with
      pending := update m.pending b rest
      loop := update m.loop b (.accepted a) } := by
  have hnodup := h.nodup b
  rw [hpending, List.nodup_cons] at hnodup
  have hqueued : m.place a b = .queued :=
    place_queued (by rw [hpending]; exact List.mem_cons_self)
  have hp := h.paired a b
  have hmeets := hp.meets
  rw [hqueued] at hmeets
  refine h.server (a := a) (b := b) (q := .accepted) ?_ ?_ ?_ ?_ (by simp [hqueued])
    (fun x y cid hc => .inl hc) ?_ ?_
  · exact place_accepted (by simpa using hnodup.1) (by simp)
  · intro x y hxy
    by_cases hy : y = b
    · subst hy
      have hx : x ≠ a := fun he => hxy (he ▸ rfl)
      refine place_congr ?_ ?_ ?_ Iff.rfl rfl
      · simp [hpending, hx]
      · simp [hloop, hx.symm]
      · simp [hloop]
    · exact place_congr (by simp [hy]) (by simp [hy]) (by simp [hy]) Iff.rfl rfl
  · cases hd : m.dialed (a, b) with
    | connected => rfl
    | idle | acked | greeted | mapped => simp [hd, Dialed.meets] at hmeets
  · have hfalse : m.ack (a, b) = false := by rw [hp.ack, hqueued]; rfl
    exact (update_eq_self_iff.mpr hfalse.symm).symm
  · intro y
    by_cases hy : y = b
    · subst hy
      simpa using hnodup.2
    · simpa [hy] using h.nodup y
  · intro x y hxy
    by_cases hy : y = b
    · subst hy
      simp only [update_self, MeshLoop.accepted.injEq, reduceCtorEq, or_false] at hxy ⊢
      exact hxy ▸ hnodup.1
    · simp only [update_of_ne hy] at hxy ⊢
      exact h.apart x y hxy

theorem Inv.writeAck (h : Inv r m) (hloop : m.loop b = .accepted a) : Inv r { m with
      ack := update m.ack (a, b) true
      loop := update m.loop b (.acked a) } := by
  have hnot := h.apart a b (.inl hloop)
  have haccepted := place_accepted hnot hloop
  have hmeets := (h.paired a b).meets
  rw [haccepted] at hmeets
  refine h.server (a := a) (b := b) (q := .acked) ?_ ?_ ?_ rfl (by simp [haccepted])
    (fun x y cid hc => .inl hc) h.nodup (h.apart_update ?_)
  · exact place_acked hnot (by simp)
  · intro x y hxy
    by_cases hy : y = b
    · subst hy
      have hx : a ≠ x := fun he => hxy (he ▸ rfl)
      exact place_congr Iff.rfl (by simp [hloop, hx]) (by simp [hloop, hx]) Iff.rfl rfl
    · exact place_congr Iff.rfl (by simp [hy]) (by simp [hy]) Iff.rfl rfl
  · cases hd : m.dialed (a, b) with
    | connected => rfl
    | idle | acked | greeted | mapped => simp [hd, Dialed.meets] at hmeets
  · rintro x (hx | hx)
    · cases hx
    · cases hx
      exact hnot

/-- The client that has greeted has written its own hello, and is expected. -/
theorem Inv.greeted (h : Inv r m) {hello : Bytes} (hhello : m.hello (a, b) = some hello) :
    (m.dialed (a, b)).isGreeted = true ∧ hello = a.hello ∧ a ∈ r.expects b := by
  have hp := h.paired a b
  rw [hp.hello] at hhello
  split at hhello
  · next hgreeted =>
    have hidle : m.dialed (a, b) ≠ .idle := by
      intro hidle
      rw [hidle] at hgreeted
      cases hgreeted
    exact ⟨hgreeted, (Option.some.inj hhello).symm, (r.agree a b).mp (h.dials a b hidle)⟩
  · cases hhello

/-- **Nobody is turned away** whose hello comes in whole. -/
theorem Inv.greet_registers (h : Inv r m) {hello : Bytes}
    (hhello : m.hello (a, b) = some hello) :
    greet (r.expects b) (.ofHello hello) = .ok (.registered a.bytes) := by
  obtain ⟨-, rfl, hexpects⟩ := h.greeted hhello
  exact greet_of_mem hexpects

theorem Inv.greeted_cid (h : Inv r m) {cut : Option Nat} {hello cid : Bytes}
    (hhello : m.hello (a, b) = some hello)
    (hgreet : greet (r.expects b) (.ofHello (arrived hello cut)) = .ok (.registered cid)) :
    cid = a.bytes := by
  obtain ⟨-, rfl, -⟩ := h.greeted hhello
  exact eq_of_greet hgreet

/-- What `handle_accept` does with a hello. -/
theorem Inv.step_greet (h : Inv r m) (hloop : m.loop b = .acked a) {hello : Bytes}
    (hhello : m.hello (a, b) = some hello) : m.step r (.greet b none) = some { m with
      connections := update m.connections (b, a.bytes) (some a)
      loop := update m.loop b .registered } := by
  have hgreet := h.greet_registers hhello
  simp only [step, hloop, hhello, arrived]
  generalize greet (r.expects b) (.ofHello hello) = answer at hgreet
  rw [hgreet]

theorem Inv.register (h : Inv r m) (hloop : m.loop b = .acked a) {hello : Bytes}
    (hhello : m.hello (a, b) = some hello) : Inv r { m with
      connections := update m.connections (b, a.bytes) (some a)
      loop := update m.loop b .registered } := by
  have hnot := h.apart a b (.inr hloop)
  have hacked := place_acked hnot hloop
  refine h.server (a := a) (b := b) (q := .registered) ?_ ?_
    (Dialed.meets_of_isGreeted (h.greeted hhello).1).1 ?_ (by simp [hacked]) ?_ h.nodup
    (h.apart_update (by simp))
  · exact place_registered hnot (by simp) (by simp)
  · intro x y hxy
    by_cases hy : y = b
    · subst hy
      have hx : a ≠ x := fun he => hxy (he ▸ rfl)
      have hbytes : x.bytes ≠ a.bytes := fun he => hx (ClientId.eq_of_bytes he).symm
      exact place_congr Iff.rfl (by simp [hloop]) (by simp [hloop, hx]) (by simp [hbytes]) rfl
    · exact place_congr Iff.rfl (by simp [hy]) (by simp [hy]) (by simp [hy]) rfl
  · exact (update_eq_self_iff.mpr (h.ack_of_acked hloop).symm).symm
  · intro x y cid hc
    by_cases hcid : (y, cid) = (b, a.bytes)
    · obtain ⟨rfl, rfl⟩ := Prod.mk.inj hcid
      rw [update_self] at hc
      exact .inr ⟨(Option.some.inj hc).symm, rfl, rfl, rfl⟩
    · rw [update_of_ne hcid] at hc
      exact .inl hc

/-- `handle_accept` closes the socket of a client whose hello is cut short. -/
theorem Inv.refuse (h : Inv r m) (hloop : m.loop b = .acked a) {hello : Bytes}
    (hhello : m.hello (a, b) = some hello) : Inv r { m with
      closed := update m.closed (a, b) true
      loop := update m.loop b .polling } := by
  have hnot := h.apart a b (.inr hloop)
  have hacked := place_acked hnot hloop
  have hconn : m.connections (b, a.bytes) ≠ some a := by
    intro hconn
    have hreg := (h.kept a b a.bytes hconn).2
    rw [hacked] at hreg
    cases hreg
  refine h.server (a := a) (b := b) (q := .closed) ?_ ?_
    (Dialed.meets_of_isGreeted (h.greeted hhello).1).2 ?_ (by simp [hacked])
    (fun x y cid hc => .inl hc) h.nodup (h.apart_update (by simp))
  · exact place_closed hnot (by simp) hconn (by simp)
  · intro x y hxy
    by_cases hy : y = b
    · subst hy
      have hx : a ≠ x := fun he => hxy (he ▸ rfl)
      exact place_congr Iff.rfl (by simp [hloop]) (by simp [hloop, hx]) Iff.rfl
        (update_of_ne hxy _ _)
    · exact place_congr Iff.rfl (by simp [hy]) (by simp [hy]) Iff.rfl (update_of_ne hxy _ _)
  · exact (update_eq_self_iff.mpr (h.ack_of_acked hloop).symm).symm

/-! ## The other steps -/

/-- Nobody has moved. -/
theorem Inv.still (h : Inv r m) {listening started ready : ClientId → Bool}
    {loop : ClientId → MeshLoop}
    (hloop : ∀ x y, (loop y = .accepted x ↔ m.loop y = .accepted x) ∧
      (loop y = .acked x ↔ m.loop y = .acked x)) :
    Inv r { m with listening, started, ready, loop } := by
  have hplace : ∀ x y, place { m with listening, started, ready, loop } x y = m.place x y :=
    fun x y => place_congr Iff.rfl (hloop x y).1 (hloop x y).2 Iff.rfl rfl
  refine ⟨fun x y => (h.paired x y).congr (hplace x y) rfl rfl rfl, h.dials, h.dialing, ?_,
    h.nodup, ?_, ?_, h.mapped⟩
  · intro x y cid hc
    rw [hplace]
    exact h.kept x y cid hc
  · intro x y hxy
    rw [(hloop x y).1, (hloop x y).2] at hxy
    exact h.apart x y hxy
  · intro x y l hl
    rw [hplace]
    exact h.maps x y l hl

theorem loop_update_iff {loop : ClientId → MeshLoop} {b : ClientId} {l : MeshLoop}
    (hold : ∀ x, loop b ≠ .accepted x ∧ loop b ≠ .acked x)
    (hnew : ∀ x, l ≠ .accepted x ∧ l ≠ .acked x) (x y : ClientId) :
    (update loop b l y = .accepted x ↔ loop y = .accepted x) ∧
      (update loop b l y = .acked x ↔ loop y = .acked x) := by
  by_cases hy : y = b
  · subst hy
    rw [update_self]
    exact ⟨iff_of_false (hnew x).1 (hold x).1, iff_of_false (hnew x).2 (hold x).2⟩
  · rw [update_of_ne hy]
    exact ⟨Iff.rfl, Iff.rfl⟩

/-- **No connection is taken for another peer**, where the peers have addresses of their own. -/
theorem Inv.dialing_eq_none (h : Inv r m) (hdials : b ∈ r.dials a) (hd : m.dialed (a, b) = .idle) :
    m.dialing (a, r.address a b) = none := by
  cases hc : m.dialing (a, r.address a b) with
  | none => rfl
  | some c =>
    obtain ⟨hat, hidle⟩ := h.dialing a c _ hc
    obtain rfl := r.apart a b a c hdials (h.dials a c hidle) hat
    exact absurd hd hidle

theorem Inv.connect (h : Inv r m) (hdials : b ∈ r.dials a) (hd : m.dialed (a, b) = .idle) :
    Inv r { m with
      dialing := update m.dialing (a, r.address a b) (some b)
      dialed := update m.dialed (a, b) .connected
      pending := update m.pending b (m.pending b ++ [a])
      ready := update m.ready b true } := by
  have hp := h.paired a b
  have hmeets := hp.meets
  rw [hd] at hmeets
  have haway : m.place a b = .away := by
    cases hplace : m.place a b with
    | away => rfl
    | queued | accepted | acked | registered | closed => simp [hplace, Dialed.meets] at hmeets
  have hnot : a ∉ m.pending b := by
    intro hmem
    rw [place_queued hmem] at haway
    cases haway
  have hself : ∀ {m' : Mesh}, a ∈ m'.pending b → m'.place a b = .queued := place_queued
  have hplace : ∀ x y, (x, y) ≠ (a, b) → place { m with
      dialing := update m.dialing (a, r.address a b) (some b)
      dialed := update m.dialed (a, b) .connected
      pending := update m.pending b (m.pending b ++ [a])
      ready := update m.ready b true } x y = m.place x y := by
    intro x y hxy
    refine place_congr ?_ Iff.rfl Iff.rfl Iff.rfl rfl
    by_cases hy : y = b
    · subst hy
      have hx : x ≠ a := fun he => hxy (he ▸ rfl)
      simp [hx]
    · simp [hy]
  have hstays : ∀ {x y}, m.place x y = .registered → (x, y) ≠ (a, b) := by
    rintro x y hxy heq
    obtain ⟨rfl, rfl⟩ := Prod.mk.inj heq
    rw [haway] at hxy
    cases hxy
  refine ⟨h.pairs (a := a) (b := b) ⟨?_, ?_, ?_⟩
    fun x y hxy => ⟨hplace x y hxy, update_of_ne hxy _ _, rfl, rfl⟩, ?_, ?_, ?_, ?_, ?_, ?_, ?_⟩
  · rw [hself (by simp)]
    simp [Dialed.meets]
  · rw [hself (by simp)]
    show m.ack (a, b) = _
    rw [hp.ack, haway]
    rfl
  · show m.hello (a, b) = _
    rw [hp.hello, hd]
    simp [Dialed.isGreeted]
  · intro x y hxy
    by_cases heq : (x, y) = (a, b)
    · obtain ⟨rfl, rfl⟩ := Prod.mk.inj heq
      exact hdials
    · exact h.dials x y (by simpa only [update_of_ne heq] using hxy)
  · intro x y addr hy
    by_cases heq : (x, y) = (a, b)
    · obtain ⟨rfl, rfl⟩ := Prod.mk.inj heq
      refine ⟨?_, by simp⟩
      by_cases hat : (x, addr) = (x, r.address x y)
      · exact (Prod.mk.inj hat).2
      · simp only [update_of_ne hat] at hy
        exact (h.dialing x y addr hy).1
    · by_cases hat : (x, addr) = (a, r.address a b)
      · simp only [hat, update_self, Option.some.injEq] at hy
        exact absurd (by rw [(Prod.mk.inj hat).1, hy]) heq
      · simp only [update_of_ne hat] at hy
        simpa only [update_of_ne heq] using h.dialing x y addr hy
  · intro x y cid hc
    obtain ⟨hcid, hxy⟩ := h.kept x y cid hc
    exact ⟨hcid, (hplace x y (hstays hxy)).trans hxy⟩
  · intro y
    by_cases hy : y = b
    · subst hy
      simp only [update_self]
      refine List.Nodup.append (h.nodup y) (List.nodup_singleton a) ?_
      simpa using hnot
    · simpa only [update_of_ne hy] using h.nodup y
  · intro x y hxy
    have hold := h.apart x y hxy
    by_cases hy : y = b
    · subst hy
      simp only [update_self, List.mem_append, List.mem_singleton, not_or]
      refine ⟨hold, ?_⟩
      rintro rfl
      -- who is in the loop has connected
      rcases hxy with hxy | hxy
      · rw [place_accepted hold hxy] at haway
        cases haway
      · rw [place_acked hold hxy] at haway
        cases haway
    · simpa only [update_of_ne hy] using hold
  · intro x y l hl
    rcases h.maps x y l hl with ⟨hl, hmapped⟩ | ⟨hl, hreg⟩
    · refine .inl ⟨hl, ?_⟩
      have hne : (x, y) ≠ (a, b) := by
        rintro heq
        obtain ⟨rfl, rfl⟩ := Prod.mk.inj heq
        rw [hd] at hmapped
        cases hmapped
      simpa only [update_of_ne hne] using hmapped
    · exact .inr ⟨hl, (hplace y x (hstays hreg)).trans hreg⟩
  · intro x y hxy
    by_cases heq : (x, y) = (a, b)
    · simp [heq] at hxy
    · exact h.mapped x y (by simpa only [update_of_ne heq] using hxy)

theorem Inv.put (h : Inv r m) {d : ClientId} (hnone : m.connectionMap (a, b) = none)
    (hd : m.connections (a, b.bytes) = some d) :
    Inv r { m with connectionMap := update m.connectionMap (a, b) (some (d, a)) } := by
  obtain ⟨hcid, hreg⟩ := h.kept d a b.bytes hd
  obtain rfl := ClientId.eq_of_bytes hcid
  refine ⟨fun x y => (h.paired x y).congr rfl rfl rfl rfl, h.dials, h.dialing, h.kept, h.nodup,
    h.apart, ?_, ?_⟩
  · intro x y l hl
    by_cases heq : (x, y) = (a, b)
    · obtain ⟨rfl, rfl⟩ := Prod.mk.inj heq
      simp only [update_self, Option.some.injEq] at hl
      exact .inr ⟨hl.symm, hreg⟩
    · simp only [update_of_ne heq] at hl
      exact h.maps x y l hl
  · intro x y hxy
    have hold := h.mapped x y hxy
    by_cases heq : (x, y) = (a, b)
    · rw [heq, hnone] at hold
      cases hold
    · simpa only [update_of_ne heq] using hold

/-- **Every step keeps the invariant.** -/
theorem inv_step (h : Inv r m) {act : MeshAct} (hstep : m.step r act = some m') : Inv r m' := by
  cases does_of_step hstep with
  | listen | start => exact h.still fun x y => ⟨Iff.rfl, Iff.rfl⟩
  | connect hdials hd => exact h.connect hdials hd
  | reuse hdials hd hc => exact absurd hc (by simp [h.dialing_eq_none hdials hd])
  | readAck hd hack => exact h.readAck hd hack
  | writeHello hd => exact h.writeHello hd
  | publish hd => exact h.publish hd
  | epollWait hstarted hloop => exact h.still (loop_update_iff (by simp [hloop]) (by simp))
  | accept hloop hpending => exact h.accept hloop hpending
  | writeAck hloop => exact h.writeAck hloop
  | register hloop hhello hgreet =>
    obtain rfl := h.greeted_cid hhello hgreet
    exact h.register hloop hhello
  | refuse hloop hhello => exact h.refuse hloop hhello
  | epollMod hloop => exact h.still (loop_update_iff (by simp [hloop]) (by simp))
  | put hexpects hnone hd => exact h.put hnone hd

/-! ## One connection -/

theorem Inv.dials_of_place (h : Inv r m) (hplace : m.place a b = .registered) : b ∈ r.dials a := by
  refine h.dials a b fun hidle => ?_
  have hmeets := (h.paired a b).meets
  rw [hidle, hplace] at hmeets
  cases hmeets

end Mesh

theorem Roster.not_both (r : Roster) {a b : ClientId} (hab : b ∈ r.dials a) : a ∉ r.dials b := by
  intro hba
  exact List.disjoint_of_nodup_append (r.nodup a) hab ((r.agree b a).mp hba)

namespace Mesh

variable {r : Roster} {m : Mesh} {a b : ClientId} {acts : List MeshAct}

theorem Inv.connectionMap_eq (h : Inv r m) {l : Edge} (hl : m.connectionMap (a, b) = some l) :
    (b ∈ r.dials a ∧ l = (a, b)) ∨ (b ∈ r.expects a ∧ l = (b, a)) := by
  rcases h.maps a b l hl with ⟨rfl, hmapped⟩ | ⟨rfl, hreg⟩
  · exact .inl ⟨h.dials a b (by simp [hmapped]), rfl⟩
  · exact .inr ⟨(r.agree b a).mp (h.dials_of_place hreg), rfl⟩

/--
**Two nodes use one connection.**

Whatever the order in which the nodes of a roster start, connect and accept, and whichever hellos
are cut short: when two of them have each other in `connection_map`, both entries are the one
connection that was made between them.
-/
theorem same_connection (hrun : run (step r) {} acts = some m) {l l' : Edge}
    (hl : m.connectionMap (a, b) = some l) (hl' : m.connectionMap (b, a) = some l') :
    l = l' ∧ (l = (a, b) ∨ l = (b, a)) := by
  have h : Inv r m := run_invariant (fun _ _ _ h hs => inv_step h hs) (inv_start r) hrun
  obtain ⟨hab, rfl⟩ | ⟨hab, rfl⟩ := h.connectionMap_eq hl
  · obtain ⟨hba, rfl⟩ | ⟨-, rfl⟩ := h.connectionMap_eq hl'
    · exact absurd hba (r.not_both hab)
    · exact ⟨rfl, .inl rfl⟩
  · obtain ⟨-, rfl⟩ | ⟨hba, rfl⟩ := h.connectionMap_eq hl'
    · exact ⟨rfl, .inr rfl⟩
    · exact absurd ((r.agree b a).mpr hab) (r.not_both ((r.agree a b).mpr hba))

end Mesh

/-- Two nodes: the first one connects to the second one. -/
def Roster.pair (a b : ClientId) (h : a ≠ b) : Roster where
  nodes := {a, b}
  dials x := if x = a then [b] else []
  expects x := if x = b then [a] else []
  nodup x := by split_ifs <;> simp_all
  peers x y := by split_ifs <;> simp_all
  agree x y := by split_ifs <;> simp_all
  address _ x := (x.bytes, 0)
  apart x y u v _ _ hat := ClientId.eq_of_bytes (Prod.mk.inj hat).1

namespace Mesh

/-- One connects to the other. -/
def pairActs (a b : ClientId) : List MeshAct :=
  [.listen a, .listen b, .start b, .start a, .connect a b, .epollWait b, .accept b, .writeAck b,
    .readAck a b, .writeHello a b, .publish a b, .greet b none, .put b a, .epollMod b]

theorem same_connection_small : ∃ r : Roster, ∃ a b m, b ∈ r.dials a ∧
    run (step r) {} (pairActs a b) = some m ∧ m.connectionMap (a, b) = m.connectionMap (b, a) := by
  let a : ClientId := ⟨[1], by decide⟩
  let b : ClientId := ⟨[2], by decide⟩
  let r : Roster := .pair a b (by decide)
  obtain ⟨m, hrun, hmap⟩ := (Option.any_eq_true _ _).mp (show (run (step r) {}
    (pairActs a b)).any (fun m => (m.connectionMap (a, b)).isSome &&
      (m.connectionMap (b, a)).isSome) = true by decide +kernel)
  obtain ⟨hab, hba⟩ := (Bool.and_eq_true _ _).mp hmap
  obtain ⟨l, hl⟩ := Option.isSome_iff_exists.mp hab
  obtain ⟨l', hl'⟩ := Option.isSome_iff_exists.mp hba
  refine ⟨r, a, b, m, by decide, hrun, ?_⟩
  rw [hl, hl', (same_connection hrun hl hl').1]

end Mesh

end Rosetta

import Rosetta.Lib.Run
import Rosetta.Server.Steps

/-!
# Who is let in

`handle_accept` runs in the thread of the task that owns the epoll loop, and looks for the client in
the `expected_cids_` of that task. `lets_in_iff` says that nothing else decides, whatever the other
tasks expect.

* `readCid_hello` — a complete hello is read as the id it was written for
* `oneOwner_step` — one task at a time owns the loop, and `listen_count_` tells whether there is one
-/

namespace Rosetta

open Lib

/-! ## The hello -/

/-- The length at the head of a hello is the one that `handle_accept` reads. -/
theorem ClientId.size_hello (cid : ClientId) :
    wrapSub64 (ofBytes64 (toBytes64 (8 + cid.bytes.length))) 8 = cid.bytes.length := by
  have hfits := cid.fits
  have hlt : 8 + cid.bytes.length < 2 ^ 64 := by
    unfold maxAlloc at hfits
    omega
  rw [ofBytes64_toBytes64 hlt, wrapSub64_of_le (by omega) hlt]
  omega

/-- **A complete hello is understood**, with whatever the client sends behind it. -/
theorem readCid_hello (cid : ClientId) (rest : Bytes) :
    readCid (cid.hello ++ rest) = .ok (some (cid.bytes, rest)) := by
  have hhead : (cid.hello ++ rest).take 8 = toBytes64 (8 + cid.bytes.length) := by
    rw [ClientId.hello, List.append_assoc, List.take_left' (length_toBytes64 _)]
  have htail : (cid.hello ++ rest).drop 8 = cid.bytes ++ rest := by
    rw [ClientId.hello, List.append_assoc, List.drop_left' (length_toBytes64 _)]
  have hlong : ¬ (cid.hello ++ rest).length < 8 := by
    simp [ClientId.hello]
  simp only [readCid, hlong, if_false, hhead, cid.size_hello, resize_of_le cid.fits,
    Exec.ok_bind, htail, List.take_left, if_true, ← List.drop_drop, List.drop_left]

namespace Server

variable {n n' : Server} {task : Bytes}

/-! ## The owner of the loop -/

structure OneOwner (n : Server) : Prop where
  alone : ∀ t t', n.Owns t → n.Owns t' → t = t'
  counted : ∀ t, n.Owns t → n.listenCount = 1
  owned : n.listenCount ≠ 0 → ∃ t, n.Owns t
  bound : ∀ cid c, n.connections.lookup cid = some c → c < n.conns.length

theorem oneOwner_start : OneOwner {} := by
  refine ⟨?_, ?_, fun h => absurd rfl h, ?_⟩
  · rintro t t' ⟨s, hs, -⟩
    simp at hs
  · rintro t ⟨s, hs, -⟩
    simp at hs
  · intro cid c h
    simp at h

/-- All other actions leave the loop to its owner. -/
theorem owns_step_iff {a : ServerAct} (hstep : n.step a = some n')
    (htake : ∀ task, a ≠ .takeLoop task) (hend : ∀ task b, a ≠ .endLoop task b) (t : Bytes) :
    n'.Owns t ↔ n.Owns t := by
  have h := (effect_step hstep).loop t
  rw [owns_iff, owns_iff]
  cases a with
  | takeLoop task => exact absurd rfl (htake task)
  | endLoop task b => exact absurd rfl (hend task b)
  | start | quitLoop | leave =>
    rcases h with ⟨-, hl, hl'⟩ | ⟨-, hl'⟩
    · simp [hl, hl']
    · rw [hl']
  | allConnected =>
    rcases h with ⟨-, b, hl, hl'⟩ | ⟨-, hl'⟩
    · simp [hl, hl']
    · rw [hl']
  | stop =>
    rcases h with ⟨-, m, hl, hl'⟩ | ⟨-, hl'⟩
    · simp [hl, hl']
    · rw [hl']
  | _ => rw [show n'.loop t = n.loop t from h]

/-- **One step** leaves the loop to one task at most. -/
theorem oneOwner_step {a : ServerAct} (h : n.OneOwner) (hstep : n.step a = some n') :
    n'.OneOwner := by
  obtain ⟨hloop, hlisten, hstatic, -⟩ := effect_step hstep
  have hbound : ∀ cid c, n'.connections.lookup cid = some c → c < n'.conns.length := by
    intro cid c hc
    rcases hstatic.lookup cid c hc with hold | hnew
    · exact (h.bound cid c hold).trans_le hstatic.length_le
    · exact hnew
  by_cases htake : ∃ task, a = .takeLoop task
  · -- nobody had it
    obtain ⟨task, rfl⟩ := htake
    obtain ⟨hzero, hone⟩ := hlisten
    have hnone : ∀ t, ¬ n.Owns t := fun t ht => by
      have hcount := h.counted t ht
      omega
    have howns : ∀ t, n'.Owns t → t = task := by
      intro t ht
      rcases hloop t with ⟨rfl, -⟩ | ⟨-, hl⟩
      · rfl
      · rw [owns_iff, hl, ← owns_iff] at ht
        exact absurd ht (hnone t)
    refine ⟨fun t t' ht ht' => (howns t ht).trans (howns t' ht').symm, fun _ _ => hone, ?_, hbound⟩
    intro _
    rcases hloop task with ⟨-, -, hl⟩ | ⟨hne, -⟩
    · exact ⟨task, owns_iff.mpr ⟨false, .inl hl⟩⟩
    · exact absurd rfl hne
  · by_cases hend : ∃ task b, a = .endLoop task b
    · -- its owner gives it back
      obtain ⟨task, b, rfl⟩ := hend
      have howner : n.Owns task := by
        rcases hloop task with ⟨-, b, hl, -⟩ | ⟨hne, -⟩
        · exact owns_iff.mpr ⟨b, hl⟩
        · exact absurd rfl hne
      have hnone : ∀ t, ¬ n'.Owns t := by
        intro t ht
        rcases hloop t with ⟨-, b, -, hl⟩ | ⟨hne, hl⟩
        · rw [owns_iff] at ht
          simp [hl] at ht
        · rw [owns_iff, hl, ← owns_iff] at ht
          exact hne (h.alone t task ht howner)
      have hzero : n'.listenCount = 0 := by
        have hone := h.counted task howner
        have hminus : n'.listenCount = n.listenCount - 1 := hlisten
        omega
      exact ⟨fun t _ ht => absurd ht (hnone t), fun t ht => absurd ht (hnone t),
        fun hne => absurd hzero hne, hbound⟩
    · have hiff := owns_step_iff hstep (fun task heq => htake ⟨task, heq⟩)
        (fun task b heq => hend ⟨task, b, heq⟩)
      have hsame : n'.listenCount = n.listenCount := by
        cases a with
        | takeLoop task => exact absurd ⟨task, rfl⟩ htake
        | endLoop task b => exact absurd ⟨task, b, rfl⟩ hend
        | _ => exact hlisten
      refine ⟨fun t t' ht ht' => h.alone t t' ((hiff t).mp ht) ((hiff t').mp ht'), ?_, ?_, hbound⟩
      · intro t ht
        rw [hsame]
        exact h.counted t ((hiff t).mp ht)
      · intro hne
        obtain ⟨t, ht⟩ := h.owned (hsame ▸ hne)
        exact ⟨t, (hiff t).mpr ht⟩

/-! ## The client that another task expects -/

/-- The client has sent its hello, and `wire` behind it; `handle_accept` puts a connection for it
into `connections_`. -/
def LetsIn (n : Server) (cid : ClientId) (wire : Bytes) : Prop :=
  ∃ task n', n.step (.accept task (cid.hello ++ wire)) = some n' ∧
    n'.connections.lookup cid.bytes = some n.conns.length

theorem exists_register (n : Server) (cid wire : Bytes) :
    ∃ n', n.register cid wire = .ok n' ∧ n'.connections.lookup cid = some n.conns.length := by
  obtain ⟨r, hr⟩ : ∃ r, RecvHalf.new = .ok r := ⟨_, rfl⟩
  refine ⟨{ n with
    conns := n.conns ++ [{ wire, rcv := r }]
    connections := (n.connections.erase cid).insert cid n.conns.length }, ?_, by simp⟩
  rw [register, hr]
  rfl

theorem accept_eq {s : ServerTask} (hs : n.tasks.lookup task = some s) (howns : s.owns = true)
    (cid : ClientId) (wire : Bytes) : n.exec (.accept task (cid.hello ++ wire)) =
      if s.expects cid.bytes then n.register cid.bytes wire else .ok n := by
  simp only [exec, hs, howns, if_true, handleAccept, readCid_hello, Exec.ok_bind]

theorem OneOwner.letsIn_iff (h : n.OneOwner) {owner : Bytes} {s : ServerTask}
    (hs : n.tasks.lookup owner = some s) (howns : s.owns = true) (cid : ClientId) (wire : Bytes) :
    n.LetsIn cid wire ↔ s.expects cid.bytes = true := by
  constructor
  · rintro ⟨t, n', hstep, hlookup⟩
    by_contra hnot
    have hexec : n.exec (.accept t (cid.hello ++ wire)) = .ok n' := Exec.toOption_eq_some.mp hstep
    -- only the owner accepts
    obtain rfl : t = owner := by
      refine h.alone t owner ?_ ⟨s, hs, howns⟩
      simp only [exec] at hexec
      split at hexec
      · next s₁ hs₁ =>
        split at hexec
        · next howns₁ => exact ⟨s₁, hs₁, howns₁⟩
        · cases hexec
      · cases hexec
    rw [accept_eq hs howns, if_neg hnot] at hexec
    obtain rfl := Except.ok.inj hexec
    exact Nat.lt_irrefl _ (h.bound cid.bytes _ hlookup)
  · intro hmem
    obtain ⟨n', hn', hlookup⟩ := n.exists_register cid.bytes wire
    refine ⟨owner, n', Exec.toOption_eq_some.mpr ?_, hlookup⟩
    rw [accept_eq hs howns, if_pos hmem, hn']

theorem expects_iff {s : ServerTask} {cid : Bytes} :
    s.expects cid = true ↔ ∃ e ∈ s.expectedCids, e.bytes = cid := by
  simp [ServerTask.expects]

/-- **Who is let in.** Whatever the tasks are and whatever they expect: a peer that has sent a
complete hello is registered exactly when the task that owns the epoll loop expects it. -/
theorem lets_in_iff {acts : List ServerAct} (hrun : run step {} acts = some n) {owner : Bytes}
    {s : ServerTask} (hs : n.tasks.lookup owner = some s) (howns : s.owns = true) (cid : ClientId)
    (wire : Bytes) : n.LetsIn cid wire ↔ ∃ e ∈ s.expectedCids, e.bytes = cid.bytes := by
  have h : n.OneOwner := run_invariant (fun _ _ _ => oneOwner_step) oneOwner_start hrun
  rw [h.letsIn_iff hs howns, expects_iff]

/-- Two tasks expect different clients, and the first one owns the loop. -/
theorem lets_in_iff_small : ∃ acts n s, run step {} acts = some n ∧
    n.tasks.lookup [1] = some s ∧ s.owns = true ∧ s.expectedCids = [⟨[7], by decide⟩] ∧
    (n.LetsIn ⟨[7], by decide⟩ [] ↔ ∃ e ∈ s.expectedCids, e.bytes = [7]) := by
  obtain ⟨acts, n, s, hrun, hs, howns, hexpected⟩ : ∃ acts n s, run step {} acts = some n ∧
      n.tasks.lookup [1] = some s ∧ s.owns = true ∧ s.expectedCids = [⟨[7], by decide⟩] :=
    ⟨[.start [1] [⟨[7], by decide⟩], .start [2] [⟨[8], by decide⟩], .takeLoop [1]], _, _,
      rfl, rfl, rfl, rfl⟩
  exact ⟨acts, n, s, hrun, hs, howns, hexpected, lets_in_iff hrun hs howns _ []⟩

/-- **Not every expected client.** The second task expects `[8]`, and the first one, which does not,
owns the loop. -/
theorem not_lets_in : ¬ ∀ acts n, run step {} acts = some n → ∀ owner, n.Owns owner →
    ∀ task, ∀ s ∈ n.tasks.lookup task, ∀ cid ∈ s.expectedCids, ∀ wire, n.LetsIn cid wire := by
  intro hall
  obtain ⟨acts, n, s, s', hrun, hs, howns, hexpected, hs', hexpected'⟩ : ∃ acts n s s',
      run step {} acts = some n ∧ n.tasks.lookup [1] = some s ∧ s.owns = true ∧
      s.expectedCids = [⟨[7], by decide⟩] ∧ n.tasks.lookup [2] = some s' ∧
      s'.expectedCids = [⟨[8], by decide⟩] :=
    ⟨[.start [1] [⟨[7], by decide⟩], .start [2] [⟨[8], by decide⟩], .takeLoop [1]], _, _, _,
      rfl, rfl, rfl, rfl, rfl, rfl⟩
  have h : n.OneOwner := run_invariant (fun _ _ _ => oneOwner_step) oneOwner_start hrun
  have hin := hall acts n hrun [1] ⟨s, hs, howns⟩ [2] s' hs' ⟨[8], by decide⟩
    (by simp [hexpected']) []
  have hexpects := (h.letsIn_iff hs howns _ []).mp hin
  simp [ServerTask.expects, hexpected] at hexpects

end Server

end Rosetta

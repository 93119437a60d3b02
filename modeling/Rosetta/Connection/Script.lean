import Rosetta.Connection.Writen

/-!
# All outcomes of a write

`writen` is to write all of a buffer, whatever the single calls of `writeImpl` take of it. The loop
is left in three ways, which `writenLoop_cases` tells apart: everything is written, a call stops the
loop, or there are no more outcomes.

`readn`, its sibling, takes `EINTR` for a call to be made again, and so does the first line of this
branch of `writen`. But the log line and the return behind it are outside of the branches
(`writes_iff`).
-/

namespace Rosetta

/-- `writen(connfd, vptr, n)`: what it returns, and the bytes that the calls have taken. `none` if it
goes on beyond the given outcomes. -/
def writenLoop (n : Nat) (left written : Bytes) : List Outcome → Option (Int × Bytes)
  | [] => if left = [] then some (n - left.length, written) else none
  | o :: os =>
    if left = [] then some (n - left.length, written)
    else
      match writenTurn n left o with
      | .again left' => writenLoop n left' (written ++ left.take o.ret.toNat) os
      | .done ret => some (ret, written)

def writen (vptr : Bytes) (script : List Outcome) : Option (Int × Bytes) :=
  writenLoop vptr.length vptr [] script

namespace Outcome

/-- The bytes that the call has taken. -/
def count (o : Outcome) : Nat := o.ret.toNat

def Partial (o : Outcome) : Prop := 0 < o.ret

def Interrupted (o : Outcome) : Prop := o.ret < 0 ∧ o.errno = .EINTR

def Again (o : Outcome) : Prop := o.ret < 0 ∧ o.errno.isAgain = true

/-- A failure after which there is nothing to do but to give up. -/
def Hard (o : Outcome) : Prop := o.ret < 0 ∧ ¬ o.Interrupted ∧ ¬ o.Again

/-- `writen` tests `nleft` again. -/
def GoesOn (o : Outcome) : Prop := 0 < o.ret ∨ (o.ret ≤ 0 ∧ o.errno.isAgain = true)

instance : DecidablePred Partial := fun _ => inferInstanceAs (Decidable (_ < _))

instance : DecidablePred Interrupted := fun _ => inferInstanceAs (Decidable (_ ∧ _))

instance : DecidablePred Again := fun _ => inferInstanceAs (Decidable (_ ∧ _))

theorem not_goesOn_of_interrupted {o : Outcome} (h : o.Interrupted) : ¬ o.GoesOn := by
  rintro (hpos | ⟨-, hagain⟩)
  · have := h.1
    omega
  · rw [h.2] at hagain
    cases hagain

theorem goesOn_of_again {o : Outcome} (h : o.Again) : o.GoesOn := .inr ⟨by have := h.1; omega, h.2⟩

/-- A failure that stops `writen` is one that it should stop at, or an interruption. -/
theorem hard_or_interrupted {o : Outcome} (hret : o.ret < 0) (hstop : ¬ o.GoesOn) :
    o.Hard ∨ o.Interrupted := by
  by_cases hint : o.Interrupted
  · exact .inr hint
  · exact .inl ⟨hret, hint, fun hagain => hstop (goesOn_of_again hagain)⟩

end Outcome

/-- The bytes that all of the calls have taken. -/
def total (script : List Outcome) : Nat := (script.map Outcome.count).sum

variable {n : Nat} {left written : Bytes} {script : List Outcome} {o : Outcome}

/-! ## One call -/

theorem writenTurn_of_goesOn (h : o.GoesOn) (n : Nat) (left : Bytes) :
    writenTurn n left o = .again (left.drop o.count) := by
  unfold writenTurn Outcome.count
  rcases h with hpos | ⟨hle, hagain⟩
  · rw [if_neg (by omega), if_neg (by omega)]
  · have hzero : o.ret.toNat = 0 := by omega
    have hnot : o.errno ≠ .EINTR := by
      intro heq
      rw [heq] at hagain
      cases hagain
    rw [hzero, List.drop_zero]
    by_cases hneg : o.ret < 0
    · rw [if_pos hneg, if_neg hnot, if_pos hagain]
    · rw [if_neg hneg, if_pos (by omega), if_pos hagain]

theorem writenTurn_of_not_goesOn (h : ¬ o.GoesOn) (n : Nat) (left : Bytes) :
    writenTurn n left o = .done (if o.ret < 0 then -1 else n - left.length) := by
  have hpos : ¬ 0 < o.ret := fun hpos => h (.inl hpos)
  have hagain : ¬ o.errno.isAgain = true := fun hagain => h (.inr ⟨by omega, hagain⟩)
  unfold writenTurn
  by_cases hneg : o.ret < 0
  · rw [if_pos hneg, if_pos hneg, if_neg hagain, ite_self]
  · rw [if_neg hneg, if_neg hneg, if_pos (by omega), if_neg hagain]

/-! ## The loop -/

theorem writenLoop_nil (n : Nat) (written : Bytes) (script : List Outcome) :
    writenLoop n [] written script = some ((n : Int), written) := by
  cases script with
  | nil => simp [writenLoop]
  | cons o os => simp [writenLoop]

/-- Calls after which the loop goes on, as long as there is something left. -/
theorem writenLoop_append {pre : List Outcome} (hpre : ∀ o ∈ pre, o.GoesOn)
    (hlt : total pre < left.length) (script : List Outcome) :
    writenLoop n left written (pre ++ script) =
      writenLoop n (left.drop (total pre)) (written ++ left.take (total pre)) script := by
  induction pre generalizing left written with
  | nil => simp [total]
  | cons o pre ih =>
    have htotal : total (o :: pre) = o.count + total pre := List.sum_cons
    rw [htotal] at hlt ⊢
    have hne : left ≠ [] := by
      rintro rfl
      simp at hlt
    have hdrop : total pre < (left.drop o.count).length := by
      rw [List.length_drop]
      omega
    rw [List.cons_append, writenLoop, if_neg hne,
      writenTurn_of_goesOn (hpre o List.mem_cons_self)]
    simp only
    rw [ih (fun o' ho' => hpre o' (List.mem_cons_of_mem _ ho')) hdrop, List.drop_drop, List.take_add,
      ← List.append_assoc]
    rfl

/-- **How the loop ends.** -/
theorem writenLoop_cases (n : Nat) (left written : Bytes) (script : List Outcome) :
    writenLoop n left written script = some ((n : Int), written ++ left) ∨
      (∃ pre o post, script = pre ++ o :: post ∧ (∀ o' ∈ pre, o'.GoesOn) ∧
        total pre < left.length ∧ ¬ o.GoesOn) ∨
      ((∀ o ∈ script, o.GoesOn) ∧ total script < left.length) := by
  induction script generalizing left written with
  | nil =>
    by_cases hleft : left = []
    · subst hleft
      rw [writenLoop_nil, List.append_nil]
      exact .inl rfl
    · exact .inr (.inr ⟨by simp, List.length_pos_iff.mpr hleft⟩)
  | cons o os ih =>
    by_cases hleft : left = []
    · subst hleft
      rw [writenLoop_nil, List.append_nil]
      exact .inl rfl
    · have hpos : 0 < left.length := List.length_pos_iff.mpr hleft
      by_cases hgoes : o.GoesOn
      · have hlen : (left.drop o.count).length = left.length - o.count := List.length_drop
        have htotal : ∀ pre, total (o :: pre) = o.count + total pre := fun _ => List.sum_cons
        have hall : ∀ pre : List Outcome, (∀ o' ∈ pre, o'.GoesOn) → ∀ o' ∈ o :: pre, o'.GoesOn :=
          fun pre hpre => List.forall_mem_cons.mpr ⟨hgoes, hpre⟩
        rcases ih (left.drop o.count) (written ++ left.take o.count) with
          hdone | ⟨pre, o', post, rfl, hpre, hlt, hstop⟩ | ⟨hos, hlt⟩
        · rw [List.append_assoc, List.take_append_drop] at hdone
          refine .inl ?_
          rw [writenLoop, if_neg hleft, writenTurn_of_goesOn hgoes]
          exact hdone
        · refine .inr (.inl ⟨o :: pre, o', post, rfl, hall pre hpre, ?_, hstop⟩)
          rw [htotal]
          omega
        · refine .inr (.inr ⟨hall os hos, ?_⟩)
          rw [htotal]
          omega
      · exact .inr (.inl ⟨[], o, os, rfl, by simp, hpos, hgoes⟩)

/-- What it returns at a call that stops it. -/
theorem writenLoop_stop {pre post : List Outcome} (hpre : ∀ o' ∈ pre, o'.GoesOn)
    (hlt : total pre < left.length) (hstop : ¬ o.GoesOn) :
    writenLoop n left written (pre ++ o :: post) =
      some (if o.ret < 0 then -1 else (n : Int) - (left.length - total pre : Nat),
        written ++ left.take (total pre)) := by
  have hne : left.drop (total pre) ≠ [] := by
    intro hnil
    have := List.drop_eq_nil_iff.mp hnil
    omega
  rw [writenLoop_append hpre hlt, writenLoop, if_neg hne, writenTurn_of_not_goesOn hstop,
    List.length_drop]

theorem writenLoop_none (hall : ∀ o ∈ script, o.GoesOn) (hlt : total script < left.length) :
    writenLoop n left written script = none := by
  have hne : left.drop (total script) ≠ [] := by
    intro hnil
    have := List.drop_eq_nil_iff.mp hnil
    omega
  rw [← List.append_nil script, writenLoop_append hall hlt, writenLoop, if_neg hne]

/-! ## The whole buffer -/

/-- The outcomes of a script that completes the buffer, and no other end but a hard error. -/
structure Writes (vptr : Bytes) (script : List Outcome) : Prop where
  complete : (∀ o ∈ script, o.Partial ∨ o.Interrupted ∨ o.Again) → total script = vptr.length →
    writen vptr script = some ((vptr.length : Int), vptr)
  hard : ∀ taken, writen vptr script = some (-1, taken) →
    ∃ pre o post, script = pre ++ o :: post ∧ writen vptr pre = none ∧ o.Hard

/-- No call is interrupted before `n` bytes are taken. -/
def Uninterrupted (n : Nat) (script : List Outcome) : Prop :=
  ∀ pre o post, script = pre ++ o :: post → o.Interrupted → (∀ o' ∈ pre, o'.GoesOn) →
    n ≤ total pre

/-- The calls before the one that stops the loop. -/
theorem writen_eq_none {vptr : Bytes} (h : writen vptr script = none) :
    (∀ o ∈ script, o.GoesOn) ∧ total script < vptr.length := by
  rcases writenLoop_cases vptr.length vptr [] script with
    hdone | ⟨pre, o, post, rfl, hpre, hlt, hstop⟩ | hnone
  · cases h.symm.trans hdone
  · cases h.symm.trans (writenLoop_stop hpre hlt hstop)
  · exact hnone

/-- The first outcome that stops the loop is the only one that does. -/
theorem stop_unique {pre pre' post post' : List Outcome} {o o' : Outcome}
    (h : pre ++ o :: post = pre' ++ o' :: post') (hpre : ∀ x ∈ pre, x.GoesOn)
    (hpre' : ∀ x ∈ pre', x.GoesOn) (ho : ¬ o.GoesOn) (ho' : ¬ o'.GoesOn) : o = o' := by
  rcases List.append_eq_append_iff.mp h with ⟨as, rfl, hrest⟩ | ⟨as, rfl, hrest⟩
  · cases as with
    | nil => exact (List.cons.inj hrest).1
    | cons a as =>
      obtain ⟨rfl, -⟩ := List.cons.inj hrest
      exact absurd (hpre' o (by simp)) ho
  · cases as with
    | nil => exact (List.cons.inj hrest).1.symm
    | cons a as =>
      obtain ⟨rfl, -⟩ := List.cons.inj hrest
      exact absurd (hpre o' (by simp)) ho'

theorem Uninterrupted.writes {vptr : Bytes} (h : Uninterrupted vptr.length script) :
    Writes vptr script := by
  constructor
  · intro hkinds htotal
    rcases writenLoop_cases vptr.length vptr [] script with
      hdone | ⟨pre, o, post, rfl, hpre, hlt, hstop⟩ | ⟨-, hlt⟩
    · exact hdone
    · rcases hkinds o (by simp) with hpartial | hint | hagain
      · exact absurd (.inl hpartial) hstop
      · exact absurd (h pre o post rfl hint hpre) (by omega)
      · exact absurd (Outcome.goesOn_of_again hagain) hstop
    · omega
  · intro taken hret
    rcases writenLoop_cases vptr.length vptr [] script with
      hdone | ⟨pre, o, post, rfl, hpre, hlt, hstop⟩ | ⟨hall, hlt⟩
    · obtain ⟨hneg, -⟩ := Prod.mk.inj (Option.some.inj (hret.symm.trans hdone))
      omega
    · obtain ⟨hneg, -⟩ := Prod.mk.inj (Option.some.inj
        (hret.symm.trans (writenLoop_stop hpre hlt hstop)))
      have hfail : o.ret < 0 := by
        by_contra hnot
        rw [if_neg hnot] at hneg
        omega
      rcases Outcome.hard_or_interrupted hfail hstop with hhard | hint
      · exact ⟨pre, o, post, rfl, writenLoop_none hpre hlt, hhard⟩
      · exact absurd (h pre o post rfl hint hpre) (by omega)
    · cases hret.symm.trans (writenLoop_none hall hlt)

/-- **When `writen` is a complete write**: no call is interrupted while there is something left. -/
theorem writes_iff (vptr : Bytes) (script : List Outcome) :
    Writes vptr script ↔ Uninterrupted vptr.length script := by
  refine ⟨fun h => ?_, Uninterrupted.writes⟩
  rintro pre o post rfl hint hpre
  by_contra hlt
  have hstop := Outcome.not_goesOn_of_interrupted hint
  have hret : writen vptr (pre ++ o :: post) = _ :=
    writenLoop_stop hpre (Nat.lt_of_not_le hlt) hstop
  rw [if_pos hint.1] at hret
  obtain ⟨pre', o', post', heq, hnone, hhard⟩ := h.hard _ hret
  have hgoes : ¬ o'.GoesOn := by
    rintro (hpos | ⟨hle, hagain⟩)
    · have := hhard.1
      omega
    · exact hhard.2.2 ⟨hhard.1, hagain⟩
  obtain rfl := stop_unique heq hpre (writen_eq_none hnone).1 hstop hgoes
  exact hhard.2.1 hint

/-- The second call of three is interrupted, and the last byte is not written. -/
theorem not_writes : ¬ Writes [1, 2, 3] [⟨2, .other⟩, ⟨-1, .EINTR⟩, ⟨1, .other⟩] ∧
    writen [1, 2, 3] [⟨2, .other⟩, ⟨-1, .EINTR⟩, ⟨1, .other⟩] = some (-1, [1, 2]) := by
  have hret : writen [1, 2, 3] [⟨2, .other⟩, ⟨-1, .EINTR⟩, ⟨1, .other⟩] = some (-1, [1, 2]) := by
    decide
  refine ⟨fun h => ?_, hret⟩
  have hall := h.complete (by decide) (by decide)
  rw [hret] at hall
  exact absurd hall (by decide)

end Rosetta

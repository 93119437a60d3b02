import Mathlib.Data.List.Basic

/-!
# Self-delimiting messages in a stream

A framing writes messages one behind the other. The first `head` symbols of a message tell how
long it is, so a reader that holds an initial piece of the stream can tell whether the first
message is complete, and cut it off.

* `stream` — what is written for a list of messages
* `exists_cons` — a complete head in any initial piece of a stream is the first message
* `complete_of_all` — when the whole stream is there, so is its first message
-/

namespace Rosetta.Lib

structure Framing (α μ : Type*) where
  encode : μ → List α
  /-- How many symbols the reader looks at. -/
  head : Nat
  /-- The length that a stretch announces at its start. -/
  len : List α → Nat
  head_pos : 0 < head
  head_le : ∀ m, head ≤ (encode m).length
  len_take : ∀ s, len (s.take head) = len s
  len_encode : ∀ m, len (encode m) = (encode m).length

namespace Framing

variable {α μ : Type*} (F : Framing α μ)

def stream (ms : List μ) : List α := ms.flatMap F.encode

@[simp] theorem stream_cons (m : μ) (ms : List μ) :
    F.stream (m :: ms) = F.encode m ++ F.stream ms := by
  simp [stream]

theorem stream_append (ms ms' : List μ) : F.stream (ms ++ ms') = F.stream ms ++ F.stream ms' := by
  simp [stream]

/-- The first message is complete in `s`. -/
def Complete (s : List α) : Prop := F.head ≤ s.length ∧ F.len s ≤ s.length

/-- What follows a message does not change the length it announces. -/
theorem len_encode_append (m : μ) (s : List α) :
    F.len (F.encode m ++ s) = (F.encode m).length := by
  have htake : (F.encode m ++ s).take F.head = (F.encode m).take F.head :=
    List.take_append_of_le_length (F.head_le m)
  rw [← F.len_take, htake, F.len_take, F.len_encode]

/-- An initial piece with a full head announces the length of the first message. -/
theorem len_of_prefix {s rest : List α} {m : μ} {ms : List μ}
    (h : s ++ rest = F.stream (m :: ms)) (hs : F.head ≤ s.length) :
    F.len s = (F.encode m).length := by
  have hlen := F.len_encode_append m (F.stream ms)
  rw [← stream_cons, ← h, ← F.len_take, List.take_append_of_le_length hs, F.len_take] at hlen
  exact hlen

/-- **A complete head is the first message of the stream**, and what is left is a piece of the
rest of the stream. -/
theorem exists_cons {s rest : List α} {ms : List μ} (h : s ++ rest = F.stream ms)
    (hc : F.Complete s) :
    ∃ m ms', ms = m :: ms' ∧ s = F.encode m ++ s.drop (F.len s) ∧
      F.len s = (F.encode m).length ∧ s.drop (F.len s) ++ rest = F.stream ms' := by
  obtain ⟨hs, hlen⟩ := hc
  cases ms with
  | nil =>
    have hpos := F.head_pos
    have hnil : s = [] := (List.append_eq_nil_iff.mp h).1
    rw [hnil, List.length_nil] at hs
    omega
  | cons m ms' =>
    have heq := F.len_of_prefix h hs
    rw [stream_cons] at h
    have htake : s.take (F.encode m).length = F.encode m := by
      have ht := congrArg (List.take (F.encode m).length) h
      rwa [List.take_append_of_le_length (by omega), List.take_left] at ht
    have hdrop : s.drop (F.encode m).length ++ rest = F.stream ms' := by
      have hd := congrArg (List.drop (F.encode m).length) h
      rwa [List.drop_append_of_le_length (by omega), List.drop_left] at hd
    refine ⟨m, ms', rfl, ?_, heq, ?_⟩
    · conv_lhs => rw [← List.take_append_drop (F.encode m).length s, htake]
      rw [heq]
    · rw [heq, hdrop]

/-- When nothing is missing, the first message is complete. -/
theorem complete_of_all {s : List α} {ms : List μ} (h : s = F.stream ms) (hne : ms ≠ []) :
    F.Complete s := by
  cases ms with
  | nil => exact absurd rfl hne
  | cons m ms' =>
    have hhead := F.head_le m
    rw [stream_cons] at h
    subst h
    refine ⟨?_, ?_⟩
    · rw [List.length_append]
      omega
    · rw [F.len_encode_append, List.length_append]
      omega

end Framing

end Rosetta.Lib

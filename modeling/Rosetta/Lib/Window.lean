import Mathlib.Data.List.Basic
import Mathlib.Tactic.Linarith

/-!
# Cyclic windows over a block of memory

A block is a function from addresses to cells. This file has the list facts that a ring buffer
needs: what is read when a stretch of cells runs past the end of the block and continues at `0`,
and what survives when another stretch is written over.

* `cells` — a straight stretch
* `window` — a stretch that wraps around at `n`
* `overwrite` — the block after a straight copy into it
-/

namespace Rosetta.Lib

variable {α : Type*}

/-! ## Wrapping an index once -/

/-- An index that has passed the end at most once. -/
theorem mod_eq_ite {a n : Nat} (h : a < 2 * n) : a % n = if a < n then a else a - n := by
  split
  · next hlt => exact Nat.mod_eq_of_lt hlt
  · next hge =>
    rw [Nat.mod_eq_sub_mod (by omega)]
    exact Nat.mod_eq_of_lt (by omega)

/-! ## Straight stretches -/

/-- The `len` cells from `pos` on. -/
def cells (mem : Nat → α) (pos len : Nat) : List α :=
  (List.range len).map fun i => mem (pos + i)

@[simp] theorem length_cells (mem : Nat → α) (pos len : Nat) :
    (cells mem pos len).length = len := by simp [cells]

@[simp] theorem cells_zero (mem : Nat → α) (pos : Nat) : cells mem pos 0 = [] := rfl

@[simp] theorem getElem_cells (mem : Nat → α) (pos len i : Nat)
    (h : i < (cells mem pos len).length) : (cells mem pos len)[i] = mem (pos + i) := by
  simp [cells]

/-- A stretch read in two parts. -/
theorem cells_add (mem : Nat → α) (pos j k : Nat) :
    cells mem pos (j + k) = cells mem pos j ++ cells mem (pos + j) k := by
  simp [cells, List.range_add, Nat.add_assoc]

theorem cells_congr {mem mem' : Nat → α} {pos pos' len : Nat}
    (h : ∀ i < len, mem (pos + i) = mem' (pos' + i)) : cells mem pos len = cells mem' pos' len := by
  refine List.map_congr_left ?_
  intro i hi
  exact h i (List.mem_range.mp hi)

/-! ## Stretches that wrap -/

/-- The `len` cells read from `pos` on, modulo `n`. -/
def window (mem : Nat → α) (n pos len : Nat) : List α :=
  (List.range len).map fun i => mem ((pos + i) % n)

@[simp] theorem length_window (mem : Nat → α) (n pos len : Nat) :
    (window mem n pos len).length = len := by simp [window]

@[simp] theorem getElem_window (mem : Nat → α) (n pos len i : Nat)
    (h : i < (window mem n pos len).length) :
    (window mem n pos len)[i] = mem ((pos + i) % n) := by
  simp [window]

theorem window_congr {mem mem' : Nat → α} {n n' pos pos' len : Nat}
    (h : ∀ i < len, mem ((pos + i) % n) = mem' ((pos' + i) % n')) :
    window mem n pos len = window mem' n' pos' len := by
  refine List.map_congr_left ?_
  intro i hi
  exact h i (List.mem_range.mp hi)

/-- A window read in two parts: the second part starts where the first one stopped. -/
theorem window_add (mem : Nat → α) (n pos j k : Nat) :
    window mem n pos (j + k) = window mem n pos j ++ window mem n ((pos + j) % n) k := by
  simp [window, List.range_add, Nat.add_assoc]

/-- A window that does not reach the end of the block is a straight stretch. -/
theorem window_eq_cells (mem : Nat → α) {n pos len : Nat} (h : pos + len ≤ n) :
    window mem n pos len = cells mem pos len := by
  refine List.map_congr_left ?_
  intro i hi
  have hi : i < len := List.mem_range.mp hi
  rw [Nat.mod_eq_of_lt (by omega)]

/-- A window that passes the end is the tail of the block followed by its head. -/
theorem window_eq_append (mem : Nat → α) {n pos len : Nat} (hpos : pos < n)
    (hlen : n - pos ≤ len) (hn : len ≤ n) :
    window mem n pos len = cells mem pos (n - pos) ++ cells mem 0 (len - (n - pos)) := by
  have hsplit : len = (n - pos) + (len - (n - pos)) := by omega
  have hzero : (pos + (n - pos)) % n = 0 := by
    rw [show pos + (n - pos) = n by omega, Nat.mod_self]
  conv_lhs => rw [hsplit]
  rw [window_add, hzero, window_eq_cells mem (by omega), window_eq_cells mem (by omega)]

theorem take_window (mem : Nat → α) (n pos : Nat) {k len : Nat} (h : k ≤ len) :
    (window mem n pos len).take k = window mem n pos k := by
  obtain ⟨d, rfl⟩ := Nat.exists_eq_add_of_le h
  rw [window_add, List.take_left' (length_window mem n pos k)]

theorem drop_window (mem : Nat → α) (n pos : Nat) {k len : Nat} (h : k ≤ len) :
    (window mem n pos len).drop k = window mem n ((pos + k) % n) (len - k) := by
  obtain ⟨d, rfl⟩ := Nat.exists_eq_add_of_le h
  rw [window_add, List.drop_left' (length_window mem n pos k), Nat.add_sub_cancel_left]

/-! ## Writing a stretch -/

/-- The block after `data` was copied in at `pos`. -/
def overwrite (mem : Nat → α) (pos : Nat) (data : List α) : Nat → α := fun j =>
  if h : pos ≤ j ∧ j - pos < data.length then data[j - pos] else mem j

theorem overwrite_of_lt (mem : Nat → α) {pos j : Nat} (data : List α) (h : j < pos) :
    overwrite mem pos data j = mem j := by
  simp [overwrite, Nat.not_le.mpr h]

theorem overwrite_of_le (mem : Nat → α) {pos j : Nat} (data : List α)
    (h : pos + data.length ≤ j) : overwrite mem pos data j = mem j := by
  rw [overwrite, dif_neg (by omega)]

theorem overwrite_add (mem : Nat → α) (pos i : Nat) (data : List α) (h : i < data.length) :
    overwrite mem pos data (pos + i) = data[i] := by
  rw [overwrite, dif_pos (by omega)]
  simp

/-- What was just written is read back. -/
theorem cells_overwrite_self (mem : Nat → α) (pos : Nat) (data : List α) :
    cells (overwrite mem pos data) pos data.length = data := by
  refine List.ext_getElem (by simp) ?_
  intro i h1 h2
  rw [getElem_cells, overwrite_add mem pos i data h2]

/-- A stretch before or behind the written one is unchanged. -/
theorem cells_overwrite_of_disjoint (mem : Nat → α) {pos pos' len : Nat} (data : List α)
    (h : pos' + len ≤ pos ∨ pos + data.length ≤ pos') :
    cells (overwrite mem pos data) pos' len = cells mem pos' len := by
  refine cells_congr ?_
  intro i hi
  rcases h with h | h
  · exact overwrite_of_lt mem data (by omega)
  · exact overwrite_of_le mem data (by omega)

/-- Two stretches written one behind the other are read back as one. -/
theorem cells_overwrite_append (mem : Nat → α) (xs ys : List α) :
    cells (overwrite (overwrite mem 0 xs) xs.length ys) 0 (xs.length + ys.length) = xs ++ ys := by
  rw [cells_add, cells_overwrite_of_disjoint _ _ (Or.inl (by omega)), Nat.zero_add,
    cells_overwrite_self, cells_overwrite_self]

end Rosetta.Lib

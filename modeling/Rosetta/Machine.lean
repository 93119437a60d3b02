import Mathlib.Data.List.Basic
import Mathlib.Data.List.OfFn
import Mathlib.Data.List.TakeWhile
import Mathlib.Tactic.Linarith

/-!
# Machine words, memory and faults

What the C++ sources use of the language and its library, as far as their behaviour depends on
it.

* strings, as they are made from literals and from a `const char*`
* 64-bit unsigned arithmetic (`uint64_t`, `size_t`)
* the little-endian bytes of a `uint64_t`, as `memcpy(buf, &len, 8)` writes them
* the ways in which a call does not return a result (`Fault`)
-/

namespace Rosetta

/-- A C++ `string` or a stretch of `char`. -/
abbrev Bytes := List UInt8

instance : LawfulBEq Bytes := inferInstance

/-- Why a call does not return a result. -/
inductive Fault where
  /-- a `memcpy` or an index outside its object -/
  | outOfBounds
  /-- an unsigned subtraction that would wrap -/
  | underflow
  /-- a signed counter that would pass its largest value -/
  | overflow
  /-- `new char[]` could not allocate: `std::bad_alloc` -/
  | badAlloc
  /-- `string::resize` beyond `max_size()`: `std::length_error` -/
  | lengthError
  /-- the call sleeps on a condition variable -/
  | blocked
  deriving DecidableEq, Repr

/-- A computation that may end in a fault. -/
abbrev Exec := Except Fault

@[simp] theorem Exec.ok_bind {α β : Type} (a : α) (f : α → Exec β) :
    (Except.ok a >>= f : Exec β) = f a := rfl

@[simp] theorem Exec.error_bind {α β : Type} (e : Fault) (f : α → Exec β) :
    (Except.error e >>= f : Exec β) = Except.error e := rfl

theorem Exec.bind_eq_ok {α β : Type} {x : Exec α} {f : α → Exec β} {r : β} :
    x >>= f = .ok r ↔ ∃ a, x = .ok a ∧ f a = .ok r := by
  cases x with
  | error e => simp
  | ok a => simp

theorem Exec.toOption_eq_some {α : Type} {x : Exec α} {a : α} :
    x.toOption = some a ↔ x = .ok a := by
  cases x with
  | error e => simp [Except.toOption]
  | ok b => simp [Except.toOption]

/-! ## Strings -/

/-- A string literal of the sources. -/
def chars (s : String) : Bytes := s.toList.map fun c => UInt8.ofNat c.toNat

/-- A `string` made from a `const char*`. -/
def cString (s : Bytes) : Bytes := s.takeWhile (· ≠ 0)

theorem cString_of_not_mem {s : Bytes} (h : 0 ∉ s) : cString s = s := by
  refine List.takeWhile_eq_self_iff.mpr fun c hc => decide_eq_true ?_
  rintro rfl
  exact h hc

theorem not_mem_cString (s : Bytes) : 0 ∉ cString s := by
  intro hmem
  have hne := List.mem_takeWhile_imp hmem
  exact absurd hne (by decide)

/-! ## Unsigned 64-bit arithmetic -/

def add64 (a b : Nat) : Nat := (a + b) % 2 ^ 64

def mul64 (a b : Nat) : Nat := (a * b) % 2 ^ 64

/-- A subtraction whose result the program uses as a position or a length in memory. -/
def sub64 (a b : Nat) : Exec Nat := if b ≤ a then .ok (a - b) else .error .underflow

/-- A subtraction with the wrapped result that C++ defines. -/
def wrapSub64 (a b : Nat) : Nat := (a + (2 ^ 64 - b)) % 2 ^ 64

@[simp] theorem sub64_of_le {a b : Nat} (h : b ≤ a) : sub64 a b = .ok (a - b) := if_pos h

theorem wrapSub64_of_le {a b : Nat} (h : b ≤ a) (ha : a < 2 ^ 64) : wrapSub64 a b = a - b := by
  unfold wrapSub64
  rw [show a + (2 ^ 64 - b) = (a - b) + 2 ^ 64 by omega, Nat.add_mod_right]
  exact Nat.mod_eq_of_lt (by omega)

theorem wrapSub64_of_lt {a b : Nat} (h : a < b) (hb : b ≤ 2 ^ 64) :
    wrapSub64 a b = 2 ^ 64 - (b - a) := by
  unfold wrapSub64
  rw [Nat.mod_eq_of_lt (by omega)]
  omega

theorem mul64_of_lt {a b : Nat} (h : a * b < 2 ^ 64) : mul64 a b = a * b := Nat.mod_eq_of_lt h

theorem add64_of_lt {a b : Nat} (h : a + b < 2 ^ 64) : add64 a b = a + b := Nat.mod_eq_of_lt h

/-! ## Allocation -/

/--
The user half of the largest (57-bit) virtual address space of the 64-bit targets.
No array is larger than this: `new char[n]` throws for more.
-/
def maxAlloc : Nat := 2 ^ 56

/-- `new char[n]`, when there is room for `room` bytes. -/
def newCharIn (room n : Nat) : Exec Unit := if n ≤ room then .ok () else .error .badAlloc

/-- `new char[n]`. -/
def newChar (n : Nat) : Exec Unit := newCharIn maxAlloc n

/-- `string::max_size()`. -/
def maxString : Nat := 2 ^ 62 - 1

/-- `s.resize(n)`, when there is room for `room` bytes. -/
def resizeIn (room n : Nat) : Exec Unit :=
  if maxString < n then .error .lengthError else newCharIn room n

/-- `s.resize(n)`. -/
def resize (n : Nat) : Exec Unit := resizeIn maxAlloc n

@[simp] theorem newChar_of_le {n : Nat} (h : n ≤ maxAlloc) : newChar n = .ok () := if_pos h

theorem newChar_of_lt {n : Nat} (h : maxAlloc < n) : newChar n = .error .badAlloc :=
  if_neg (by omega)

theorem newChar_le {n : Nat} {u : Unit} (h : newChar n = .ok u) : n ≤ maxAlloc := by
  by_contra hn
  rw [newChar_of_lt (by omega)] at h
  cases h

theorem resizeIn_of_le {room n : Nat} (hroom : n ≤ room) (hstring : n ≤ maxString) :
    resizeIn room n = .ok () := by
  rw [resizeIn, if_neg (Nat.not_lt.mpr hstring), newCharIn, if_pos hroom]

theorem resizeIn_of_lt {room n : Nat} (h : maxString < n) :
    resizeIn room n = .error .lengthError := if_pos h

/-- A string that could be made is not longer than there is room for. -/
theorem le_of_resizeIn {room n : Nat} {u : Unit} (h : resizeIn room n = .ok u) :
    n ≤ room ∧ n ≤ maxString := by
  unfold resizeIn newCharIn at h
  split at h
  · cases h
  · next hstring =>
    split at h
    · next hroom => exact ⟨hroom, Nat.not_lt.mp hstring⟩
    · cases h

theorem le_maxString {n : Nat} (h : n ≤ maxAlloc) : n ≤ maxString := by
  unfold maxString maxAlloc at *
  omega

@[simp] theorem resize_of_le {n : Nat} (h : n ≤ maxAlloc) : resize n = .ok () :=
  resizeIn_of_le h (le_maxString h)

theorem resize_of_lt {n : Nat} (h : maxString < n) : resize n = .error .lengthError :=
  resizeIn_of_lt h

/-! ## The bytes of a `uint64_t` -/

/-- `memcpy(buf, &n, sizeof(uint64_t))` on a little-endian host. -/
def toBytes64 (n : Nat) : Bytes := List.ofFn fun i : Fin 8 => UInt8.ofNat (n / 256 ^ i.val)

/-- The number whose little-endian bytes these are: `*(uint64_t*)p`. -/
def ofBytes64 : Bytes → Nat
  | [] => 0
  | b :: rest => b.toNat + 256 * ofBytes64 rest

@[simp] theorem length_toBytes64 (n : Nat) : (toBytes64 n).length = 8 := by simp [toBytes64]

theorem ofBytes64_lt (b : Bytes) : ofBytes64 b < 256 ^ b.length := by
  induction b with
  | nil => exact Nat.one_pos
  | cons x b ih =>
    have hlt := x.toNat_lt
    rw [ofBytes64, List.length_cons, Nat.pow_succ]
    omega

/-- **A length that was written is read back.** -/
theorem ofBytes64_toBytes64 {n : Nat} (h : n < 2 ^ 64) : ofBytes64 (toBytes64 n) = n := by
  simp [toBytes64, ofBytes64, List.ofFn_succ]
  omega

end Rosetta

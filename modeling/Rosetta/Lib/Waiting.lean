/-!
# Condition variables

A thread that waits on a condition variable tests its predicate with the mutex locked. If it does
not hold, the thread goes to sleep and gives the mutex back in one step. A notification takes
threads out of the wait set, and a thread may also wake up without one.

* `Waiting` — where a thread is that waits
* `Heard` — a sleeper whose predicate holds has a notification coming
-/

namespace Rosetta.Lib

inductive Waiting where
  /-- at the test of the predicate -/
  | awake
  /-- in the wait set -/
  | asleep
  /-- taken out of the wait set by a notification, and not yet back at the test -/
  | notified
  deriving DecidableEq, Repr

namespace Waiting

/-- What a notification does to a thread. -/
def notify : Waiting → Waiting
  | .asleep => .notified
  | w => w

@[simp] theorem notify_ne_asleep (w : Waiting) : w.notify ≠ .asleep := by cases w <;> simp [notify]

@[simp] theorem notify_asleep : asleep.notify = notified := rfl

@[simp] theorem notify_notified : notified.notify = notified := rfl

end Waiting

/-- A notification is due while a thread sleeps whose predicate holds. -/
def Heard (asleep ready due : Prop) : Prop := asleep → ready → due

/-- **No wake-up is lost** if a thread goes to sleep only while its predicate does not hold, if what
makes the predicate hold also makes a notification due, and if the notification wakes the thread. -/
theorem Heard.step {asleep ready due asleep' ready' due' : Prop} (h : Heard asleep ready due)
    (hsleep : asleep' → asleep ∨ ¬ ready') (hready : ready' → ready ∨ due')
    (hdue : due → due' ∨ ¬ asleep') : Heard asleep' ready' due' := by
  intro hasleep' hready'
  rcases hready hready' with hr | hdue'
  · rcases hsleep hasleep' with hs | hnot
    · exact (hdue (h hs hr)).resolve_right (not_not_intro hasleep')
    · exact absurd hready' hnot
  · exact hdue'

end Rosetta.Lib

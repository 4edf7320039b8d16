import Casework.Time.Calendar

/-!
# Instants

A point of universal time with a resolution of one nanosecond.  A leap second belongs to the
second before it: its nanoseconds run from 10^9 on.

* `Instant` : seconds since 1 January 1970 and nanoseconds, ordered lexicographically;
* `Instant.latest` : the later of two instants, which is how a logical clock moves.
-/

namespace Casework

structure Instant where
  seconds : Int
  nanos : Nat
deriving DecidableEq, Repr, Inhabited

namespace Instant

/-- Whether `a` is before `b`. -/
def before (a b : Instant) : Bool :=
  a.seconds < b.seconds ∨ (a.seconds = b.seconds ∧ a.nanos < b.nanos)

instance : LT Instant := ⟨fun a b => a.before b = true⟩
instance : LE Instant := ⟨fun a b => b.before a = false⟩

instance (a b : Instant) : Decidable (a < b) := inferInstanceAs (Decidable (a.before b = true))
instance (a b : Instant) : Decidable (a ≤ b) := inferInstanceAs (Decidable (b.before a = false))

theorem lt_iff {a b : Instant} :
    a < b ↔ a.seconds < b.seconds ∨ (a.seconds = b.seconds ∧ a.nanos < b.nanos) := by
  show a.before b = true ↔ _
  simp [before]

theorem le_iff {a b : Instant} :
    a ≤ b ↔ a.seconds < b.seconds ∨ (a.seconds = b.seconds ∧ a.nanos ≤ b.nanos) := by
  show b.before a = false ↔ _
  simp only [before, decide_eq_false_iff_not]
  omega

theorem le_refl (a : Instant) : a ≤ a := by
  rw [le_iff]; omega

theorem le_trans {a b c : Instant} (hab : a ≤ b) (hbc : b ≤ c) : a ≤ c := by
  rw [le_iff] at *; omega

theorem not_lt {a b : Instant} : ¬ a < b ↔ b ≤ a := by
  rw [lt_iff, le_iff]; omega

theorem le_of_lt {a b : Instant} (h : a < b) : a ≤ b := by
  rw [lt_iff] at h; rw [le_iff]; omega

/-- The later of two instants; the first one if they are equal. -/
def latest (a b : Instant) : Instant :=
  if a < b then b else a

theorem le_latest_left (a b : Instant) : a ≤ a.latest b := by
  unfold latest; split
  · exact le_of_lt ‹_›
  · exact le_refl a

end Instant
end Casework

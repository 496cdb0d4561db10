/-
# Admission.Duration — a length of time

A duration is a whole number of nanoseconds. Its whole seconds, the nanoseconds beyond them and its
whole milliseconds are views of that one number.
-/

namespace Admission

/-- A length of time, in nanoseconds. -/
structure Duration where
  /-- The length in nanoseconds. -/
  nanoseconds : Nat
deriving DecidableEq, Repr

namespace Duration

/-- The empty duration. -/
def zero : Duration := ⟨0⟩

/-- A duration of whole seconds and some nanoseconds; a billion nanoseconds and more carry over. -/
def ofParts (seconds nanoseconds : Nat) : Duration := ⟨seconds * 1000000000 + nanoseconds⟩

/-- A duration of whole milliseconds. -/
def ofMillis (ms : Nat) : Duration := ⟨ms * 1000000⟩

/-- A duration of whole seconds. -/
def ofSeconds (seconds : Nat) : Duration := ofParts seconds 0

/-- The whole seconds. -/
def seconds (d : Duration) : Nat := d.nanoseconds / 1000000000

/-- The nanoseconds beyond the whole seconds. -/
def subsecond (d : Duration) : Nat := d.nanoseconds % 1000000000

/-- The whole milliseconds. -/
def millis (d : Duration) : Nat := d.nanoseconds / 1000000

/-- The `n`-th part, with fractions of a nanosecond dropped. -/
def split (d : Duration) (n : Nat) : Duration := ⟨d.nanoseconds / n⟩

theorem millis_ofMillis (ms : Nat) : (ofMillis ms).millis = ms :=
  Nat.mul_div_cancel ms (by decide)

theorem ofParts_seconds_subsecond (d : Duration) : ofParts d.seconds d.subsecond = d := by
  have h := Nat.div_add_mod d.nanoseconds 1000000000
  simp only [ofParts, seconds, subsecond, Nat.mul_comm] at *
  rw [h]

end Duration

end Admission

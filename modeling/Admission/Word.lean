/-
# Admission.Word — the ceiling that counts and instants share

Limits, token counts and millisecond instants are natural numbers that never pass `2 ^ 64 - 1`.
Arithmetic on them saturates: a sum beyond the ceiling stays at the ceiling, and a difference below
zero is zero, which is what subtraction on `Nat` already says.
-/

namespace Admission

namespace Word

/-- The largest count, limit or instant. -/
def last : Nat := 18446744073709551615

/-- The nearest representable number: everything beyond the ceiling becomes the ceiling. -/
def clamp (n : Nat) : Nat := min n last

/-- A sum that stays at the ceiling when it would pass it. -/
def add (a b : Nat) : Nat := clamp (a + b)

theorem clamp_le (n : Nat) : clamp n ≤ last := Nat.min_le_right n last

theorem clamp_of_le {n : Nat} (h : n ≤ last) : clamp n = n := Nat.min_eq_left h

end Word

end Admission

/-
# Admission.Duration.Scaled — a duration in an error message

A message shows a duration as a decimal number of the largest unit that fits into it at least once,
with every significant digit after the point and no zeros at the end: `1.5µs`, `999.999999ms`,
`3600.001s`. The empty duration is `0ns`.
-/
import Admission.Duration

namespace Admission.Duration

/-- The digits after the point of `rest / 10 ^ places`, without zeros at the end. -/
def fractionDigits (rest places : Nat) : List Char :=
  let digits := Nat.toDigits 10 rest
  let padded := List.replicate (places - digits.length) '0' ++ digits
  (padded.reverse.dropWhile (· = '0')).reverse

/-- The quotient of `ns` by `10 ^ places` as an exact decimal number, followed by a unit. -/
def inUnit (ns places : Nat) (unit : String) : String :=
  let scale := Nat.pow 10 places
  let digits := fractionDigits (ns % scale) places
  let point := if digits.isEmpty then "" else "." ++ String.ofList digits
  toString (ns / scale) ++ point ++ unit

/-- The duration in its largest fitting unit. -/
def scaled (d : Duration) : String :=
  let ns := d.nanoseconds
  if 1000000000 ≤ ns then inUnit ns 9 "s"
  else if 1000000 ≤ ns then inUnit ns 6 "ms"
  else if 1000 ≤ ns then inUnit ns 3 "µs"
  else inUnit ns 0 "ns"

end Admission.Duration

/-
# Admission.Text.Digits — numbers written in digits

Only the digits of ASCII count. Whole numbers may have a sign of either kind and leading zeros; they
are read as far as 64 bits reach.
-/

namespace Admission.Text

/-- The value of a hexadecimal digit of either case. -/
def hexDigit? (c : Char) : Option Nat :=
  if '0' ≤ c && c ≤ '9' then some (c.toNat - 0x30)
  else if 'A' ≤ c && c ≤ 'F' then some (c.toNat - 0x41 + 10)
  else if 'a' ≤ c && c ≤ 'f' then some (c.toNat - 0x61 + 10)
  else none

/-- The smallest and the largest number of 64 bits with a sign. -/
def integerBounds : Int × Int := (-9223372036854775808, 9223372036854775807)

/-- The number that a text of digits writes, with a sign or without, as far as 64 bits reach. -/
def integer? (text : List Char) : Option Int :=
  let (negative, digits) :=
    match text with
    | '-' :: rest => (true, rest)
    | '+' :: rest => (false, rest)
    | _ => (false, text)
  if digits.isEmpty || !digits.all Char.isDigit then none
  else
    let size : Int := Nat.ofDigitChars 10 digits 0
    let n := if negative then -size else size
    if integerBounds.1 ≤ n && n ≤ integerBounds.2 then some n else none

end Admission.Text

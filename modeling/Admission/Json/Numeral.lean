/-
# Admission.Json.Numeral — number literals before they are numbers

A number literal is kept digit by digit. Where a whole number is wanted, only a literal without
point and exponent will do, and minus zero is not one. A literal that is merely kept has to be within
the range of double precision; `Numeral.finite` decides that as a reader does that collects the
significant digits in 64 bits, drops the ones that do not fit and scales by a power of ten.
-/
import Admission.Word

namespace Admission.Json

/-- The part of a number literal after `e`. -/
structure Exponent where
  /-- Whether it has a minus sign. -/
  negative : Bool
  /-- Its digits. -/
  digits : List Char
deriving DecidableEq, Repr

/-- A number literal. -/
structure Numeral where
  /-- Whether it has a minus sign. -/
  negative : Bool
  /-- The digits before the point. -/
  whole : List Char
  /-- The digits after the point; none when there is no point. -/
  fraction : List Char
  /-- The exponent, if there is one. -/
  exponent : Option Exponent
deriving DecidableEq, Repr

namespace Numeral

/-! ## Scanning -/

/-- Whether a byte is a decimal digit. -/
def isDigit (b : UInt8) : Bool := 0x30 ≤ b && b ≤ 0x39

/-- The digits at the front, and what follows them. -/
def scanDigits (bytes : List UInt8) : List Char × List UInt8 :=
  ((bytes.takeWhile isDigit).map fun b => Char.ofNat b.toNat, bytes.dropWhile isDigit)

/-- The digits before the point: a lone zero, or digits that do not start with one. -/
def scanWhole : List UInt8 → Option (List Char × List UInt8)
  | [] => none
  | b :: rest =>
    if b = 0x30 then some (['0'], rest)
    else if isDigit b then some (scanDigits (b :: rest))
    else none

/-- The point and the digits after it, of which there has to be one; or nothing. -/
def scanFraction : List UInt8 → Option (List Char × List UInt8)
  | [] => some ([], [])
  | b :: rest =>
    if b = 0x2E then
      let (digits, rest) := scanDigits rest
      if digits.isEmpty then none else some (digits, rest)
    else some ([], b :: rest)

/-- The sign of an exponent; none counts as plus. -/
def scanSign : List UInt8 → Bool × List UInt8
  | [] => (false, [])
  | b :: rest =>
    if b = 0x2D then (true, rest)
    else if b = 0x2B then (false, rest)
    else (false, b :: rest)

/-- The exponent with its digits, of which there has to be one; or nothing. -/
def scanExponent : List UInt8 → Option (Option Exponent × List UInt8)
  | [] => some (none, [])
  | b :: rest =>
    if b = 0x65 || b = 0x45 then
      let (negative, rest) := scanSign rest
      let (digits, rest) := scanDigits rest
      if digits.isEmpty then none else some (some ⟨negative, digits⟩, rest)
    else some (none, b :: rest)

/-- Scans a number literal without its sign. -/
def scanUnsigned (negative : Bool) (bytes : List UInt8) : Option (Numeral × List UInt8) := do
  let (whole, rest) ← scanWhole bytes
  let (fraction, rest) ← scanFraction rest
  let (exponent, rest) ← scanExponent rest
  some (⟨negative, whole, fraction, exponent⟩, rest)

theorem scanDigits_length (bytes : List UInt8) :
    (scanDigits bytes).2.length ≤ bytes.length :=
  (List.dropWhile_suffix isDigit).length_le

theorem scanWhole_length {bytes rest : List UInt8} {digits : List Char}
    (h : scanWhole bytes = some (digits, rest)) : rest.length < bytes.length := by
  cases bytes with
  | nil => simp [scanWhole] at h
  | cons b tail =>
    simp only [scanWhole] at h
    split at h
    · simp only [Option.some.injEq, Prod.mk.injEq] at h
      obtain ⟨-, rfl⟩ := h
      simp
    · split at h
      · next hd =>
        simp only [Option.some.injEq, scanDigits, Prod.mk.injEq] at h
        obtain ⟨-, rfl⟩ := h
        rw [List.dropWhile_cons_of_pos hd]
        exact Nat.lt_succ_of_le (List.dropWhile_suffix isDigit).length_le
      · simp at h

theorem scanFraction_length {bytes rest : List UInt8} {digits : List Char}
    (h : scanFraction bytes = some (digits, rest)) : rest.length ≤ bytes.length := by
  cases bytes with
  | nil => simp_all [scanFraction]
  | cons b tail =>
    simp only [scanFraction] at h
    split at h
    · split at h
      · simp at h
      · simp only [Option.some.injEq, Prod.mk.injEq] at h
        obtain ⟨-, rfl⟩ := h
        exact Nat.le_succ_of_le (scanDigits_length tail)
    · simp only [Option.some.injEq, Prod.mk.injEq] at h
      obtain ⟨-, rfl⟩ := h
      exact Nat.le_refl _

theorem scanSign_length (bytes : List UInt8) : (scanSign bytes).2.length ≤ bytes.length := by
  cases bytes with
  | nil => simp [scanSign]
  | cons b tail =>
    simp only [scanSign]
    split
    · simp
    · split <;> simp

theorem scanExponent_length {bytes rest : List UInt8} {exponent : Option Exponent}
    (h : scanExponent bytes = some (exponent, rest)) : rest.length ≤ bytes.length := by
  cases bytes with
  | nil => simp_all [scanExponent]
  | cons b tail =>
    simp only [scanExponent] at h
    split at h
    · split at h
      · simp at h
      · simp only [Option.some.injEq, Prod.mk.injEq] at h
        obtain ⟨-, rfl⟩ := h
        have h₁ := scanDigits_length (scanSign tail).2
        have h₂ := scanSign_length tail
        simp only [List.length_cons]
        omega
    · simp only [Option.some.injEq, Prod.mk.injEq] at h
      obtain ⟨-, rfl⟩ := h
      exact Nat.le_refl _

theorem scanUnsigned_length {negative : Bool} {bytes rest : List UInt8} {n : Numeral}
    (h : scanUnsigned negative bytes = some (n, rest)) : rest.length < bytes.length := by
  simp only [scanUnsigned, Option.bind_eq_bind, Option.bind_eq_some_iff, Prod.exists] at h
  obtain ⟨whole, r₁, h₁, fraction, r₂, h₂, exponent, r₃, h₃, hdone⟩ := h
  simp only [Option.some.injEq, Prod.mk.injEq] at hdone
  obtain ⟨-, rfl⟩ := hdone
  have := scanWhole_length h₁
  have := scanFraction_length h₂
  have := scanExponent_length h₃
  omega

/-! ## Whole numbers -/

/-- The whole number a literal stands for, if it is written as one: no point, no exponent, and no
minus sign before zero. -/
def integer? (n : Numeral) : Option Int :=
  let size := Nat.ofDigitChars 10 n.whole 0
  if n.fraction ≠ [] || n.exponent.isSome then none
  else if !n.negative then some size
  else if size = 0 then none
  else some (-size)

/-! ## Range -/

/-- The collected digits of a literal: `significand · 10 ^ scale`. -/
structure Magnitude where
  /-- The digits that fit into 64 bits, as a number. -/
  significand : Nat
  /-- The power of ten they are to be scaled by. -/
  scale : Int

/-- Collects the digits before the point. From the first digit that does not fit, each one counts as
a factor of ten. -/
def Magnitude.addWhole (m : Magnitude) : List Char → Magnitude
  | [] => m
  | c :: rest =>
    let next := m.significand * 10 + (c.toNat - '0'.toNat)
    if Word.last < next then { m with scale := m.scale + (rest.length + 1) }
    else { m with significand := next }.addWhole rest

/-- Collects the digits after the point, up to the first one that does not fit. -/
def Magnitude.addFraction (m : Magnitude) : List Char → Magnitude
  | [] => m
  | c :: rest =>
    let next := m.significand * 10 + (c.toNat - '0'.toNat)
    if Word.last < next then m
    else Magnitude.addFraction ⟨next, m.scale - 1⟩ rest

/-- The nearest number with 53 significant bits; a tie goes to the even one. -/
def roundBits (n : Nat) : Nat :=
  let excess := n.log2 - 52
  let unit := 1 <<< excess
  let low := n / unit * unit
  if 2 * (n - low) < unit || (2 * (n - low) = unit && n / unit % 2 = 0) then low else low + unit

/-- The least number that double precision rounds to infinity. -/
def overflowBound : Nat := 1 <<< 1024 - 1 <<< 970

/-- Whether a literal is within the range of double precision. -/
def finite (n : Numeral) : Bool :=
  let m := (Magnitude.addWhole ⟨0, 0⟩ n.whole).addFraction n.fraction
  let scale :=
    match n.exponent with
    | none => m.scale
    | some e =>
      let size : Int := Nat.ofDigitChars 10 e.digits 0
      if e.negative then m.scale - size else m.scale + size
  m.significand = 0 || scale ≤ 0 ||
    (scale ≤ 308 && roundBits m.significand * roundBits (Nat.pow 10 scale.toNat) < overflowBound)

end Numeral

end Admission.Json

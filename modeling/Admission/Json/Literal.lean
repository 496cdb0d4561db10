/-
# Admission.Json.Literal — string literals before they are text

Between its quotes a string literal is a run of plain bytes and escapes. It need not be text: a
`\u` escape may be half of a surrogate pair, and the plain bytes may not be UTF-8. Values that nobody
looks at are accepted in that state, so scanning a literal (`Literal.scan`) and taking it for text
(`Literal.text?`) are two steps.
-/
import Admission.Text.Digits

namespace Admission.Json

/-- One element of a string literal. -/
inductive Piece where
  /-- A byte that stands for itself, or that a one-letter escape stands for. -/
  | byte (b : UInt8)
  /-- The 16-bit code unit of a `\u` escape. -/
  | unit (code : Nat)
deriving DecidableEq, Repr

/-- What stands between the quotes of a string literal. -/
abbrev Literal := List Piece

namespace Literal

/-! ## Scanning -/

/-- The value of a hexadecimal digit of either case. -/
def hexDigit? (b : UInt8) : Option Nat := Text.hexDigit? (Char.ofNat b.toNat)

/-- The code unit that four hexadecimal digits stand for. -/
def codeUnit? (a b c d : UInt8) : Option Nat := do
  let a ← hexDigit? a
  let b ← hexDigit? b
  let c ← hexDigit? c
  let d ← hexDigit? d
  return ((a * 16 + b) * 16 + c) * 16 + d

/-- The byte that a one-letter escape stands for. -/
def letter? (b : UInt8) : Option UInt8 :=
  if b = 0x22 || b = 0x5C || b = 0x2F then some b
  else if b = 0x62 then some 0x08
  else if b = 0x66 then some 0x0C
  else if b = 0x6E then some 0x0A
  else if b = 0x72 then some 0x0D
  else if b = 0x74 then some 0x09
  else none

/-- Scans a literal from just after its opening quote to its closing quote, and leaves what follows.
A control character has to be escaped. -/
def scan : List UInt8 → Option (Literal × List UInt8)
  | [] => none
  | b :: rest =>
    if b = 0x22 then some ([], rest)
    else if b = 0x5C then
      match rest with
      | [] => none
      | e :: rest =>
        if e = 0x75 then
          match rest with
          | h₁ :: h₂ :: h₃ :: h₄ :: rest => do
            let code ← codeUnit? h₁ h₂ h₃ h₄
            let (pieces, rest) ← scan rest
            some (.unit code :: pieces, rest)
          | _ => none
        else do
          let letter ← letter? e
          let (pieces, rest) ← scan rest
          some (.byte letter :: pieces, rest)
    else if b < 0x20 then none
    else do
      let (pieces, rest) ← scan rest
      some (.byte b :: pieces, rest)

/-- Scanning consumes at least the closing quote. -/
theorem scan_length {bytes : List UInt8} {pieces : Literal} {rest : List UInt8}
    (h : scan bytes = some (pieces, rest)) : rest.length < bytes.length := by
  fun_induction scan bytes generalizing pieces rest with
  | case1 => simp at h
  | case2 => simp_all
  | case3 => simp at h
  | case4 h₁ h₂ h₃ h₄ tail hq ih =>
    simp only [Option.bind_eq_bind, Option.bind_eq_some_iff] at h
    obtain ⟨code, -, ⟨inner, left⟩, hscan, hdone⟩ := h
    simp only [Option.some.injEq, Prod.mk.injEq] at hdone
    obtain ⟨-, rfl⟩ := hdone
    have := ih hscan
    simp only [List.length_cons]
    omega
  | case5 => simp at h
  | case6 e tail he hq ih =>
    simp only [Option.bind_eq_bind, Option.bind_eq_some_iff] at h
    obtain ⟨letter, -, ⟨inner, left⟩, hscan, hdone⟩ := h
    simp only [Option.some.injEq, Prod.mk.injEq] at hdone
    obtain ⟨-, rfl⟩ := hdone
    have := ih hscan
    simp only [List.length_cons]
    omega
  | case7 => simp at h
  | case8 b tail hq hb hc ih =>
    simp only [Option.bind_eq_bind, Option.bind_eq_some_iff] at h
    obtain ⟨⟨inner, left⟩, hscan, hdone⟩ := h
    simp only [Option.some.injEq, Prod.mk.injEq] at hdone
    obtain ⟨-, rfl⟩ := hdone
    have := ih hscan
    simp only [List.length_cons]
    omega

/-! ## From literal to text -/

/-- Whether a code unit opens a surrogate pair. -/
def isHigh (code : Nat) : Bool := 0xD800 ≤ code && code ≤ 0xDBFF

/-- Whether a code unit closes a surrogate pair. -/
def isLow (code : Nat) : Bool := 0xDC00 ≤ code && code ≤ 0xDFFF

/-- The code point of a surrogate pair. -/
def pair (high low : Nat) : Nat := 0x10000 + (high - 0xD800) * 0x400 + (low - 0xDC00)

/-- The bytes of a literal; a surrogate on its own has none. -/
def bytes? : Literal → Option (List UInt8)
  | [] => some []
  | .byte b :: rest => return b :: (← bytes? rest)
  | .unit code :: rest =>
    if isHigh code then
      match rest with
      | .unit low :: rest =>
        if isLow low then
          return String.utf8EncodeChar (Char.ofNat (pair code low)) ++ (← bytes? rest)
        else none
      | _ => none
    else if isLow code then none
    else return String.utf8EncodeChar (Char.ofNat code) ++ (← bytes? rest)

/-- The text of a literal, if it is text. -/
def text? (literal : Literal) : Option String := do
  String.fromUTF8? (← literal.bytes?).toByteArray

end Literal

end Admission.Json

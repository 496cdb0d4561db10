/-
# Admission.Json.Token — a JSON text as a sequence of tokens

`Token.lex` cuts a sequence of bytes into tokens: the six marks, the three words, number literals and
string literals. White space between tokens is dropped. Whether the tokens form a value is decided
afterwards, so that no depth of nesting is a matter for the lexer.
-/
import Admission.Json.Literal
import Admission.Json.Numeral

namespace Admission.Json

/-- A token of a JSON text. -/
inductive Token where
  /-- An opening brace. -/
  | openBrace
  /-- A closing brace. -/
  | closeBrace
  /-- An opening bracket. -/
  | openBracket
  /-- A closing bracket. -/
  | closeBracket
  /-- A comma. -/
  | comma
  /-- A colon. -/
  | colon
  /-- The word for no value. -/
  | null
  /-- One of the two truth values. -/
  | bool (value : Bool)
  /-- A number literal. -/
  | number (numeral : Numeral)
  /-- A string literal. -/
  | string (literal : Literal)
deriving DecidableEq, Repr

namespace Token

/-- White space between tokens: space, tab, line feed and carriage return. -/
def isSpace (b : UInt8) : Bool := b = 0x20 || b = 0x09 || b = 0x0A || b = 0x0D

/-- The mark a byte stands for. -/
def mark? (b : UInt8) : Option Token :=
  if b = 0x7B then some .openBrace
  else if b = 0x7D then some .closeBrace
  else if b = 0x5B then some .openBracket
  else if b = 0x5D then some .closeBracket
  else if b = 0x2C then some .comma
  else if b = 0x3A then some .colon
  else none

/-- What follows `word` at the front of the bytes. -/
def after? (word bytes : List UInt8) : Option (List UInt8) :=
  if word.isPrefixOf bytes then some (bytes.drop word.length) else none

/-- The token that starts with the byte `b`, and what follows it. -/
def next (b : UInt8) (rest : List UInt8) : Option (Token × List UInt8) :=
  match mark? b with
  | some mark => some (mark, rest)
  | none =>
    if b = 0x22 then do
      let (literal, rest) ← Literal.scan rest
      some (.string literal, rest)
    else if b = 0x2D then do
      let (numeral, rest) ← Numeral.scanUnsigned true rest
      some (.number numeral, rest)
    else if Numeral.isDigit b then do
      let (numeral, rest) ← Numeral.scanUnsigned false (b :: rest)
      some (.number numeral, rest)
    else if b = 0x6E then
      return (.null, ← after? [0x75, 0x6C, 0x6C] rest)
    else if b = 0x74 then
      return (.bool true, ← after? [0x72, 0x75, 0x65] rest)
    else if b = 0x66 then
      return (.bool false, ← after? [0x61, 0x6C, 0x73, 0x65] rest)
    else none

theorem after?_length {word bytes rest : List UInt8} (h : after? word bytes = some rest) :
    rest.length ≤ bytes.length := by
  simp only [after?] at h
  split at h
  · simp only [Option.some.injEq] at h
    subst h
    simp only [List.length_drop]
    omega
  · simp at h

/-- A token consumes its first byte, and leaves no more than what followed it. -/
theorem next_length {b : UInt8} {bytes rest : List UInt8} {token : Token}
    (h : next b bytes = some (token, rest)) : rest.length ≤ bytes.length := by
  simp only [next] at h
  split at h
  · simp only [Option.some.injEq, Prod.mk.injEq] at h
    obtain ⟨-, rfl⟩ := h
    exact Nat.le_refl _
  · split at h
    · simp only [Option.bind_eq_bind, Option.bind_eq_some_iff, Prod.exists] at h
      obtain ⟨literal, left, hscan, hdone⟩ := h
      simp only [Option.some.injEq, Prod.mk.injEq] at hdone
      obtain ⟨-, rfl⟩ := hdone
      exact Nat.le_of_lt (Literal.scan_length hscan)
    · split at h
      · simp only [Option.bind_eq_bind, Option.bind_eq_some_iff, Prod.exists] at h
        obtain ⟨numeral, left, hscan, hdone⟩ := h
        simp only [Option.some.injEq, Prod.mk.injEq] at hdone
        obtain ⟨-, rfl⟩ := hdone
        exact Nat.le_of_lt (Numeral.scanUnsigned_length hscan)
      · split at h
        · simp only [Option.bind_eq_bind, Option.bind_eq_some_iff, Prod.exists] at h
          obtain ⟨numeral, left, hscan, hdone⟩ := h
          simp only [Option.some.injEq, Prod.mk.injEq] at hdone
          obtain ⟨-, rfl⟩ := hdone
          exact Nat.le_of_lt_succ (Numeral.scanUnsigned_length hscan)
        · split at h
          · simp only [Option.bind_eq_bind, Option.bind_eq_some_iff] at h
            obtain ⟨left, hword, hdone⟩ := h
            simp only [Option.pure_def, Option.some.injEq, Prod.mk.injEq] at hdone
            obtain ⟨-, rfl⟩ := hdone
            exact after?_length hword
          · split at h
            · simp only [Option.bind_eq_bind, Option.bind_eq_some_iff] at h
              obtain ⟨left, hword, hdone⟩ := h
              simp only [Option.pure_def, Option.some.injEq, Prod.mk.injEq] at hdone
              obtain ⟨-, rfl⟩ := hdone
              exact after?_length hword
            · split at h
              · simp only [Option.bind_eq_bind, Option.bind_eq_some_iff] at h
                obtain ⟨left, hword, hdone⟩ := h
                simp only [Option.pure_def, Option.some.injEq, Prod.mk.injEq] at hdone
                obtain ⟨-, rfl⟩ := hdone
                exact after?_length hword
              · simp at h

/-- The tokens of a sequence of bytes. -/
def lex (bytes : List UInt8) : Option (List Token) :=
  match bytes with
  | [] => some []
  | b :: rest =>
    if isSpace b then lex rest
    else
      match _h : next b rest with
      | none => none
      | some (token, left) => return token :: (← lex left)
termination_by bytes.length
decreasing_by
  · simp
  · have := next_length _h
    simp only [List.length_cons]
    omega

end Token

end Admission.Json

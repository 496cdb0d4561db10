/-
# Admission.Duration.Text — durations as people write them

A duration is written as groups of a whole number and a unit, one after the other: `250ms`, `1h30m`.
The units are `ms`, `s`, `m`, `h` and `d`, in any order and as often as wanted; the groups add up. A
bare `0` is the empty duration, and white space around the text does not count.

`parse` reads such a text and says what is wrong with one that is not. `format` writes a duration
with hours, minutes, seconds and milliseconds, leaving out parts that are zero.
-/
import Admission.Duration
import Admission.Text.Quoted
import Admission.Word

namespace Admission.Duration

/-! ## Units -/

/-- Milliseconds in one unit, by the unit's name. -/
def unitMillis : List Char → Option Nat
  | ['m', 's'] => some 1
  | ['s'] => some 1000
  | ['m'] => some 60000
  | ['h'] => some 3600000
  | ['d'] => some 86400000
  | _ => none

/-! ## What can be wrong -/

/-- What is wrong with a duration text. -/
inductive Flaw where
  /-- A group does not start with a digit. -/
  | numberExpected
  /-- A number is beyond 128 bits. -/
  | numberTooLarge
  /-- The text ends after a number. -/
  | unitMissing
  /-- What follows a number is not the name of a unit. -/
  | unitUnknown
  /-- The groups add up to more than an instant can hold. -/
  | overflow
deriving DecidableEq, Repr

/-- The flaw in words. -/
def Flaw.words : Flaw → String
  | .numberExpected => "expected a number"
  | .numberTooLarge => "number out of range"
  | .unitMissing => "missing unit"
  | .unitUnknown => "unknown unit"
  | .overflow => "duration overflows"

/-- A text that is not a duration. -/
inductive Malformed where
  /-- There is nothing but white space. -/
  | empty
  /-- The groups are flawed; the text is kept as it was given. -/
  | flawed (flaw : Flaw) (input : String)
deriving DecidableEq, Repr

/-- The complaint in words. -/
def Malformed.message : Malformed → String
  | .empty => "empty duration"
  | .flawed flaw input => flaw.words ++ " in " ++ Text.quoted input

/-! ## Reading -/

/-- The largest number a group may hold, and the largest sum on the way to the total. -/
def widest : Nat := 1 <<< 128 - 1

/-- Adds the groups of a text to `total` milliseconds, from the left. -/
def addGroups (total : Nat) (cs : List Char) : Except Flaw Nat :=
  match cs with
  | [] => .ok total
  | c :: rest =>
    if c.isDigit then
      let amount := Nat.ofDigitChars 10 (c :: rest.takeWhile Char.isDigit) 0
      let tail := rest.dropWhile Char.isDigit
      if widest < amount then .error .numberTooLarge
      else
        match unitMillis (tail.takeWhile (!·.isDigit)) with
        | none => .error (if tail.isEmpty then .unitMissing else .unitUnknown)
        | some scale =>
          if widest < total + amount * scale then .error .overflow
          else addGroups (total + amount * scale) (tail.dropWhile (!·.isDigit))
    else .error .numberExpected
termination_by cs.length
decreasing_by
  have h₁ := (List.dropWhile_suffix Char.isDigit (l := rest)).length_le
  have h₂ := (List.dropWhile_suffix (!·.isDigit) (l := rest.dropWhile Char.isDigit)).length_le
  simp only [List.length_cons]
  omega

/-- The whole milliseconds that a trimmed, non-empty text stands for. -/
def readMillis (cs : List Char) : Except Flaw Nat := do
  let total ← addGroups 0 cs
  if Word.last < total then .error .overflow else .ok total

/-- Reads a duration. -/
def parse (input : String) : Except Malformed Duration :=
  let cs := Text.trim input.toList
  if cs = [] then .error .empty
  else if cs = ['0'] then .ok .zero
  else
    match readMillis cs with
    | .ok ms => .ok (ofMillis ms)
    | .error flaw => .error (.flawed flaw input)

/-! ## Writing -/

/-- A number and its unit, or nothing when the number is zero. -/
def part (amount : Nat) (unit : String) : String :=
  if amount = 0 then "" else toString amount ++ unit

/-- The text of a number of milliseconds. -/
def formatMillis (ms : Nat) : String :=
  if ms = 0 then "0s"
  else
    part (ms / 3600000) "h" ++ part (ms % 3600000 / 60000) "m" ++
      part (ms % 60000 / 1000) "s" ++ part (ms % 1000) "ms"

/-- Writes a duration; what is shorter than a millisecond is dropped. -/
def format (d : Duration) : String := formatMillis d.millis

end Admission.Duration

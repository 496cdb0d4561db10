/-
# Admission.Json.Value — values, and the text they are written as

A value is written without white space, its members in order. Of a string, only what has to be
escaped is: the quote, the backslash and the control characters, which have a letter or are written
with two hexadecimal digits.
-/

namespace Admission.Json

/-- A value to be written. -/
inductive Value where
  /-- A truth value. -/
  | bool (value : Bool)
  /-- A count, limit or instant. -/
  | number (n : Nat)
  /-- A text. -/
  | text (s : String)
  /-- An array. -/
  | array (items : List Value)
  /-- An object. -/
  | object (members : List (String × Value))

namespace Value

/-- How one character is written inside a string. -/
def escape (c : Char) : List Char :=
  if c = '"' then ['\\', '"']
  else if c = '\\' then ['\\', '\\']
  else if c = '\x08' then ['\\', 'b']
  else if c = '\x0c' then ['\\', 'f']
  else if c = '\n' then ['\\', 'n']
  else if c = '\r' then ['\\', 'r']
  else if c = '\t' then ['\\', 't']
  else if c.toNat < 0x20 then
    ['\\', 'u', '0', '0', Nat.digitChar (c.toNat / 16), Nat.digitChar (c.toNat % 16)]
  else [c]

/-- A text as a string. -/
def string (s : String) : String := String.ofList ('"' :: s.toList.flatMap escape ++ ['"'])

mutual

/-- The text of a value. -/
def render : Value → String
  | .bool true => "true"
  | .bool false => "false"
  | .number n => toString n
  | .text s => string s
  | .array items => "[" ++ renderItems items ++ "]"
  | .object members => "\x7b" ++ renderMembers members ++ "\x7d"

/-- The items of an array, with commas between them. -/
def renderItems : List Value → String
  | [] => ""
  | [item] => render item
  | item :: rest => render item ++ "," ++ renderItems rest

/-- The members of an object, with commas between them. -/
def renderMembers : List (String × Value) → String
  | [] => ""
  | [(name, value)] => string name ++ ":" ++ render value
  | (name, value) :: rest => string name ++ ":" ++ render value ++ "," ++ renderMembers rest

end

/-- The members of an object, some of which may be left out. -/
def members (all : List (Option (String × Value))) : Value := .object (all.filterMap id)

end Value

end Admission.Json

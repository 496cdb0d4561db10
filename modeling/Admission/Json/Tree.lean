/-
# Admission.Json.Tree — a JSON text as a tree

`Tree.parse` reads bytes into a tree whose leaves are still literals. Building the tree needs no
recursion: the containers that are still open wait on a stack, and each token either opens a
container, ends a value or moves on inside the innermost container. So any depth of nesting can be
read.

A reader that does not look at a value accepts the tree as it is. A reader that keeps a value for
later demands more of it: `Tree.kept`.
-/
import Admission.Json.Token

namespace Admission.Json

/-- A JSON value with its literals as they were written. -/
inductive Tree where
  /-- No value. -/
  | null
  /-- A truth value. -/
  | bool (value : Bool)
  /-- A number. -/
  | number (numeral : Numeral)
  /-- A string. -/
  | string (literal : Literal)
  /-- An array. -/
  | array (items : List Tree)
  /-- An object: its members in the order they were written, repetitions included. -/
  | object (members : List (Literal × Tree))

namespace Tree

/-! ## Building a tree from tokens -/

/-- A container that is still open. What it holds so far is in reverse order. -/
inductive Frame where
  /-- An array. -/
  | items (done : List Tree)
  /-- An object between two members. -/
  | members (done : List (Literal × Tree))
  /-- An object whose last member has a name and no value yet. -/
  | member (done : List (Literal × Tree)) (name : Literal)

/-- What may come next. -/
inductive Awaiting where
  /-- A value. -/
  | value
  /-- The first item of an array, or its end. -/
  | itemOrEnd
  /-- The name of a member. -/
  | name
  /-- The name of the first member of an object, or its end. -/
  | nameOrEnd
  /-- The colon after a name. -/
  | colon (name : Literal)
  /-- After a value inside a container: a comma, or the container's end. -/
  | more
  /-- Nothing: the value is complete. -/
  | nothing (value : Tree)

/-- A text read so far: what may come next, and the open containers, innermost first. -/
structure Reading where
  /-- What may come next. -/
  awaiting : Awaiting
  /-- The open containers. -/
  stack : List Frame

/-- A value is complete and takes its place in the innermost container. -/
def finish (value : Tree) : List Frame → Option Reading
  | [] => some ⟨.nothing value, []⟩
  | .items done :: stack => some ⟨.more, .items (value :: done) :: stack⟩
  | .member done name :: stack => some ⟨.more, .members ((name, value) :: done) :: stack⟩
  | .members _ :: _ => none

/-- A token at a place where a value may start. -/
def start (token : Token) (stack : List Frame) : Option Reading :=
  match token with
  | .null => finish .null stack
  | .bool b => finish (.bool b) stack
  | .number n => finish (.number n) stack
  | .string s => finish (.string s) stack
  | .openBracket => some ⟨.itemOrEnd, .items [] :: stack⟩
  | .openBrace => some ⟨.nameOrEnd, .members [] :: stack⟩
  | _ => none

/-- The innermost container ends. -/
def close (token : Token) (stack : List Frame) : Option Reading :=
  match token, stack with
  | .closeBracket, .items done :: stack => finish (.array done.reverse) stack
  | .closeBrace, .members done :: stack => finish (.object done.reverse) stack
  | _, _ => none

/-- The innermost container goes on after a comma. -/
def proceed : List Frame → Option Reading
  | .items done :: stack => some ⟨.value, .items done :: stack⟩
  | .members done :: stack => some ⟨.name, .members done :: stack⟩
  | _ => none

/-- One token further. -/
def Reading.step (reading : Reading) (token : Token) : Option Reading :=
  let stack := reading.stack
  match reading.awaiting, token with
  | .value, token => start token stack
  | .itemOrEnd, .closeBracket => close .closeBracket stack
  | .itemOrEnd, token => start token stack
  | .name, .string name => some ⟨.colon name, stack⟩
  | .nameOrEnd, .string name => some ⟨.colon name, stack⟩
  | .nameOrEnd, .closeBrace => close .closeBrace stack
  | .colon name, .colon =>
    match stack with
    | .members done :: stack => some ⟨.value, .member done name :: stack⟩
    | _ => none
  | .more, .comma => proceed stack
  | .more, token => close token stack
  | _, _ => none

/-- The value that a sequence of tokens spells. -/
def ofTokens (tokens : List Token) : Option Tree :=
  match tokens.foldlM Reading.step ⟨.value, []⟩ with
  | some ⟨.nothing value, _⟩ => some value
  | _ => none

/-- Reads bytes that hold one value and nothing else. -/
def parse (bytes : ByteArray) : Option Tree := do
  ofTokens (← Token.lex bytes.data.toList)

/-! ## Values that are kept -/

/-- Whether a value can be kept: its strings are text, its numbers are within the range of double
precision, and it has at most `levels` levels of containers. -/
def kept : Nat → Tree → Bool
  | _, .null => true
  | _, .bool _ => true
  | _, .number n => n.finite
  | _, .string s => s.text?.isSome
  | 0, .array _ => false
  | 0, .object _ => false
  | levels + 1, .array items => items.all (kept levels)
  | levels + 1, .object members => members.all fun m => m.1.text?.isSome && kept levels m.2

end Tree

end Admission.Json

/-
# Admission.Json.Field — records, and the values of their fields

A record is written as an object with its fields by name, or as an array with its fields in order.
In an object, a field must not be given twice; other members are ignored, unless the record is
closed. An array may leave out fields at the end and must not have more. `Tree.fields?` sorts out
both; what a missing field means is up to the field (`Field.required`, `Field.optional`,
`Field.withDefault`).
-/
import Admission.Json.Tree

namespace Admission.Json

namespace Tree

/-! ## Plain values -/

/-- The text of a string. -/
def text? : Tree → Option String
  | .string literal => literal.text?
  | _ => none

/-- A truth value. -/
def truth? : Tree → Option Bool
  | .bool value => some value
  | _ => none

/-- A whole number from `least` to `greatest`. -/
def integer? (least greatest : Int) : Tree → Option Int
  | .number numeral => do
    let n ← numeral.integer?
    if least ≤ n && n ≤ greatest then some n else none
  | _ => none

/-- A whole number from zero to `greatest`. -/
def natural? (greatest : Nat) (t : Tree) : Option Nat :=
  (t.integer? 0 greatest).map Int.toNat

/-- A count, limit or instant. -/
def count? (t : Tree) : Option Nat := t.natural? Word.last

/-- The items of an array, each read by `read`. -/
def list? {α : Type} (read : Tree → Option α) : Tree → Option (List α)
  | .array items => items.mapM read
  | _ => none

/-- One of several names: a string, or an object with the name as its only member and no value. -/
def choice? : Tree → Option String
  | .string literal => literal.text?
  | .object [(name, .null)] => name.text?
  | _ => none

/-! ## Records -/

/-- The members of an object under their names. -/
def members? : Tree → Option (List (String × Tree))
  | .object members => members.mapM fun m => return (← m.1.text?, m.2)
  | _ => none

/-- The member of a name, `none` if there is none; nothing at all if there are several. -/
def member? (members : List (String × Tree)) (name : String) : Option (Option Tree) :=
  match members.filter (·.1 = name) with
  | [] => some none
  | [m] => some (some m.2)
  | _ => none

/-- The fields `names` of a record, in that order, each with its value if it has one. A closed record
has no other members. -/
def fields? (names : List String) (closed : Bool) : Tree → Option (List (Option Tree))
  | .array items =>
    if items.length ≤ names.length then
      some (items.map some ++ List.replicate (names.length - items.length) none)
    else none
  | t => do
    let members ← t.members?
    if closed && members.any (fun m => !names.contains m.1) then none
    else names.mapM (member? members)

/-- The greatest number of levels of containers in a value that is kept. -/
def maxLevels : Nat := 127

/-- A record whose kind is given by a member called `tag`, or by the first item of an array, and the
record without it. Everything but the kind is kept until the kind is known. -/
def tagged? (tag : String) (t : Tree) : Option (String × Tree) :=
  match t with
  | .array (kind :: items) => do
    let kind ← kind.text?
    if items.all (kept (maxLevels - 1)) then some (kind, .array items) else none
  | .object members => do
    let named ← t.members?
    let kind ← (← member? named tag).bind text?
    let others := members.filter fun m => m.1.text? ≠ some tag
    if others.all (fun m => kept (maxLevels - 1) m.2) then some (kind, .object others) else none
  | _ => none

end Tree

namespace Field

variable {α : Type}

/-- A field that has to be there. -/
def required (read : Tree → Option α) : Option Tree → Option α
  | none => none
  | some t => read t

/-- A field that may be missing or have no value. -/
def optional (read : Tree → Option α) : Option Tree → Option (Option α)
  | none => some none
  | some .null => some none
  | some t => (read t).map some

/-- A field that keeps its default when it is missing. -/
def withDefault (default : α) (read : Tree → Option α) : Option Tree → Option α
  | none => some default
  | some t => read t

end Field

end Admission.Json

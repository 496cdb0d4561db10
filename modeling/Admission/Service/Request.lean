/-
# Admission.Service.Request — what clients ask and get

A request names a caller key; the algorithm, the limit and the window may be left out. A response
says whether the request may proceed, how many are left, when the state of the key lapses (in whole
seconds), and why a denied request was denied. Both are written in JSON without the parts they do not
have.
-/
import Admission.Failure
import Admission.Json.Field
import Admission.Json.Value

namespace Admission

/-- A question whether a caller may proceed. -/
structure Request where
  /-- The caller key. -/
  key : String
  /-- The name of the algorithm to use. -/
  algorithm : Option String
  /-- The limit to apply. -/
  limit : Option Nat
  /-- The window to apply, as a duration text. -/
  window : Option String
deriving DecidableEq, Repr

namespace Request

/-- A request that leaves everything out. -/
def plain (key : String) : Request := ⟨key, none, none, none⟩

/-- A request as it is written in JSON. -/
def toJson (r : Request) : Json.Value :=
  .members [some ("key", .text r.key),
    r.algorithm.map fun name => ("algorithm", .text name),
    r.limit.map fun n => ("limit", .number n),
    r.window.map fun text => ("window", .text text)]

/-- Reads a request from JSON. -/
def ofJson? (t : Json.Tree) : Option Request := do
  let [key, algorithm, limit, window] ←
    t.fields? ["key", "algorithm", "limit", "window"] false | none
  return ⟨← Json.Field.required Json.Tree.text? key, ← Json.Field.optional Json.Tree.text? algorithm,
    ← Json.Field.optional Json.Tree.count? limit, ← Json.Field.optional Json.Tree.text? window⟩

/-- Reads the body of a request. -/
def read (body : ByteArray) : Except Failure Request :=
  match (Json.Tree.parse body).bind ofJson? with
  | some r => .ok r
  | none => .error (.invalidRequest "the body is not a request")

end Request

/-- The answer to a question whether a caller may proceed. -/
structure Response where
  /-- Whether the caller may proceed. -/
  allowed : Bool
  /-- The requests left. -/
  remaining : Option Nat
  /-- When the state of the key lapses, in seconds. -/
  resetAt : Option Nat
  /-- Why the caller may not proceed. -/
  message : Option String
deriving DecidableEq, Repr

namespace Response

/-- The HTTP status of a response. -/
def status (r : Response) : Nat := if r.allowed then 200 else 429

/-- A response as it is written in JSON. -/
def toJson (r : Response) : Json.Value :=
  .members [some ("allowed", .bool r.allowed),
    r.remaining.map fun n => ("remaining", .number n),
    r.resetAt.map fun n => ("reset_at", .number n),
    r.message.map fun text => ("message", .text text)]

/-- Reads a response from JSON. -/
def ofJson? (t : Json.Tree) : Option Response := do
  let [allowed, remaining, resetAt, message] ←
    t.fields? ["allowed", "remaining", "reset_at", "message"] false | none
  return ⟨← Json.Field.required Json.Tree.truth? allowed,
    ← Json.Field.optional Json.Tree.count? remaining, ← Json.Field.optional Json.Tree.count? resetAt,
    ← Json.Field.optional Json.Tree.text? message⟩

end Response

end Admission

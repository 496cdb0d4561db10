/-
# Admission.Denial — the report of a denied request

Every denied request can be reported to somebody outside. The report names the caller key, the
algorithm, the limit and the window that were in force, and the instant.
-/
import Admission.Duration.Text
import Admission.Json.Field
import Admission.Json.Value

namespace Admission

/-- The words that explain a denial. -/
def deniedMessage : String := "Rate limit exceeded"

/-- The report of a denied request. -/
structure Denial where
  /-- The kind of report. -/
  kind : String
  /-- The caller key. -/
  key : String
  /-- The name of the algorithm that denied. -/
  algorithm : String
  /-- The limit in force. -/
  limit : Nat
  /-- The window in force, as a duration text. -/
  window : String
  /-- The instant of the denial, in milliseconds. -/
  timestamp : Nat
  /-- The explanation. -/
  message : String
deriving DecidableEq, Repr

namespace Denial

/-- The report that a limit was exceeded. -/
def limitExceeded (key algorithm : String) (limit : Nat) (window : Duration) (timestamp : Nat) :
    Denial where
  kind := "limit_exceeded"
  key := key
  algorithm := algorithm
  limit := limit
  window := window.format
  timestamp := timestamp
  message := deniedMessage

/-- A report as it is written in JSON. -/
def toJson (d : Denial) : Json.Value :=
  .object [("type", .text d.kind), ("key", .text d.key), ("algorithm", .text d.algorithm),
    ("limit", .number d.limit), ("window", .text d.window), ("timestamp", .number d.timestamp),
    ("message", .text d.message)]

/-- Reads a report from JSON. -/
def ofJson? (t : Json.Tree) : Option Denial := do
  let [kind, key, algorithm, limit, window, timestamp, message] ←
    t.fields? ["type", "key", "algorithm", "limit", "window", "timestamp", "message"] false | none
  let text := Json.Field.required Json.Tree.text?
  let count := Json.Field.required Json.Tree.count?
  return ⟨← text kind, ← text key, ← text algorithm, ← count limit, ← text window,
    ← count timestamp, ← text message⟩

end Denial

end Admission

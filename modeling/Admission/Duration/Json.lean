/-
# Admission.Duration.Json — durations in settings

Settings hold durations as texts.
-/
import Admission.Duration.Text
import Admission.Json.Field
import Admission.Json.Value

namespace Admission.Duration

/-- A duration as it is written in settings. -/
def toJson (d : Duration) : Json.Value := .text d.format

/-- Reads a duration from settings. -/
def ofJson? (t : Json.Tree) : Option Duration := do (parse (← t.text?)).toOption

end Admission.Duration

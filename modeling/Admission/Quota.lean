/-
# Admission.Quota — how many requests in how much time

A quota allows `limit` requests per `window`. Windows count in whole milliseconds, so a usable window
has at least one, and a usable limit is at least one: `Quota.Valid`. `Quota.make` refuses everything
else. A quota that was read from JSON has not been checked, and the operations that divide by its
limit or its window say so in their type.
-/
import Admission.Failure
import Admission.Json.Field
import Admission.Json.Value

namespace Admission

/-- A number of requests per length of time. -/
structure Quota where
  /-- The number of requests. -/
  limit : Nat
  /-- The length of time. -/
  window : Duration
deriving DecidableEq, Repr

namespace Quota

/-! ## Making quotas -/

/-- The window in whole milliseconds, up to the ceiling. -/
def windowMs (q : Quota) : Nat := Word.clamp q.window.millis

/-- A quota that the arithmetic works on. -/
def Valid (q : Quota) : Prop := 0 < q.limit ∧ q.limit ≤ Word.last ∧ 0 < q.windowMs

/-- A checked quota. The limit is looked at first. -/
def make (limit : Nat) (window : Duration) : Except ConfigFailure Quota :=
  if limit = 0 then .error (.invalidLimit limit)
  else if window.millis = 0 then .error (.invalidWindow window)
  else .ok ⟨limit, window⟩

/-- A quota per second. -/
def perSecond (limit : Nat) : Except ConfigFailure Quota := make limit (.ofSeconds 1)

/-- A quota per minute. -/
def perMinute (limit : Nat) : Except ConfigFailure Quota := make limit (.ofSeconds 60)

/-- A quota per hour. -/
def perHour (limit : Nat) : Except ConfigFailure Quota := make limit (.ofSeconds 3600)

/-- The quota used when none is given: a hundred requests per minute. -/
def default : Quota := ⟨100, .ofSeconds 60⟩

/-! ## Rates -/

/-- The whole tokens earned in `elapsed` milliseconds. A part of a token is never rounded up. There
is no answer for a window below a millisecond. -/
def tokensFor? (q : Quota) (elapsed : Nat) : Option Nat :=
  if q.windowMs = 0 then none else some (Word.clamp (elapsed * q.limit / q.windowMs))

/-- The largest number of parts a window is divided into. -/
def maxParts : Nat := 1 <<< 32 - 1

/-- The time in which one token is earned, in whole nanoseconds. -/
def refillInterval? (q : Quota) : Option Duration :=
  if q.limit = 0 then none else some (q.window.split (min q.limit maxParts))

/-- The tokens earned per second, in double precision. -/
def refillRate (q : Quota) : Float :=
  let seconds := q.window.seconds.toUInt64.toFloat
  let fraction := q.window.subsecond.toUInt64.toFloat / 1000000000.0
  q.limit.toUInt64.toFloat / (seconds + fraction)

/-- The milliseconds until a bucket with no tokens has one: a part of a millisecond counts as a
whole one. There is no answer for a limit of zero. -/
def tokenPeriod? (q : Quota) : Option Nat :=
  if q.limit = 0 then none else some (max ((q.windowMs + q.limit - 1) / q.limit) 1)

/-! ## JSON -/

/-- A window as it is written in JSON: seconds and nanoseconds. -/
def windowToJson (d : Duration) : Json.Value :=
  .object [("secs", .number d.seconds), ("nanos", .number d.subsecond)]

/-- A quota as it is written in JSON. -/
def toJson (q : Quota) : Json.Value :=
  .object [("limit", .number q.limit), ("window", windowToJson q.window)]

/-- Reads a window. A billion nanoseconds and more carry over into the seconds, which must not pass
the ceiling. -/
def windowOfJson? (t : Json.Tree) : Option Duration := do
  let [seconds, nanoseconds] ← t.fields? ["secs", "nanos"] true | none
  let seconds ← Json.Field.required Json.Tree.count? seconds
  let nanoseconds ← Json.Field.required (·.natural? (1 <<< 32 - 1)) nanoseconds
  let window := Duration.ofParts seconds nanoseconds
  if Word.last < window.seconds then none else some window

/-- Reads a quota, without checking it. -/
def ofJson? (t : Json.Tree) : Option Quota := do
  let [limit, window] ← t.fields? ["limit", "window"] false | none
  return ⟨← Json.Field.required Json.Tree.count? limit, ← Json.Field.required windowOfJson? window⟩

/-! ## Text -/

/-- The quota in words. -/
def describe (q : Quota) : String :=
  "Quota \x7b limit: " ++ toString q.limit ++ ", window: " ++ q.window.scaled ++ " \x7d"

theorem windowMs_le (q : Quota) : q.windowMs ≤ Word.last := Word.clamp_le _

/-! ## Rates of a quota that the arithmetic works on -/

theorem tokensFor?_of_pos {q : Quota} (window : 0 < q.windowMs) (elapsed : Nat) :
    q.tokensFor? elapsed = some (Word.clamp (elapsed * q.limit / q.windowMs)) :=
  if_neg (Nat.ne_of_gt window)

theorem refillInterval?_of_pos {q : Quota} (limit : 0 < q.limit) :
    q.refillInterval? = some (q.window.split (min q.limit maxParts)) :=
  if_neg (Nat.ne_of_gt limit)

theorem tokenPeriod?_of_pos {q : Quota} (limit : 0 < q.limit) :
    q.tokenPeriod? = some (max ((q.windowMs + q.limit - 1) / q.limit) 1) :=
  if_neg (Nat.ne_of_gt limit)

end Quota

end Admission

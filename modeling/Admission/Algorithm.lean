/-
# Admission.Algorithm — the two ways to decide

A *token bucket* allows bursts and refills over time. A *sliding window* keeps the instants of the
admitted requests and is exact. Configurations, requests and stored states name the algorithm by its
identifier.
-/
import Admission.Json.Field
import Admission.Json.Value

namespace Admission

/-- An algorithm that decides on requests. -/
inductive Algorithm where
  /-- Tokens that are spent by requests and refill over time. -/
  | tokenBucket
  /-- A log of the requests of the trailing window. -/
  | slidingWindow
deriving DecidableEq, Repr

namespace Algorithm

/-- The algorithm used when none is named. -/
def default : Algorithm := .tokenBucket

/-- The identifier of an algorithm. -/
def name : Algorithm → String
  | .tokenBucket => "token_bucket"
  | .slidingWindow => "sliding_window"

/-- The algorithm of an identifier. -/
def ofName? (s : String) : Option Algorithm :=
  if s = "token_bucket" then some .tokenBucket
  else if s = "sliding_window" then some .slidingWindow
  else none

/-- The algorithm as it is written in JSON. -/
def toJson (a : Algorithm) : Json.Value := .text a.name

/-- Reads an algorithm from JSON. -/
def ofJson? (t : Json.Tree) : Option Algorithm := t.choice?.bind ofName?

theorem ofName?_name (a : Algorithm) : ofName? a.name = some a := by
  cases a <;> rfl

theorem ofName?_eq_some_iff {s : String} {a : Algorithm} : ofName? s = some a ↔ s = a.name := by
  constructor
  · intro h
    simp only [ofName?] at h
    split at h
    · next hs => cases h; exact hs
    · split at h
      · next hs => cases h; exact hs
      · simp at h
  · rintro rfl
    exact ofName?_name a

end Algorithm

end Admission

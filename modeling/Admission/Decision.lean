/-
# Admission.Decision — the answer to a request

A decision allows or denies, and tells where the key stands: how many requests are left, when the
state recorded for the key lapses, and, after a denial, how long to wait. Instants are wall-clock
milliseconds, so that they mean the same to every process that shares a store.
-/
import Admission.Algorithm
import Admission.Duration

namespace Admission

/-- Where a key stands. -/
structure Standing where
  /-- The number of requests per window. -/
  limit : Nat
  /-- The requests left. -/
  remaining : Nat
  /-- When the recorded state lapses, in milliseconds. -/
  resetAt : Nat
  /-- How long to wait before the next try. -/
  retryAfter : Option Duration
  /-- The name of the algorithm that decided. -/
  algorithm : Option String
deriving DecidableEq, Repr

namespace Standing

/-- When the recorded state lapses, in whole seconds. -/
def resetAtSeconds (s : Standing) : Nat := s.resetAt / 1000

/-- The time left until the recorded state lapses. -/
def untilReset (s : Standing) (now : Nat) : Duration := .ofMillis (s.resetAt - now)

end Standing

/-- The answer to a request. -/
structure Decision where
  /-- Whether the request is allowed. -/
  allowed : Bool
  /-- Where the key stands. -/
  standing : Standing
deriving DecidableEq, Repr

end Admission

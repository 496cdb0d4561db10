/-
# Admission.Limiter — an algorithm, a quota, and the keys it decides on

A limiter keeps the state of each caller key under a key of its own, which names the algorithm and
the quota (`scopedKey`). So limiters that differ in either never see each other's state, even when
they share a store and a caller key.
-/
import Admission.SlidingLog
import Admission.TokenBucket
import Admission.Update

namespace Admission

/-- The storage key of a caller key under an algorithm and a quota. -/
def scopedKey (algorithm : String) (q : Quota) (key : String) : String :=
  algorithm ++ ":" ++ toString q.limit ++ ":" ++ toString q.windowMs ++ ":" ++ key

/-- A limiter. -/
structure Limiter where
  /-- How it decides. -/
  algorithm : Algorithm
  /-- What it allows. -/
  quota : Quota
  /-- How many lost writes a decision survives. -/
  maxRetries : Nat
deriving DecidableEq, Repr

/-- What a limiter is to be, before it has been checked. -/
structure LimiterSpec where
  /-- The name of the algorithm. -/
  algorithm : String
  /-- The number of requests per window. -/
  limit : Nat
  /-- The window. -/
  window : Duration
  /-- Whether there is a store to keep states in. -/
  hasStorage : Bool
  /-- How many lost writes a decision survives. -/
  maxRetries : Nat
deriving DecidableEq, Repr

namespace Limiter

/-- How many lost writes a decision survives unless said otherwise. -/
def defaultRetries : Nat := 100

/-- Makes a limiter. The store is looked for first, then the limit and the window are checked, and
the algorithm last. -/
def create (spec : LimiterSpec) : Except Failure Limiter :=
  if !spec.hasStorage then .error (.config .missingStorage)
  else
    match Quota.make spec.limit spec.window with
    | .error cause => .error (.config cause)
    | .ok quota =>
      match Algorithm.ofName? spec.algorithm with
      | none => .error (.unsupportedAlgorithm spec.algorithm)
      | some algorithm => .ok ⟨algorithm, quota, spec.maxRetries⟩

/-- The key under which the limiter keeps the state of a caller key. -/
def slot (l : Limiter) (key : String) : String := scopedKey l.algorithm.name l.quota key

/-- Decides on one request from the stored value and the clock reading: the entry to store, and the
decision. -/
def decide (l : Limiter) : Update.Operation Decision := fun stored now =>
  match l.algorithm with
  | .tokenBucket => TokenBucket.decide l.quota stored now
  | .slidingWindow => .ok (SlidingLog.decide l.quota stored now)

variable {σ : Type}

/-- Decides on a request for a caller key, and records the decision. -/
def allow (l : Limiter) (b : Backend σ) (key : String) (s : σ) : Except Failure Decision × σ :=
  Update.run b (l.slot key) l.maxRetries l.decide.action s

/-- Forgets everything recorded for a caller key. -/
def reset (l : Limiter) (b : Backend σ) (key : String) (s : σ) : Except Failure Unit × σ :=
  b.delete (l.slot key) s

/-- The limiter in words. -/
def describe (l : Limiter) : String :=
  let kind :=
    match l.algorithm with
    | .tokenBucket => "TokenBucketLimiter"
    | .slidingWindow => "SlidingWindowLogLimiter"
  kind ++ " \x7b quota: " ++ l.quota.describe ++ ", max_retries: " ++ toString l.maxRetries ++
    " \x7d"

end Limiter

end Admission

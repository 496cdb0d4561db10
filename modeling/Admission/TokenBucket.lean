/-
# Admission.TokenBucket — deciding with a bucket of tokens

A bucket holds up to `limit` tokens and earns `limit` of them per window. An admitted request spends
one. Only whole tokens are earned: the instant from which the refill counts moves to now when at
least one token has been earned, and stays otherwise. When the last token is spent it moves to now as
well, so that the time a key was idle with a partly used bucket never turns into credit.

A decision starts from the stored bucket, refills it, spends a token if there is one, and writes the
bucket back with an expiry one window ahead. A key without a bucket, or with something else in its
place, starts with a full one.
-/
import Admission.Decision
import Admission.Quota
import Admission.State
import Admission.Store.Entry

namespace Admission.TokenBucket

/-- The bucket that a decision starts from. -/
def start (q : Quota) (stored : Option ByteArray) (now : Nat) : Bucket :=
  let found : Bucket :=
    match stored with
    | none => .full q.limit now
    | some bytes =>
      match State.decodeBucket bytes with
      | .ok bucket => bucket
      | .error _ => .full q.limit now
  { found with tokens := min found.tokens q.limit }

/-- The bucket with the tokens earned since the last refill. A clock that was set back earns
nothing. -/
def refill (q : Quota) (b : Bucket) (now : Nat) : Except Failure Bucket :=
  if now ≤ b.refilledAt then .ok b
  else
    match q.tokensFor? (now - b.refilledAt) with
    | none => .error .divisionByZero
    | some earned =>
      if earned = 0 then .ok b
      else .ok ⟨min (Word.add b.tokens earned) q.limit, now⟩

/-- The milliseconds until an empty bucket holds a token again. -/
def wait (q : Quota) (b : Bucket) (now : Nat) : Except Failure Nat :=
  match q.tokenPeriod? with
  | none => .error .divisionByZero
  | some period => .ok (Word.add b.refilledAt period - now)

/-- The bucket after one token was spent. -/
def spend (b : Bucket) (now : Nat) : Bucket :=
  let left := b.tokens - 1
  ⟨left, if left = 0 then now else b.refilledAt⟩

/-- Where a key stands after a decision. -/
def standing (q : Quota) (remaining now : Nat) (retryAfter : Option Duration) : Standing where
  limit := q.limit
  remaining := remaining
  resetAt := Word.add now q.windowMs
  retryAfter := retryAfter
  algorithm := some Algorithm.tokenBucket.name

/-- The entry that stores a bucket. -/
def entry (q : Quota) (b : Bucket) (now : Nat) : Entry :=
  .make (State.bucket b).encode (some (Word.add now q.windowMs))

/-- Decides on one request: the entry to store, and the decision. -/
def decide (q : Quota) (stored : Option ByteArray) (now : Nat) :
    Except Failure (Entry × Decision) := do
  let bucket ← refill q (start q stored now) now
  if bucket.tokens = 0 then
    let ms ← wait q bucket now
    return (entry q bucket now, ⟨false, standing q 0 now (some (.ofMillis ms))⟩)
  else
    let bucket := spend bucket now
    return (entry q bucket now, ⟨true, standing q bucket.tokens now none⟩)

end Admission.TokenBucket

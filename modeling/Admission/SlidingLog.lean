/-
# Admission.SlidingLog — deciding with a log of admitted requests

A request is admitted while fewer than `limit` requests were admitted in the trailing window. The
log holds the instants of those requests; an instant counts as long as it lies strictly after the
start of the window.

A decision starts from the stored log, drops what no longer counts, puts the rest in order, keeps the
newest `limit` instants if there are more, and writes the log back with an expiry one window ahead.
-/
import Admission.Decision
import Admission.Failure
import Admission.Quota
import Admission.State
import Admission.Store.Entry

namespace Admission.SlidingLog

/-- The instants that a decision starts from. -/
def start (stored : Option ByteArray) : List Nat :=
  match stored with
  | none => []
  | some bytes =>
    match State.decodeLog bytes with
    | .ok log => log.instants
    | .error _ => []

/-- The last `n` elements of a list. -/
def lastN {α : Type} (n : Nat) (xs : List α) : List α := xs.drop (xs.length - n)

/-- The instants that still count at `now`: those strictly after the start of the window, in order,
and of them the newest `limit`. -/
def counting (q : Quota) (instants : List Nat) (now : Nat) : List Nat :=
  lastN q.limit ((instants.filter (now - q.windowMs < ·)).mergeSort)

/-- The milliseconds until the oldest instant stops counting. -/
def wait (q : Quota) (instants : List Nat) (now : Nat) : Nat :=
  Word.add (instants.headD now) q.windowMs - now

/-- Where a key stands after a decision. -/
def standing (q : Quota) (remaining now : Nat) (retryAfter : Option Duration) : Standing where
  limit := q.limit
  remaining := remaining
  resetAt := Word.add now q.windowMs
  retryAfter := retryAfter
  algorithm := some Algorithm.slidingWindow.name

/-- The entry that stores a log. -/
def entry (q : Quota) (instants : List Nat) (now : Nat) : Entry :=
  .make (State.log ⟨instants⟩).encode (some (Word.add now q.windowMs))

/-- Decides on one request: the entry to store, and the decision. -/
def decide (q : Quota) (stored : Option ByteArray) (now : Nat) : Entry × Decision :=
  let instants := counting q (start stored) now
  if q.limit ≤ instants.length then
    (entry q instants now,
      ⟨false, standing q 0 now (some (.ofMillis (wait q instants now)))⟩)
  else
    let instants := instants ++ [now]
    (entry q instants now, ⟨true, standing q (q.limit - instants.length) now none⟩)

end Admission.SlidingLog

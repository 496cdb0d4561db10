/-
# Admission.Store.Ticker — what ticks for a task in the background

A task in the background waits for a ticker, which is somebody else's program. The task names a period,
and from then on the ticker waits for one deadline after the other. Nothing else is known of it here:
a ticker is any choice of deadlines, and whoever relies on one that is chosen well has to say so.

One choice is at hand (`Ticker.delaying`). A tick that is a little late does not disturb its rhythm; one
that is much too late is not caught up with, but starts a new rhythm at its instant.
-/

namespace Admission

/-- A ticker, by its deadlines. Periods and instants are in nanoseconds. -/
structure Ticker where
  /-- The deadline that it waits for first, if it is started at an instant. A tick at that very instant
  does not count. -/
  first (period instant : Nat) : Nat
  /-- Whether it ticks at an instant if it waits for a deadline. -/
  ticks (deadline instant : Nat) : Bool
  /-- The deadline that it waits for next, when it has ticked at an instant and will not tick there
  again. -/
  next (period deadline instant : Nat) : Nat

namespace Ticker

/-- By how many nanoseconds a tick may miss its deadline without starting a new rhythm. -/
def tolerance : Nat := 5000000

/-- A ticker that does not catch up. As long as it keeps its rhythm, the next deadline is the first one of
it that has not come yet. -/
def delaying : Ticker where
  first period instant := instant + period
  ticks deadline instant := deadline ≤ instant
  next period deadline instant :=
    if deadline + tolerance < instant then instant + period
    else deadline + ((instant - deadline) / period + 1) * period

end Ticker

end Admission

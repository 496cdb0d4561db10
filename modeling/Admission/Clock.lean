/-
# Admission.Clock — the two clocks of a running service

The *wall* clock dates decisions and expiries. It may be set to any instant, also one before the
epoch. The *uptime* clock only moves forward, and paces the background sweep. Both move together
when time passes.
-/
import Admission.Word

namespace Admission

/-- What the clocks show, in milliseconds. -/
structure Clock where
  /-- Milliseconds since the epoch; negative before it. -/
  wall : Int
  /-- Milliseconds since the process started. -/
  uptime : Nat
deriving DecidableEq, Repr

namespace Clock

/-- The instant a wall clock at `ms` reads as: the epoch for every time before it, and the low
64 bits of the count of milliseconds after it. -/
def readingAt (ms : Int) : Nat := ms.toNat % (Word.last + 1)

/-- The instant a decision made now is dated by. -/
def reading (clock : Clock) : Nat := readingAt clock.wall

/-- The instant read at `seconds` and `nanoseconds` since the epoch; parts of a millisecond are
dropped. -/
def readingOf (seconds : Int) (nanoseconds : Nat) : Nat :=
  readingAt ((seconds * 1000000000 + nanoseconds) / 1000000)

/-- Time passes: both clocks move. -/
def elapse (clock : Clock) (ms : Nat) : Clock :=
  { wall := clock.wall + ms, uptime := clock.uptime + ms }

/-- The wall clock is set; the uptime clock does not notice. -/
def setWall (clock : Clock) (ms : Int) : Clock := { clock with wall := ms }

end Clock

end Admission

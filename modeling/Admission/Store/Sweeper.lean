/-
# Admission.Store.Sweeper — the rhythm of a background sweep

A background sweep wakes when its ticker ticks. Its period may be any length from a millisecond on,
whereas the uptime clock shows whole milliseconds only. So deadlines are kept to the nanosecond, and a
waking falls on the first millisecond that is not before its deadline: at a period of 1.5 ms on the
milliseconds 2, 3, 5, 6, ….
-/
import Admission.Duration
import Admission.Store.Ticker

namespace Admission

/-- A background sweep, by its next waking. -/
structure Sweeper where
  /-- What ticks for it. -/
  ticker : Ticker
  /-- The nanoseconds from one tick to the next. -/
  period : Nat
  /-- The next deadline, in nanoseconds on the uptime clock. -/
  deadline : Nat
  /-- There is at most one tick in a millisecond. -/
  millisecond_le : 1000000 ≤ period

namespace Sweeper

/-- An instant of the uptime clock, in nanoseconds. -/
def instant (uptime : Nat) : Nat := uptime * 1000000

/-- The period that an interval asks for, in nanoseconds: at least a millisecond. -/
def periodOf (interval : Duration) : Nat := max interval.nanoseconds 1000000

/-- A sweeper that is started at `uptime`. -/
def start (ticker : Ticker) (interval : Duration) (uptime : Nat) : Sweeper where
  ticker := ticker
  period := periodOf interval
  deadline := ticker.first (periodOf interval) (instant uptime)
  millisecond_le := Nat.le_max_right _ _

/-- Whether the sweeper wakes at `uptime`. -/
def due (s : Sweeper) (uptime : Nat) : Bool := s.ticker.ticks s.deadline (instant uptime)

/-- The sweeper after it woke at `uptime`. -/
def woken (s : Sweeper) (uptime : Nat) : Sweeper :=
  { s with deadline := s.ticker.next s.period s.deadline (instant uptime) }

/-! ## Wakings in time -/

/-- The millisecond of the next waking, if no step of the clock leaps over it. -/
def waking (s : Sweeper) : Nat := (s.deadline + 999999) / 1000000

/-- The nanoseconds from the next deadline to the one after it, if the sweeper wakes in time. -/
def beat (s : Sweeper) : Nat :=
  s.ticker.next s.period s.deadline (instant s.waking) - s.deadline

/-- The sweeper before the last of the wakings up to `uptime`, when it woke in time at all others. -/
def beforeLast (s : Sweeper) (uptime : Nat) : Sweeper :=
  let wakings := (instant uptime - s.deadline) / s.beat
  { s with deadline := s.deadline + wakings * s.beat }

end Sweeper

end Admission

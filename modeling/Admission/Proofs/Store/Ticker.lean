/-
# Admission.Proofs.Store.Ticker — what is relied on of a ticker

A ticker is somebody else's program. What a background sweep relies on is said here, each part of it by
name: a ticker ticks at the first instant at which it is looked at that is not before its deadline, and the
next deadline lies ahead then, by no more than a period (`Ticker.Documented`). How a ticker makes up for a
late tick is its own affair. Only to follow it over many ticks one has to know that it keeps a rhythm as long
as no tick is late by a millisecond (`Ticker.Steady`).

There are such tickers: the one that does not catch up is documented, and it is steady at every period
from a millisecond on.
-/
import Admission.Store.Sweeper

namespace Admission

namespace Ticker

/-- What is documented of a ticker. -/
structure Documented (t : Ticker) : Prop where
  /-- It ticks from its deadline on, and not before. -/
  ticks_iff : ∀ deadline instant, t.ticks deadline instant = true ↔ deadline ≤ instant
  /-- The first deadline lies ahead. -/
  first_ahead : ∀ period > 0, ∀ instant, instant < t.first period instant
  /-- It lies no further ahead than a period. -/
  first_near : ∀ period instant, t.first period instant ≤ instant + period
  /-- However late a tick was, the next deadline lies ahead. -/
  next_ahead : ∀ period > 0, ∀ deadline instant, deadline ≤ instant →
    instant < t.next period deadline instant
  /-- It lies no further ahead than a period. -/
  next_near : ∀ period > 0, ∀ deadline instant, deadline ≤ instant →
    t.next period deadline instant ≤ instant + period

/-- A ticker keeps a rhythm, of a beat that has at least a millisecond: if a tick is not late by a
millisecond, the next deadline is one beat after that of the tick. -/
structure Steady (t : Ticker) (period beat : Nat) : Prop where
  /-- There is at most one tick in a millisecond. -/
  millisecond_le : 1000000 ≤ beat
  /-- The deadlines are a beat apart. -/
  next_eq : ∀ deadline instant, deadline ≤ instant → instant < deadline + 1000000 →
    t.next period deadline instant = deadline + beat

/-- Of deadlines that are a period apart, an instant lies between two. -/
theorem between_deadlines {period deadline instant : Nat} (positive : 0 < period)
    (due : deadline ≤ instant) :
    deadline + (instant - deadline) / period * period ≤ instant ∧
      instant < deadline + ((instant - deadline) / period + 1) * period := by
  have whole := Nat.div_mul_le_self (instant - deadline) period
  have part := Nat.lt_div_mul_add (a := instant - deadline) positive
  rw [Nat.add_mul, Nat.one_mul]
  constructor <;> omega

/-- The ticker that does not catch up is documented. -/
theorem delaying_documented : delaying.Documented where
  ticks_iff _ _ := decide_eq_true_iff
  first_ahead _ positive _ := Nat.lt_add_of_pos_right positive
  first_near _ _ := Nat.le_refl _
  next_ahead := by
    intro period positive deadline instant due
    show instant < if deadline + tolerance < instant then _ else _
    split
    · exact Nat.lt_add_of_pos_right positive
    · exact (between_deadlines positive due).2
  next_near := by
    intro period positive deadline instant due
    show (if deadline + tolerance < instant then _ else _) ≤ _
    split
    · exact Nat.le_refl _
    · have last := (between_deadlines positive due).1
      rw [Nat.add_mul, Nat.one_mul]
      omega

/-- As long as no tick is late by a millisecond, its deadlines are a period apart. -/
theorem delaying_steady {period : Nat} (millisecond_le : 1000000 ≤ period) :
    delaying.Steady period period where
  millisecond_le := millisecond_le
  next_eq := by
    intro deadline instant due timely
    have in_time : ¬deadline + tolerance < instant := by
      rw [tolerance]
      omega
    show (if deadline + tolerance < instant then _ else _) = _
    rw [if_neg in_time, Nat.div_eq_of_lt (by omega)]
    omega

end Ticker

namespace Sweeper

/-- The next deadline lies ahead of an instant, by a period at most. -/
structure Timely (s : Sweeper) (uptime : Nat) : Prop where
  /-- It lies ahead. -/
  ahead : instant uptime < s.deadline
  /-- It lies no further ahead than a period. -/
  near : s.deadline ≤ instant uptime + s.period

variable {s : Sweeper} {uptime : Nat}

theorem period_pos (s : Sweeper) : 0 < s.period := Nat.lt_of_lt_of_le (by decide) s.millisecond_le

/-- A sweeper wakes if its deadline has come. -/
theorem due_iff (documented : s.ticker.Documented) : s.due uptime = true ↔ s.deadline ≤ instant uptime :=
  documented.ticks_iff _ _

theorem due_eq_false_iff (documented : s.ticker.Documented) :
    s.due uptime = false ↔ instant uptime < s.deadline := by
  rw [← Bool.not_eq_true, due_iff documented, Nat.not_le]

/-- The deadline is near when a sweeper is started. -/
theorem timely_start {ticker : Ticker} (documented : ticker.Documented) (interval : Duration)
    (uptime : Nat) : (start ticker interval uptime).Timely uptime where
  ahead := documented.first_ahead _ (start ticker interval uptime).period_pos _
  near := documented.first_near _ _

/-- So it is when the sweeper has woken, however late that was. -/
theorem timely_woken (documented : s.ticker.Documented) (due : s.due uptime = true) :
    (s.woken uptime).Timely uptime where
  ahead := documented.next_ahead _ s.period_pos _ _ ((due_iff documented).mp due)
  near := documented.next_near _ s.period_pos _ _ ((due_iff documented).mp due)

/-- And so it is as long as the deadline has not come. -/
theorem Timely.later (timely : s.Timely uptime) (documented : s.ticker.Documented) {ms : Nat}
    (sleeps : s.due (uptime + ms) = false) : s.Timely (uptime + ms) := by
  have near := timely.near
  have grows : instant uptime ≤ instant (uptime + ms) := Nat.mul_le_mul_right _ (Nat.le_add_right _ _)
  exact ⟨(due_eq_false_iff documented).mp sleeps, by omega⟩

end Sweeper

end Admission

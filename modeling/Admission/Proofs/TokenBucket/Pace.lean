/-
# Admission.Proofs.TokenBucket.Pace — the time that one token takes

There are two answers to the question how long a token takes. A bucket that makes its callers wait goes by
`Quota.tokenPeriod?`, which is in whole milliseconds and rounded up; a quota advertises
`Quota.refillInterval?`, which is its window divided by its limit, in nanoseconds and rounded down. An answer is
right after some milliseconds if there is a token then exactly if the time it gives has passed
(`Quota.KeepsPace`).

The period is right at all times (`Quota.keepsPace_period`). The interval need not be, since it is reckoned apart
from the tokens: it counts the part of the window that is not a whole millisecond, it drops what is left below a
nanosecond, and it takes no divisor beyond 32 bits. How it comes out is told by dealing the window out among the
parts that it is divided into (`Quota.parts`), first a `share` of whole milliseconds to each, and then the `rest`
by the nanosecond. The interval is right at all times exactly if the period is that share, or a millisecond more
if the rest goes round (`Quota.refillInterval_keepsPace_iff`).

If the divisor is the limit itself and words hold the window, the tokens deal in the same way, but the rest by
the millisecond. Then the two can only disagree after the share, and do so if the rest is enough for one of them
and not for the other (`Quota.keepsPace_interval_iff`).
-/
import Admission.Proofs.Waiting

namespace Admission

/-- **Dealing out in portions.** Each of `a` takers gets no more than `e` portions of `b` exactly if fewer than
`e` rounds of portions go round among them, or just as many and too little is left for one more each. -/
theorem dealt_le_iff {w a b : Nat} (ha : 0 < a) (hb : 0 < b) (e : Nat) :
    w / a ≤ e * b ↔ w / (a * b) < e ∨ w / (a * b) = e ∧ w % (a * b) < a := by
  have whole : a * b * (w / (a * b)) + w % (a * b) = w := Nat.div_add_mod w (a * b)
  have left : w % (a * b) < a * b := Nat.mod_lt w (Nat.mul_pos ha hb)
  have room : a ≤ a * b := Nat.le_mul_of_pos_right a hb
  have dealt : w / a ≤ e * b ↔ w < a * b * e + a := by
    rw [← Nat.lt_succ_iff, Nat.div_lt_iff_lt_mul ha, Nat.succ_mul, Nat.mul_comm (e * b) a,
      Nat.mul_comm e b, Nat.mul_assoc]
  rw [dealt]
  -- a round more or less outweighs every rest, so only the rounds are compared unless they are equal
  generalize w / (a * b) = rounds, w % (a * b) = rest at *
  rcases Nat.lt_trichotomy rounds e with fewer | rfl | more
  · have : a * b * (rounds + 1) ≤ a * b * e := Nat.mul_le_mul_left _ fewer
    rw [Nat.mul_succ] at this
    omega
  · omega
  · have : a * b * (e + 1) ≤ a * b * rounds := Nat.mul_le_mul_left _ more
    rw [Nat.mul_succ] at this
    omega

/-- Durations of whole milliseconds compare as their milliseconds do. -/
theorem Duration.ofMillis_le_iff {a b : Nat} :
    (ofMillis a).nanoseconds ≤ (ofMillis b).nanoseconds ↔ a ≤ b :=
  Nat.mul_le_mul_right_iff (by decide)

namespace Quota

open TokenBucket (period period_le_iff period_le_windowMs)

variable {q : Quota} {d : Duration} {elapsed : Nat}

/-- **After so many milliseconds a quota keeps pace with a duration**: it has earned a token exactly if the
duration has passed. -/
def KeepsPace (q : Quota) (d : Duration) (elapsed : Nat) : Prop :=
  ∃ tokens ∈ q.tokensFor? elapsed,
    (1 ≤ tokens ↔ d.nanoseconds ≤ (Duration.ofMillis elapsed).nanoseconds)

instance (q : Quota) (d : Duration) (elapsed : Nat) : Decidable (q.KeepsPace d elapsed) :=
  inferInstanceAs (Decidable (∃ tokens ∈ q.tokensFor? elapsed, (_ ↔ _)))

/-! ## The period of a token -/

/-- There is a token as soon as its period has passed, whether or not the count is at its ceiling. -/
theorem one_le_tokens_iff (valid : q.Valid) {tokens : Nat} (earned : tokens ∈ q.tokensFor? elapsed) :
    1 ≤ tokens ↔ period q ≤ elapsed := by
  have window := valid.windowMs_pos
  rw [Option.mem_def, tokensFor?_of_pos window] at earned
  obtain rfl := Option.some.inj earned
  rw [period_le_iff valid, Word.clamp, Nat.le_min, Nat.le_div_iff_mul_le window, Nat.one_mul]
  exact and_iff_left (by decide)

/-- A quota keeps pace with a duration as far as that goes by the period. -/
theorem keepsPace_iff (valid : q.Valid) : q.KeepsPace d elapsed ↔
    (period q ≤ elapsed ↔ d.nanoseconds ≤ (Duration.ofMillis elapsed).nanoseconds) := by
  constructor
  · rintro ⟨tokens, earned, paced⟩
    rw [← one_le_tokens_iff valid earned]
    exact paced
  · intro paced
    have earned := tokensFor?_of_pos valid.windowMs_pos elapsed
    exact ⟨_, earned, (one_le_tokens_iff valid earned).trans paced⟩

/-- **The wait that a bucket tells is right**: every quota keeps pace with its period, at all times. -/
theorem keepsPace_period (valid : q.Valid) (elapsed : Nat) :
    q.KeepsPace (.ofMillis (period q)) elapsed :=
  (keepsPace_iff valid).mpr Duration.ofMillis_le_iff.symm

/-- A quota keeps pace at all times with a duration that is over after `ms` milliseconds, and not before, exactly
if those are its period. -/
theorem forall_keepsPace_iff (valid : q.Valid) {ms : Nat}
    (ends : ∀ e, d.nanoseconds ≤ (Duration.ofMillis e).nanoseconds ↔ ms ≤ e) :
    (∀ elapsed ≤ Word.last, q.KeepsPace d elapsed) ↔ period q = ms := by
  have paced_iff : ∀ e, q.KeepsPace d e ↔ (period q ≤ e ↔ ms ≤ e) := by
    intro e
    rw [keepsPace_iff valid, ends]
  constructor
  · -- each of the two is looked at after the other
    intro paced
    have last : period q ≤ Word.last := Nat.le_trans (period_le_windowMs valid) q.windowMs_le
    have early : ms ≤ period q := ((paced_iff _).mp (paced _ last)).mp (Nat.le_refl _)
    have late : period q ≤ ms :=
      ((paced_iff _).mp (paced _ (Nat.le_trans early last))).mpr (Nat.le_refl _)
    exact Nat.le_antisymm late early
  · rintro rfl elapsed -
    exact (paced_iff elapsed).mpr Iff.rfl

/-! ## The interval of a quota -/

/-- The number of parts that the interval divides the window into. -/
def parts (q : Quota) : Nat := min q.limit maxParts

/-- The whole milliseconds of the window that there are for each part. -/
def share (q : Quota) : Nat := q.window.nanoseconds / (Duration.ofMillis q.parts).nanoseconds

/-- The nanoseconds of the window that are left when each part has its share. -/
def rest (q : Quota) : Nat := q.window.nanoseconds % (Duration.ofMillis q.parts).nanoseconds

theorem parts_pos (valid : q.Valid) : 0 < q.parts := Nat.lt_min.mpr ⟨valid.limit_pos, by decide⟩

/-- The interval is over with the share if no nanosecond is left for each part. -/
theorem interval_le_iff (valid : q.Valid) :
    (q.window.split q.parts).nanoseconds ≤ (Duration.ofMillis elapsed).nanoseconds ↔
      q.share < elapsed ∨ q.share = elapsed ∧ q.rest < q.parts :=
  dealt_le_iff (parts_pos valid) (by decide) elapsed

/-- The period is over with the share if no whole millisecond is left. -/
theorem period_le_iff_share (valid : q.Valid) (narrow : q.limit ≤ maxParts)
    (held : q.window.millis ≤ Word.last) :
    period q ≤ elapsed ↔ q.share < elapsed ∨ q.share = elapsed ∧ q.rest < 1000000 := by
  rw [period_le_iff valid, windowMs, Word.clamp_of_le held, share, rest, parts, Nat.min_eq_left narrow,
    Duration.ofMillis, Nat.mul_comm q.limit]
  exact dealt_le_iff (by decide) valid.limit_pos elapsed

/-- **Only the share is in question.** With a divisor that is the limit, and a window that words hold, a quota
keeps pace with its interval after every other time, and after the share exactly if the rest is a nanosecond for
each request just when it is a millisecond. -/
theorem keepsPace_interval_iff (valid : q.Valid) (narrow : q.limit ≤ maxParts)
    (held : q.window.millis ≤ Word.last) : q.KeepsPace (q.window.split q.parts) elapsed ↔
      (elapsed = q.share → (q.limit ≤ q.rest ↔ 1000000 ≤ q.rest)) := by
  have all : q.parts = q.limit := Nat.min_eq_left narrow
  rw [keepsPace_iff valid, period_le_iff_share valid narrow held, interval_le_iff valid, all]
  omega

/-- Of one request in a millisecond and a half the half counts for the interval only. -/
example : ¬ (⟨1, ⟨1500000⟩⟩ : Quota).KeepsPace ⟨1500000⟩ 1 := by decide

/-- **Ordinary quotas keep pace** with their interval at all times: a million requests or fewer, in a window of
whole milliseconds. -/
theorem keepsPace_interval_of_whole (valid : q.Valid) (held : q.window.millis ≤ Word.last)
    (few : q.limit ≤ 1000000) (whole : 1000000 ∣ q.window.nanoseconds) :
    q.KeepsPace (q.window.split q.parts) elapsed := by
  rw [keepsPace_interval_iff valid (Nat.le_trans few (by decide)) held]
  intro _
  have limit := valid.limit_pos
  -- a rest that is no whole millisecond is none at all
  obtain ⟨ms, rest⟩ : 1000000 ∣ q.rest := (Nat.dvd_mod_iff (Nat.dvd_mul_left _ _)).mpr whole
  omega

/-- **When the advertised interval is right.** Every quota has an interval and a period, and keeps pace with the
period at all times. With the interval it keeps pace at all times exactly if the period is the share of each part
of the window, and a millisecond more if the rest is a nanosecond or more for each. If there is a part for each
request, and words hold the window, it keeps pace with the interval after every time but its share, and after that
exactly if the rest is a nanosecond for each request just when it is a millisecond. -/
theorem refillInterval_keepsPace_iff (valid : q.Valid) :
    ∃ interval period, q.refillInterval? = some interval ∧ q.tokenPeriod? = some period ∧
      (∀ elapsed, q.KeepsPace (.ofMillis period) elapsed) ∧
      ((∀ elapsed ≤ Word.last, q.KeepsPace interval elapsed) ↔
        period = if q.parts ≤ q.rest then q.share + 1 else q.share) ∧
      (q.limit ≤ maxParts → q.window.millis ≤ Word.last → ∀ elapsed,
        q.KeepsPace interval elapsed ↔
          (elapsed = q.share → (q.limit ≤ q.rest ↔ 1000000 ≤ q.rest))) := by
  have ends : ∀ e, (q.window.split q.parts).nanoseconds ≤ (Duration.ofMillis e).nanoseconds ↔
      (if q.parts ≤ q.rest then q.share + 1 else q.share) ≤ e := by
    intro e
    rw [interval_le_iff valid]
    split <;> omega
  exact ⟨q.window.split q.parts, period q, refillInterval?_of_pos valid.limit_pos,
    tokenPeriod?_of_pos valid.limit_pos, keepsPace_period valid, forall_keepsPace_iff valid ends,
    fun narrow held _ => keepsPace_interval_iff valid narrow held⟩

/-- Two million requests in a millisecond more than two thousand seconds. The share is one millisecond and one
more is left, which is half a nanosecond for each request: an interval of one millisecond is advertised, and that
is right at all times except after one millisecond, when there is no token yet. -/
theorem refillInterval_keepsPace_iff_of_millions :
    let q : Quota := ⟨2000000, .ofMillis 2000001⟩
    q.Valid ∧ q.refillInterval? = some (.ofMillis 1) ∧ q.tokenPeriod? = some 2 ∧
      ∀ elapsed, q.KeepsPace (.ofMillis 1) elapsed ↔ elapsed ≠ 1 := by
  intro q
  have valid : q.Valid := ⟨by decide, by decide, by decide⟩
  have advertised : q.refillInterval? = some (.ofMillis 1) := by decide
  obtain ⟨interval, period, refills, -, -, -, paced⟩ := refillInterval_keepsPace_iff valid
  obtain rfl : interval = .ofMillis 1 := Option.some.inj (refills.symm.trans advertised)
  refine ⟨valid, advertised, by decide, fun elapsed => ?_⟩
  rw [paced (by decide) (by decide) elapsed]
  have apart : ¬ (q.limit ≤ q.rest ↔ 1000000 ≤ q.rest) := by decide
  have one : q.share = 1 := by decide
  rw [one]
  exact ⟨fun paced now => apart (paced now), fun other now => absurd now other⟩

/-- **A large limit is not kept up with.** Of 2 ^ 33 requests in as many milliseconds one is earned in each, but
the interval is divided by less than 2 ^ 32, and comes to two milliseconds. -/
theorem refillInterval_falls_behind : ¬ ∀ q : Quota, q.Valid →
    ∀ interval, q.refillInterval? = some interval →
      ∀ elapsed ≤ Word.last, q.KeepsPace interval elapsed := by
  intro all
  let q : Quota := ⟨8589934592, .ofMillis 8589934592⟩
  have valid : q.Valid := ⟨by decide, by decide, by decide⟩
  have behind : ¬ q.KeepsPace (.ofMillis 2) 1 := by decide
  exact behind (all q valid (.ofMillis 2) (by decide) 1 (by decide))

end Quota

end Admission

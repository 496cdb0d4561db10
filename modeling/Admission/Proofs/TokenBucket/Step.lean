/-
# Admission.Proofs.TokenBucket.Step — a decision of the bucket in closed form

For a checked quota a decision never fails, and neither saturation nor the ceiling of a count shows in
it: the bucket is refilled by exactly the whole tokens of the elapsed time (`refilled`), then it is
settled (`settled`), and the answer is read off the refilled bucket (`verdict`). `decide_eq` puts the
three together; nothing after this module opens `decide` again.

What is stored stays within the ceiling and within the limit, whatever the bytes were that a decision
started from.
-/
import Admission.Proofs.Codec
import Admission.Proofs.Lapse
import Admission.TokenBucket

namespace Admission.TokenBucket

variable {q : Quota}

/-! ## Refilling -/

/-- The tokens a bucket has earned are whole: less than a window's worth of time earns what it earns,
rounded down, and a time that earns nothing leaves the bucket as it is. -/
def refilled (q : Quota) (b : Bucket) (now : Nat) : Bucket :=
  if q.windowMs ≤ (now - b.refilledAt) * q.limit then
    ⟨min (b.tokens + (now - b.refilledAt) * q.limit / q.windowMs) q.limit, now⟩
  else b

theorem refill_eq (valid : q.Valid) (b : Bucket) (now : Nat) :
    refill q b now = .ok (refilled q b now) := by
  have hwindow := valid.windowMs_pos
  have hlimit := valid.limit_le
  by_cases back : now ≤ b.refilledAt
  · have none : ¬ q.windowMs ≤ (now - b.refilledAt) * q.limit := by
      rw [Nat.sub_eq_zero_of_le back, Nat.zero_mul]
      omega
    rw [refill, if_pos back, refilled, if_neg none]
  · simp only [refill, if_neg back, Quota.tokensFor?_of_pos hwindow, refilled]
    by_cases whole : q.windowMs ≤ (now - b.refilledAt) * q.limit
    · -- the count is clamped, but beyond the limit that makes no difference
      have positive : 0 < (now - b.refilledAt) * q.limit / q.windowMs :=
        Nat.div_pos whole hwindow
      have earned : ¬ Word.clamp ((now - b.refilledAt) * q.limit / q.windowMs) = 0 := by
        simp only [Word.clamp, Word.last]
        omega
      have sum : min (Word.add b.tokens
          (Word.clamp ((now - b.refilledAt) * q.limit / q.windowMs))) q.limit =
          min (b.tokens + (now - b.refilledAt) * q.limit / q.windowMs) q.limit := by
        simp only [Word.add, Word.clamp]
        omega
      rw [if_neg earned, if_pos whole, sum]
    · have zero : (now - b.refilledAt) * q.limit / q.windowMs = 0 :=
        Nat.div_eq_of_lt (by omega)
      rw [if_pos (by rw [zero]; rfl), if_neg whole]

/-- No time, no tokens. -/
theorem refilled_now (valid : q.Valid) (tokens now : Nat) :
    refilled q ⟨tokens, now⟩ now = ⟨tokens, now⟩ := by
  have := valid.windowMs_pos
  rw [refilled, if_neg (by rw [Nat.sub_self, Nat.zero_mul]; omega)]

theorem refilled_tokens_le {b : Bucket} (h : b.tokens ≤ q.limit) (now : Nat) :
    (refilled q b now).tokens ≤ q.limit := by
  unfold refilled
  split
  · exact Nat.min_le_right _ _
  · exact h

/-! ## Settling -/

/-- The bucket that is written back: a token less, if there was one. -/
def settled (b : Bucket) (now : Nat) : Bucket := if b.tokens = 0 then b else spend b now

/-- The milliseconds in which a checked quota earns one token. -/
def period (q : Quota) : Nat := max ((q.windowMs + q.limit - 1) / q.limit) 1

/-- The answer that a refilled bucket gives. -/
def verdict (q : Quota) (b : Bucket) (now : Nat) : Decision :=
  if b.tokens = 0 then
    ⟨false, standing q 0 now (some (.ofMillis (Word.add b.refilledAt (period q) - now)))⟩
  else ⟨true, standing q (b.tokens - 1) now none⟩

theorem verdict_allowed (q : Quota) (b : Bucket) (now : Nat) :
    (verdict q b now).allowed = true ↔ 0 < b.tokens := by
  unfold verdict
  split
  · next h => simp [h]
  · next h => simp [Nat.pos_of_ne_zero h]

/-- Only an empty bucket denies. -/
theorem verdict_denied {q : Quota} {b : Bucket} {now : Nat} (denied : (verdict q b now).allowed = false) :
    b.tokens = 0 := by
  by_contra some_left
  rw [(verdict_allowed q b now).mpr (Nat.pos_of_ne_zero some_left)] at denied
  cases denied

/-- **One decision**: refill, settle and answer. -/
theorem decide_eq (valid : q.Valid) (stored : Option ByteArray) (now : Nat) :
    TokenBucket.decide q stored now =
      .ok (entry q (settled (refilled q (start q stored now) now) now) now,
        verdict q (refilled q (start q stored now) now) now) := by
  have hwait : ∀ b, wait q b now = .ok (Word.add b.refilledAt (period q) - now) := by
    intro b
    rw [wait, Quota.tokenPeriod?_of_pos valid.limit_pos, period]
  rw [TokenBucket.decide, refill_eq valid]
  show (if (refilled q (start q stored now) now).tokens = 0 then _ else _) = _
  rw [settled, verdict]
  split
  · rw [hwait]
    rfl
  · rfl

/-! ## What is stored -/

theorem start_tokens_le (q : Quota) (stored : Option ByteArray) (now : Nat) :
    (start q stored now).tokens ≤ q.limit := Nat.min_le_right _ _

/-- A decision starts from a bucket within the ceiling, whatever was stored. -/
theorem start_bounded (valid : q.Valid) (stored : Option ByteArray) {now : Nat}
    (h : now ≤ Word.last) : (start q stored now).Bounded := by
  refine ⟨Nat.le_trans (start_tokens_le q stored now) valid.limit_le, ?_⟩
  simp only [start]
  split
  · exact h
  · split
    · next hdecode => exact (State.decodeBucket_bounded hdecode).refilledAt_le
    · exact h

theorem refilled_bounded (valid : q.Valid) {b : Bucket} (bounded : b.Bounded) {now : Nat}
    (h : now ≤ Word.last) : (refilled q b now).Bounded := by
  unfold refilled
  split
  · exact ⟨Nat.le_trans (Nat.min_le_right _ _) valid.limit_le, h⟩
  · exact bounded

theorem settled_bounded {b : Bucket} (bounded : b.Bounded) {now : Nat} (h : now ≤ Word.last) :
    (settled b now).Bounded := by
  unfold settled
  split
  · exact bounded
  · refine ⟨Nat.le_trans (Nat.sub_le _ _) bounded.tokens_le, ?_⟩
    simp only [spend]
    split
    · exact h
    · exact bounded.refilledAt_le

theorem settled_tokens_le (b : Bucket) (now : Nat) : (settled b now).tokens ≤ b.tokens := by
  unfold settled
  split
  · exact Nat.le_refl _
  · exact Nat.sub_le _ _

/-- A stored bucket is found until a window has passed; after that a decision starts from a full
one. -/
theorem start_entry (valid : q.Valid) {b : Bucket} (bounded : b.Bounded)
    (tokens : b.tokens ≤ q.limit) (now : Nat) {t : Nat} (ht : t < Word.last) :
    start q ((entry q b now).live? t) t =
      if now + q.windowMs ≤ t then .full q.limit t else b := by
  rw [entry, Entry.live?_window valid _ _ ht]
  split
  · simp only [start, Bucket.full, Nat.min_self]
  · simp only [start]
    rw [State.decodeBucket_encode bounded]
    simp only [Nat.min_eq_left tokens]

end Admission.TokenBucket

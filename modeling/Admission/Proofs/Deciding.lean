/-
# Admission.Proofs.Deciding — a checked quota always leads to a decision

The arithmetic of a decision has no result if the limit or the window is zero. With a checked quota neither
is, and then there is a decision, whatever is stored and whatever the clock reads
(`Limiter.decide_answers`). Nothing is assumed about what is stored: what cannot be read counts as nothing.
-/
import Admission.Limiter
import Admission.Proofs.Lapse

namespace Admission

namespace TokenBucket

variable {q : Quota}

theorem refill_answers (window : 0 < q.windowMs) (b : Bucket) (now : Nat) :
    ∃ b', refill q b now = .ok b' := by
  rw [refill]
  split
  · exact ⟨b, rfl⟩
  · rw [Quota.tokensFor?_of_pos window]
    dsimp only
    split
    · exact ⟨_, rfl⟩
    · exact ⟨_, rfl⟩

theorem wait_answers (limit : 0 < q.limit) (b : Bucket) (now : Nat) : ∃ ms, wait q b now = .ok ms := by
  rw [wait, Quota.tokenPeriod?_of_pos limit]
  exact ⟨_, rfl⟩

/-- A bucket with a checked quota decides. -/
theorem decide_answers (limit : 0 < q.limit) (window : 0 < q.windowMs) (stored : Option ByteArray)
    (now : Nat) : ∃ entry decision, TokenBucket.decide q stored now = .ok (entry, decision) ∧
      decision.standing.resetAt = Word.add now q.windowMs ∧
      (decision.allowed = false → decision.standing.remaining = 0) := by
  obtain ⟨b, refilled⟩ := refill_answers window (start q stored now) now
  obtain ⟨ms, waits⟩ := wait_answers limit b now
  rw [TokenBucket.decide, refilled]
  by_cases empty : b.tokens = 0
  · refine ⟨entry q b now, ⟨false, standing q 0 now (some (.ofMillis ms))⟩, ?_, rfl, fun _ => rfl⟩
    show (if b.tokens = 0 then _ else _) = _
    rw [if_pos empty, waits]
    rfl
  · refine ⟨entry q (spend b now) now, ⟨true, standing q (spend b now).tokens now none⟩, ?_, rfl,
      fun denied => absurd denied (by simp)⟩
    show (if b.tokens = 0 then _ else _) = _
    rw [if_neg empty]
    rfl

end TokenBucket

/-- A log decides, and a denial leaves nothing. -/
theorem SlidingLog.decide_answers (q : Quota) (stored : Option ByteArray) (now : Nat) :
    (SlidingLog.decide q stored now).2.standing.resetAt = Word.add now q.windowMs ∧
      ((SlidingLog.decide q stored now).2.allowed = false →
        (SlidingLog.decide q stored now).2.standing.remaining = 0) := by
  simp only [SlidingLog.decide]
  split
  · exact ⟨rfl, fun _ => rfl⟩
  · exact ⟨rfl, fun denied => absurd denied (by simp)⟩

namespace Limiter

/-- **A limiter with a checked quota decides**, whatever is stored. The state it stores is to lapse a
window from now, and a denial leaves no requests. -/
theorem decide_answers {l : Limiter} (limit : 0 < l.quota.limit) (window : 0 < l.quota.windowMs)
    (stored : Option ByteArray) (now : Nat) : ∃ entry decision,
      l.decide stored now = .ok (entry, decision) ∧
        decision.standing.resetAt = Word.add now l.quota.windowMs ∧
        (decision.allowed = false → decision.standing.remaining = 0) := by
  rw [decide]
  cases l.algorithm with
  | tokenBucket => exact TokenBucket.decide_answers limit window stored now
  | slidingWindow => exact ⟨_, _, rfl, SlidingLog.decide_answers l.quota stored now⟩

/-- A limiter with a valid quota decides. -/
theorem decides (l : Limiter) (valid : l.quota.Valid) (stored : Option ByteArray) (now : Nat) :
    ∃ decided, l.decide stored now = .ok decided := by
  obtain ⟨entry, decision, decided, -⟩ :=
    decide_answers valid.limit_pos valid.windowMs_pos stored now
  exact ⟨(entry, decision), decided⟩

end Limiter

end Admission

/-
# Admission.Proofs.Faultless — no decision steps outside the arithmetic of its words

Numbers here never run out, and a difference below zero is zero. Words of 64 bits are not like that: a
difference has no answer below zero, a product none beyond twice the width, and a quotient none by zero.
Only where a sum or a difference *saturates* it always has an answer.

So the decisions are made once more, with such an arithmetic wherever nothing saturates (`decide?`), and
with lists of which no more can be removed than they have. For a checked quota every one of those steps
has its answer, whatever is stored and whatever the clock reads, and the decision that comes out is the
one that is made (`Limiter.decide?_eq`).
-/
import Admission.Proofs.Steady

namespace Admission

namespace Word

/-- The largest number of twice the width. -/
def wide : Nat := 340282366920938463463374607431768211455

/-- A difference that is not below zero. -/
def sub? (a b : Nat) : Option Nat := if b ≤ a then some (a - b) else none

/-- A product of twice the width. -/
def mul? (a b : Nat) : Option Nat := if a * b ≤ wide then some (a * b) else none

/-- A quotient, rounded down. -/
def div? (a b : Nat) : Option Nat := if b = 0 then none else some (a / b)

/-- A quotient, rounded up. -/
def divUp? (a b : Nat) : Option Nat := if b = 0 then none else some ((a + b - 1) / b)

theorem sub?_of_le {a b : Nat} (h : b ≤ a) : sub? a b = some (a - b) := if_pos h

/-- Words have a product of twice the width. -/
theorem mul?_of_le {a b : Nat} (ha : a ≤ last) (hb : b ≤ last) : mul? a b = some (a * b) := by
  have squared : last * last ≤ wide := by decide
  exact if_pos (Nat.le_trans (Nat.mul_le_mul ha hb) squared)

theorem div?_of_pos (a : Nat) {b : Nat} (h : 0 < b) : div? a b = some (a / b) :=
  if_neg (Nat.ne_of_gt h)

theorem divUp?_of_pos (a : Nat) {b : Nat} (h : 0 < b) : divUp? a b = some ((a + b - 1) / b) :=
  if_neg (Nat.ne_of_gt h)

end Word

namespace TokenBucket

variable {q : Quota}

/-! ## The bucket -/

/-- The tokens that a bucket has earned by an instant after its last refill. -/
def earned? (q : Quota) (b : Bucket) (now : Nat) : Option Nat := do
  let elapsed ← Word.sub? now b.refilledAt
  let weighed ← Word.mul? elapsed q.limit
  let earned ← Word.div? weighed q.windowMs
  return Word.clamp earned

/-- The bucket with the tokens it has earned. -/
def refill? (q : Quota) (b : Bucket) (now : Nat) : Option Bucket :=
  if now ≤ b.refilledAt then some b
  else do
    let earned ← earned? q b now
    return if earned = 0 then b else ⟨min (Word.add b.tokens earned) q.limit, now⟩

/-- The milliseconds until an empty bucket holds a token again; the difference saturates. -/
def wait? (q : Quota) (b : Bucket) (now : Nat) : Option Nat := do
  let period ← Word.divUp? q.windowMs q.limit
  return Word.add b.refilledAt (max period 1) - now

/-- The bucket after one token was spent. -/
def spend? (b : Bucket) (now : Nat) : Option Bucket := do
  let left ← Word.sub? b.tokens 1
  return ⟨left, if left = 0 then now else b.refilledAt⟩

/-- Decides on one request. -/
def decide? (q : Quota) (stored : Option ByteArray) (now : Nat) : Option (Entry × Decision) := do
  let bucket ← refill? q (start q stored now) now
  if bucket.tokens = 0 then
    let ms ← wait? q bucket now
    return (entry q bucket now, ⟨false, standing q 0 now (some (.ofMillis ms))⟩)
  else
    let bucket ← spend? bucket now
    return (entry q bucket now, ⟨true, standing q bucket.tokens now none⟩)

/-- Time is only looked back on, and the tokens of any time can be counted. -/
theorem earned?_eq (valid : q.Valid) {b : Bucket} {now : Nat} (past : b.refilledAt ≤ now)
    (h : now ≤ Word.last) : earned? q b now = q.tokensFor? (now - b.refilledAt) := by
  have elapsed : now - b.refilledAt ≤ Word.last := Nat.le_trans (Nat.sub_le _ _) h
  simp only [earned?, Word.sub?_of_le past, Word.mul?_of_le elapsed valid.limit_le,
    Word.div?_of_pos _ valid.windowMs_pos, Option.bind_eq_bind, Option.bind_some,
    Quota.tokensFor?_of_pos valid.windowMs_pos]
  rfl

theorem refill?_eq (valid : q.Valid) (b : Bucket) {now : Nat} (h : now ≤ Word.last) :
    refill? q b now = some (refilled q b now) := by
  have refills := refill_eq valid b now
  unfold refill at refills
  unfold refill?
  split
  · next back =>
    rw [if_pos back] at refills
    exact congrArg some (Except.ok.inj refills)
  · next ahead =>
    rw [if_neg ahead, Quota.tokensFor?_of_pos valid.windowMs_pos] at refills
    rw [earned?_eq valid (by omega) h, Quota.tokensFor?_of_pos valid.windowMs_pos]
    dsimp only at refills
    show some (if Word.clamp _ = 0 then b else _) = _
    split
    · next nothing =>
      rw [if_pos nothing] at refills
      exact congrArg some (Except.ok.inj refills)
    · next something =>
      rw [if_neg something] at refills
      exact congrArg some (Except.ok.inj refills)

/-- **The bucket decides without a fault**: a token is only spent if there is one. -/
theorem decide?_eq (valid : q.Valid) (stored : Option ByteArray) {now : Nat} (h : now ≤ Word.last) :
    ∃ decided, decide? q stored now = some decided ∧ TokenBucket.decide q stored now = .ok decided := by
  refine ⟨_, ?_, decide_eq valid stored now⟩
  rw [decide?, refill?_eq valid _ h]
  generalize refilled q (start q stored now) now = b
  show (if b.tokens = 0 then _ else _) = _
  rw [settled, verdict]
  split
  · rw [wait?, Word.divUp?_of_pos _ valid.limit_pos]
    rfl
  · next some_left =>
    rw [spend?, Word.sub?_of_le (Nat.pos_of_ne_zero some_left)]
    rfl

end TokenBucket

namespace SlidingLog

variable {q : Quota}

/-! ## The log -/

/-- A log without its first instants, as long as it has so many. -/
def remove? (n : Nat) (xs : List Nat) : Option (List Nat) :=
  if n ≤ xs.length then some (xs.drop n) else none

/-- The newest `n` instants of a log in order: what is too much is removed. -/
def lastN? (n : Nat) (xs : List Nat) : Option (List Nat) :=
  if n < xs.length then do
    let excess ← Word.sub? xs.length n
    remove? excess xs
  else some xs

/-- Decides on one request. Only the counting takes arithmetic that does not saturate. -/
def decide? (q : Quota) (stored : Option ByteArray) (now : Nat) : Option (Entry × Decision) := do
  let instants ← lastN? q.limit (((start stored).filter (now - q.windowMs < ·)).mergeSort)
  return verdict q instants now

theorem lastN?_eq (n : Nat) (xs : List Nat) : lastN? n xs = some (lastN n xs) := by
  rw [lastN?]
  split
  · next long =>
    have room : xs.length - n ≤ xs.length := Nat.sub_le _ _
    rw [Word.sub?_of_le (Nat.le_of_lt long)]
    exact if_pos room
  · next short => rw [lastN_of_length_le (Nat.le_of_not_lt short)]

/-- **The log decides without a fault**: only what is too much is removed. -/
theorem decide?_eq (q : Quota) (stored : Option ByteArray) (now : Nat) :
    decide? q stored now = some (SlidingLog.decide q stored now) := by
  rw [decide?, lastN?_eq, decide_eq]
  rfl

end SlidingLog

namespace Limiter

/-- Decides on one request from the stored value and the clock reading, by arithmetic that has no answer
where nothing saturates and a word does not suffice. -/
def decide? (l : Limiter) (stored : Option ByteArray) (now : Nat) : Option (Entry × Decision) :=
  match l.algorithm with
  | .tokenBucket => TokenBucket.decide? l.quota stored now
  | .slidingWindow => SlidingLog.decide? l.quota stored now

/-- **No decision of a checked quota has a fault**, whatever is stored and whatever the clock reads. -/
theorem decide?_eq (l : Limiter) (valid : l.quota.Valid) (stored : Option ByteArray) {now : Nat}
    (h : now ≤ Word.last) :
    ∃ decided, l.decide? stored now = some decided ∧ l.decide stored now = .ok decided := by
  rw [decide?, decide]
  cases l.algorithm with
  | tokenBucket => exact TokenBucket.decide?_eq valid stored h
  | slidingWindow => exact ⟨_, SlidingLog.decide?_eq l.quota stored now, rfl⟩

end Limiter

end Admission

/-
# Admission.Proofs.Race.Ladder — the states of a key while the clock stands still

While the clock stands still, a key goes through a row of states: a fresh one, then one more for each
admission, up to the limit. A decision on any of them but the last one admits and writes the next;
a decision on the last one denies and writes that very state again. That is a *ladder*, and the rungs
are different *as bytes*: a writer that finds the bytes it has read finds the state it has read, and
a denial never costs anybody a write.

Both algorithms have one (`Limiter.ladder`).
-/
import Admission.Proofs.SlidingLog.Exact
import Admission.Proofs.TokenBucket.Step

namespace Admission

/-- What is stored after so many admissions: nothing at first. -/
def rung (state : Nat → State) : Nat → Option ByteArray
  | 0 => none
  | a + 1 => some (state (a + 1)).encode

/-- **A ladder**: the states that a key goes through at an instant `now`, one for each number of
admissions up to `top`. -/
structure Ladder (operation : Update.Operation Decision) (now top : Nat) where
  /-- The state after so many admissions. -/
  state : Nat → State
  /-- It can be read back. -/
  bounded : ∀ a ≤ top, (state a).Bounded
  /-- The states are different. -/
  distinct : ∀ a ≤ top, ∀ b ≤ top, state a = state b → a = b
  /-- A decision admits below the top, and takes the state one rung up if there is one. -/
  climbs : ∀ a ≤ top, ∃ entry d, operation (rung state a) now = .ok (entry, d) ∧
    (d.allowed = true ↔ a < top) ∧ entry.live? now = rung state (min (a + 1) top)

/-- The rungs of a ladder are different as bytes. -/
theorem Ladder.rung_injective {operation : Update.Operation Decision} {now top : Nat}
    (L : Ladder operation now top) {a b : Nat} (ha : a ≤ top) (hb : b ≤ top)
    (h : rung L.state a = rung L.state b) : a = b := by
  cases a with
  | zero =>
    cases b with
    | zero => rfl
    | succ b => cases h
  | succ a =>
    cases b with
    | zero => cases h
    | succ b =>
      exact L.distinct _ ha _ hb
        (State.encode_injective (L.bounded _ ha) (L.bounded _ hb) (Option.some.inj h))

/-- What is stored one rung up, if the top is not the ground. -/
theorem rung_next (state : Nat → State) {a top : Nat} (h : 0 < top) :
    rung state (min (a + 1) top) = some (state (min (a + 1) top)).encode := by
  obtain ⟨b, hb⟩ : ∃ b, min (a + 1) top = b + 1 := ⟨min (a + 1) top - 1, by omega⟩
  rw [hb, rung]

/-- What is stored with a window ahead is found at once. -/
theorem Entry.live?_at_once {q : Quota} (valid : q.Valid) (value : ByteArray) {now : Nat}
    (h : now < Word.last) :
    (make value (some (Word.add now q.windowMs))).live? now = some value := by
  have ahead : ¬ now + q.windowMs ≤ now := by
    have := valid.windowMs_pos
    omega
  rw [live?_window valid value now h, if_neg ahead]

namespace TokenBucket

variable {q : Quota}

/-- The bucket after so many admissions at one instant. -/
def spent (q : Quota) (now a : Nat) : State := .bucket ⟨q.limit - a, now⟩

theorem spent_bounded (valid : q.Valid) {now : Nat} (h : now ≤ Word.last) (a : Nat) :
    (spent q now a).Bounded := by
  refine ⟨?_, h⟩
  have := valid.limit_le
  show q.limit - a ≤ Word.last
  omega

/-- A decision starts from the bucket that was left. -/
theorem start_rung (valid : q.Valid) {now : Nat} (h : now ≤ Word.last) (a : Nat) :
    start q (rung (spent q now) a) now = ⟨q.limit - a, now⟩ := by
  cases a with
  | zero =>
    simp only [start, rung, Bucket.full, Nat.min_self, Nat.sub_zero]
  | succ a =>
    simp only [start, rung]
    rw [spent, State.decodeBucket_encode (spent_bounded valid h (a + 1))]
    simp only [Nat.min_eq_left (Nat.sub_le q.limit (a + 1))]

/-- Settling takes the bucket one rung up. -/
theorem settled_now (q : Quota) (now : Nat) {a : Nat} (h : a ≤ q.limit) :
    settled ⟨q.limit - a, now⟩ now = ⟨q.limit - min (a + 1) q.limit, now⟩ := by
  rw [settled]
  by_cases empty : q.limit - a = 0
  · rw [if_pos empty, show min (a + 1) q.limit = a by omega]
  · rw [if_neg empty, spend, show min (a + 1) q.limit = a + 1 by omega]
    simp only [ite_self, Nat.sub_sub]

/-- Every admission leaves another bucket. -/
theorem spent_distinct (q : Quota) (now : Nat) {a b : Nat} (ha : a ≤ q.limit) (hb : b ≤ q.limit)
    (same : spent q now a = spent q now b) : a = b := by
  have tokens : q.limit - a = q.limit - b := by
    injection same with same
    exact congrArg Bucket.tokens same
  omega

/-- A decision at the same instant spends a token if there is one. -/
theorem decide_rung (valid : q.Valid) {now : Nat} (h : now < Word.last) {a : Nat}
    (ha : a ≤ q.limit) :
    ∃ entry d, TokenBucket.decide q (rung (spent q now) a) now = .ok (entry, d) ∧
      (d.allowed = true ↔ a < q.limit) ∧
      entry.live? now = rung (spent q now) (min (a + 1) q.limit) := by
  refine ⟨_, _, decide_eq valid _ now, ?_, ?_⟩
  · rw [verdict_allowed, start_rung valid (Nat.le_of_lt h), refilled_now valid]
    exact Nat.sub_pos_iff_lt
  · rw [start_rung valid (Nat.le_of_lt h), refilled_now valid, settled_now q now ha, entry,
      Entry.live?_at_once valid _ h, rung_next _ valid.limit_pos]
    rfl

/-- The ladder of the bucket: a token less on each rung. -/
def ladder (valid : q.Valid) {now : Nat} (h : now < Word.last) :
    Ladder (TokenBucket.decide q) now q.limit where
  state := spent q now
  bounded := fun a _ => spent_bounded valid (Nat.le_of_lt h) a
  distinct := fun _ ha _ hb => spent_distinct q now ha hb
  climbs := fun _ ha => decide_rung valid h ha

end TokenBucket

namespace SlidingLog

variable {q : Quota}

/-- The log after so many admissions at one instant. -/
def filled (now a : Nat) : State := .log ⟨List.replicate a now⟩

theorem filled_bounded {now : Nat} (h : now ≤ Word.last) (a : Nat) : (filled now a).Bounded := by
  intro t ht
  rw [List.eq_of_mem_replicate ht]
  exact h

/-- A decision starts from the log that was left. -/
theorem start_rung {now : Nat} (h : now ≤ Word.last) (a : Nat) :
    start (rung (filled now) a) = List.replicate a now := by
  cases a with
  | zero => rfl
  | succ a =>
    simp only [start, rung]
    rw [filled, State.decodeLog_encode (filled_bounded h (a + 1))]

/-- Everything that was admitted at this instant counts. -/
theorem counting_now (valid : q.Valid) {now : Nat} (h : 0 < now) {a : Nat} (ha : a ≤ q.limit) :
    counting q (List.replicate a now) now = List.replicate a now := by
  have inside : now - q.windowMs < now := Nat.sub_lt h valid.windowMs_pos
  have all : trailing q now (List.replicate a now) = List.replicate a now := by
    rw [trailing, List.filter_replicate, if_pos (decide_eq_true inside)]
  have few : (trailing q now (List.replicate a now)).length ≤ q.limit := by
    rw [all, List.length_replicate]
    exact ha
  rw [counting_eq_trailing (List.pairwise_replicate.mpr (.inr (Nat.le_refl now))) few, all]

/-- Every admission leaves another log. -/
theorem filled_distinct {now a b : Nat} (same : filled now a = filled now b) : a = b := by
  injection same with same
  have lengths := congrArg (List.length ∘ Log.instants) same
  simpa using lengths

/-- A decision at the same instant adds that instant if there is room. -/
theorem decide_rung (valid : q.Valid) {now : Nat} (positive : 0 < now) (h : now < Word.last)
    {a : Nat} (ha : a ≤ q.limit) :
    ∃ entry d, SlidingLog.decide q (rung (filled now) a) now = (entry, d) ∧
      (d.allowed = true ↔ a < q.limit) ∧
      entry.live? now = rung (filled now) (min (a + 1) q.limit) := by
  have counted : counting q (start (rung (filled now) a)) now = List.replicate a now := by
    rw [start_rung (Nat.le_of_lt h), counting_now valid positive ha]
  simp only [SlidingLog.decide, counted, List.length_replicate]
  by_cases full : q.limit ≤ a
  · rw [if_pos full]
    refine ⟨_, _, rfl, iff_of_false Bool.false_ne_true (Nat.not_lt.mpr full), ?_⟩
    rw [entry, Entry.live?_at_once valid _ h, rung_next _ valid.limit_pos,
      show min (a + 1) q.limit = a by omega]
    rfl
  · rw [if_neg full]
    refine ⟨_, _, rfl, iff_of_true rfl (Nat.lt_of_not_le full), ?_⟩
    rw [entry, Entry.live?_at_once valid _ h, rung_next _ valid.limit_pos,
      show min (a + 1) q.limit = a + 1 by omega, filled, List.replicate_succ']

/-- The ladder of the log: an instant more on each rung. -/
def ladder (valid : q.Valid) {now : Nat} (positive : 0 < now) (h : now < Word.last) :
    Ladder (fun stored now => .ok (SlidingLog.decide q stored now)) now q.limit where
  state := filled now
  bounded := fun a _ => filled_bounded (Nat.le_of_lt h) a
  distinct := fun _ _ _ _ => filled_distinct
  climbs := by
    intro a ha
    obtain ⟨entry, d, decided, rest⟩ := decide_rung valid positive h ha
    exact ⟨entry, d, congrArg Except.ok decided, rest⟩

end SlidingLog

/-- The ladder of a limiter. -/
def Limiter.ladder (l : Limiter) (valid : l.quota.Valid) {now : Nat} (positive : 0 < now)
    (h : now < Word.last) : Ladder l.decide now l.quota.limit :=
  match l, valid with
  | ⟨.tokenBucket, _, _⟩, valid => TokenBucket.ladder valid h
  | ⟨.slidingWindow, _, _⟩, valid => SlidingLog.ladder valid positive h

end Admission

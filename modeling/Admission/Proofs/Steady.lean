/-
# Admission.Proofs.Steady — what a limiter has stored itself can be trusted

A limiter that starts from a fresh key finds under it later what it has stored itself, and at no instant
before the one it was stored at. For such states two laws hold, of either algorithm.

*Lapsing loses nothing.* At the instant at which a stored state lapses, and at any later one, a decision
on that state is the decision on no state at all: a bucket has refilled to the brim, and no instant of a
log is in the window any more.

*A denial changes nothing.* It stores a state again, with another expiry and, in the case of a log,
without the instants that have left the window; but every later decision on the new state is the one that
would have been made on the old one.

`Steady` has the two laws, together with what is needed to apply them along a session. Only readings below
the last instant are looked at: an expiry that saturates is never reached then.
-/
import Admission.Proofs.Deciding
import Admission.Proofs.Session
import Admission.Proofs.SlidingLog.Exact
import Admission.Proofs.TokenBucket.Step

namespace Admission

/-- **A steady operation**: of the states that it stores itself neither the lapsing nor a denial makes
a difference to what it decides later. -/
structure Steady (operation : Update.Operation Decision) where
  /-- What it may have stored at an instant. -/
  own : Nat → Entry → Prop
  /-- What has just been stored has not lapsed. -/
  unexpired : ∀ {now e}, own now e → now < Word.last → e.expired now = false
  /-- A fresh key is admitted. -/
  first : ∀ {now}, now < Word.last →
    ∃ entry d, operation none now = .ok (entry, d) ∧ d.allowed = true ∧ own now entry
  /-- Whatever comes next is decided. -/
  next : ∀ {written now e}, own written e → written ≤ now → now < Word.last →
    ∃ entry d, operation (some e.value) now = .ok (entry, d) ∧ own now entry
  /-- A state that has lapsed is as good as none. -/
  lapse : ∀ {written t e}, own written e → e.expired t = true → t < Word.last →
    operation (some e.value) t = operation none t
  /-- A state that a denial has stored is as good as the one it was made on. -/
  deny : ∀ {written now t e entry d}, own written e → written ≤ now →
    operation (some e.value) now = .ok (entry, d) → d.allowed = false → now ≤ t → t < Word.last →
    operation (some entry.value) t = operation (some e.value) t

namespace Steady

variable {operation : Update.Operation Decision} {since now t : Nat} {e : Option Entry}

/-- There is nothing under the key, or what the operation has stored by an instant. -/
def Known (steady : Steady operation) (since : Nat) (e : Option Entry) : Prop :=
  ∀ x ∈ e, ∃ written ≤ since, steady.own written x

theorem known_none (steady : Steady operation) (since : Nat) : steady.Known since none := nofun

theorem Known.later {steady : Steady operation} (h : steady.Known since e) (le : since ≤ now) :
    steady.Known now e := by
  intro x hx
  obtain ⟨written, before, own⟩ := h x hx
  exact ⟨written, Nat.le_trans before le, own⟩

theorem known_some {steady : Steady operation} {x : Entry} (own : steady.own now x) :
    steady.Known now (some x) := by
  intro y hy
  cases hy
  exact ⟨now, Nat.le_refl now, own⟩

/-- **Lapsing loses nothing**: a decision is the same, whether or not what has lapsed can be seen. -/
theorem operation_live? {steady : Steady operation} (h : steady.Known since e)
    (ht : t < Word.last) :
    operation (e.bind (·.live? t)) t = operation (e.map Entry.value) t := by
  cases e with
  | none => rfl
  | some x =>
    obtain ⟨written, -, own⟩ := h x rfl
    simp only [Option.bind_some, Option.map_some, Entry.live?]
    cases lapsed : x.expired t with
    | false => rfl
    | true => exact (steady.lapse own lapsed ht).symm

/-- **Every decision** is made and stores what is known then; if it denies, every later decision is the
one that would have been made before. -/
theorem decided {steady : Steady operation} (h : steady.Known since e) (hsince : since ≤ now)
    (hlast : now < Word.last) :
    ∃ entry d, operation (e.map Entry.value) now = .ok (entry, d) ∧ steady.own now entry ∧
      (d.allowed = false → ∀ t, now ≤ t → t < Word.last →
        operation (some entry.value) t = operation (e.map Entry.value) t) := by
  cases e with
  | none =>
    obtain ⟨entry, d, decided, allowed, own⟩ := steady.first hlast
    refine ⟨entry, d, decided, own, fun denied => ?_⟩
    cases denied.symm.trans allowed
  | some x =>
    obtain ⟨written, before, mine⟩ := h x rfl
    have before : written ≤ now := Nat.le_trans before hsince
    obtain ⟨entry, d, decided, own⟩ := steady.next mine before hlast
    exact ⟨entry, d, decided, own, fun denied t => steady.deny mine before decided denied⟩

end Steady

namespace TokenBucket

variable {q : Quota} {b : Bucket} {written now t : Nat}

/-- A bucket that the limiter has stored at an instant. -/
structure Kept (q : Quota) (written : Nat) (b : Bucket) : Prop where
  /-- It was not refilled later than that. -/
  refilledAt_le : b.refilledAt ≤ written
  /-- It holds no more than the limit. -/
  tokens_le : b.tokens ≤ q.limit

theorem Kept.bounded (valid : q.Valid) (h : Kept q written b) (hwritten : written ≤ Word.last) :
    b.Bounded :=
  ⟨Nat.le_trans h.tokens_le valid.limit_le, Nat.le_trans h.refilledAt_le hwritten⟩

theorem kept_full (q : Quota) (now : Nat) : Kept q now (.full q.limit now) :=
  ⟨Nat.le_refl now, Nat.le_refl q.limit⟩

theorem Kept.refill (h : Kept q written b) (le : written ≤ now) : Kept q now (refilled q b now) := by
  refine ⟨?_, refilled_tokens_le h.tokens_le now⟩
  unfold TokenBucket.refilled
  split
  · exact Nat.le_refl now
  · exact Nat.le_trans h.refilledAt_le le

theorem Kept.settle (h : Kept q now b) : Kept q now (settled b now) := by
  refine ⟨?_, Nat.le_trans (settled_tokens_le b now) h.tokens_le⟩
  unfold TokenBucket.settled
  split
  · exact h.refilledAt_le
  · simp only [spend]
    split
    · exact Nat.le_refl now
    · exact h.refilledAt_le

/-- A decision starts from the bucket that was stored. -/
theorem Kept.start_eq (valid : q.Valid) (h : Kept q written b) (hwritten : written ≤ Word.last) :
    start q (some (State.bucket b).encode) t = b := by
  simp only [start]
  rw [State.decodeBucket_encode (h.bounded valid hwritten)]
  simp only [Nat.min_eq_left h.tokens_le]

/-- A decision on no state starts from a full bucket. -/
theorem start_none (q : Quota) (now : Nat) : start q none now = .full q.limit now := by
  simp only [start, Bucket.full, Nat.min_self]

/-- **A whole window refills a bucket to the brim**, whatever was left in it. -/
theorem Kept.refilled_window (valid : q.Valid) (h : Kept q written b)
    (passed : written + q.windowMs ≤ t) : refilled q b t = ⟨q.limit, t⟩ := by
  have elapsed : q.windowMs ≤ t - b.refilledAt := by
    have := h.refilledAt_le
    omega
  have earned : q.limit ≤ (t - b.refilledAt) * q.limit / q.windowMs := by
    rw [Nat.le_div_iff_mul_le valid.windowMs_pos, Nat.mul_comm]
    exact Nat.mul_le_mul_right q.limit elapsed
  have some_earned : q.windowMs ≤ (t - b.refilledAt) * q.limit :=
    Nat.le_trans elapsed (Nat.le_mul_of_pos_right _ valid.limit_pos)
  rw [refilled, if_pos some_earned, Nat.min_eq_right (by omega)]

/-- Whoever has earned a token is not denied. -/
theorem refilled_of_empty (valid : q.Valid) (empty : (refilled q b now).tokens = 0) :
    refilled q b now = b := by
  unfold refilled at empty ⊢
  split
  · next earned =>
    rw [if_pos earned] at empty
    have whole : 0 < (now - b.refilledAt) * q.limit / q.windowMs :=
      Nat.div_pos earned valid.windowMs_pos
    have := valid.limit_pos
    simp only at empty
    omega
  · rfl

/-- The entry of a bucket that the limiter has stored at an instant. -/
def Own (q : Quota) (written : Nat) (e : Entry) : Prop :=
  ∃ b, e = entry q b written ∧ Kept q written b

namespace Own

variable {e entry' : Entry} {d : Decision}

theorem unexpired (valid : q.Valid) (h : Own q now e) (hlast : now < Word.last) :
    e.expired now = false := by
  obtain ⟨b, rfl, -⟩ := h
  exact Entry.unexpired_window valid _ hlast

/-- A fresh key starts from a full bucket, from which a token is spent. -/
theorem first (valid : q.Valid) (now : Nat) :
    ∃ entry d, TokenBucket.decide q none now = .ok (entry, d) ∧ d.allowed = true ∧ Own q now entry := by
  refine ⟨_, _, decide_eq valid none now, ?_, _, rfl, ?_⟩
  · rw [verdict_allowed, start_none, Bucket.full, refilled_now valid]
    exact valid.limit_pos
  · rw [start_none]
    exact ((kept_full q now).refill (Nat.le_refl now)).settle

/-- A stored bucket is refilled and settled. -/
theorem next (valid : q.Valid) (h : Own q written e) (le : written ≤ now) (hlast : now < Word.last) :
    ∃ entry d, TokenBucket.decide q (some e.value) now = .ok (entry, d) ∧ Own q now entry := by
  obtain ⟨b, rfl, kept⟩ := h
  refine ⟨_, _, decide_eq valid _ now, _, rfl, ?_⟩
  rw [show (entry q b written).value = (State.bucket b).encode from rfl, kept.start_eq valid (by omega)]
  exact (kept.refill le).settle

/-- A bucket that has lapsed is full. -/
theorem lapse (valid : q.Valid) (h : Own q written e) (lapsed : e.expired t = true)
    (ht : t < Word.last) :
    TokenBucket.decide q (some e.value) t = TokenBucket.decide q none t := by
  obtain ⟨b, rfl, kept⟩ := h
  have passed := (Entry.expired_window valid _ written ht).mp lapsed
  rw [decide_eq valid, decide_eq valid, start_none, Bucket.full, refilled_now valid,
    show (entry q b written).value = (State.bucket b).encode from rfl,
    kept.start_eq valid (by omega), kept.refilled_window valid passed]

/-- After a denial the same bucket is stored again: nothing was earned, and nothing was spent. -/
theorem deny (valid : q.Valid) (h : Own q written e) (le : written ≤ now)
    (decided : TokenBucket.decide q (some e.value) now = .ok (entry', d)) (denied : d.allowed = false)
    (ht : now ≤ t) (hlast : t < Word.last) :
    TokenBucket.decide q (some entry'.value) t = TokenBucket.decide q (some e.value) t := by
  obtain ⟨b, rfl, kept⟩ := h
  have hstart : ∀ u, start q (some (entry q b written).value) u = b := fun u =>
    kept.start_eq valid (by omega)
  rw [decide_eq valid, hstart] at decided
  cases decided
  have empty : (refilled q b now).tokens = 0 := verdict_denied denied
  have same : settled (refilled q b now) now = b := by
    rw [settled, if_pos empty, refilled_of_empty valid empty]
  rw [same]
  rfl

end Own

/-- **The bucket is steady.** -/
def steady (valid : q.Valid) : Steady (TokenBucket.decide q) where
  own := Own q
  unexpired := Own.unexpired valid
  first _ := Own.first valid _
  next := Own.next valid
  lapse := Own.lapse valid
  deny := Own.deny valid

end TokenBucket

namespace SlidingLog

variable {q : Quota} {log : List Nat} {written now t : Nat}

/-- A log that the limiter has stored at an instant. -/
structure Kept (q : Quota) (written : Nat) (log : List Nat) : Prop where
  /-- It is in order. -/
  sorted : log.Pairwise (· ≤ ·)
  /-- It is not longer than the limit. -/
  few : log.length ≤ q.limit
  /-- Its instants are past. -/
  le : ∀ s ∈ log, s ≤ written

/-- What comes of a decision, given the instants that count. -/
def verdict (q : Quota) (log : List Nat) (now : Nat) : Entry × Decision :=
  if q.limit ≤ log.length then
    (entry q log now, ⟨false, standing q 0 now (some (.ofMillis (wait q log now)))⟩)
  else
    (entry q (log ++ [now]) now,
      ⟨true, standing q (q.limit - (log ++ [now]).length) now none⟩)

/-- **One decision**: count, and answer. -/
theorem decide_eq (q : Quota) (stored : Option ByteArray) (now : Nat) :
    SlidingLog.decide q stored now = verdict q (counting q (start stored) now) now := rfl

theorem decide_none (q : Quota) (now : Nat) : SlidingLog.decide q none now = verdict q [] now := by
  rw [decide_eq, start, counting_eq_trailing List.Pairwise.nil (Nat.zero_le _)]
  rfl

/-- A decision on a stored log counts its instants in the window. -/
theorem Kept.decide_eq (h : Kept q written log) (hwritten : written ≤ Word.last) (t : Nat) :
    SlidingLog.decide q (some (entry q log written).value) t = verdict q (trailing q t log) t := by
  have bounded : (⟨log⟩ : Log).Bounded := fun s hs => Nat.le_trans (h.le s hs) hwritten
  have few : (trailing q t log).length ≤ q.limit :=
    Nat.le_trans (List.length_filter_le _ _) h.few
  rw [SlidingLog.decide_eq, show (entry q log written).value = (State.log ⟨log⟩).encode from rfl,
    start]
  simp only [State.decodeLog_encode bounded, counting_eq_trailing h.sorted few]

theorem Kept.prune (h : Kept q written log) (le : written ≤ now) :
    Kept q now (trailing q now log) where
  sorted := h.sorted.sublist List.filter_sublist
  few := Nat.le_trans (List.length_filter_le _ _) h.few
  le s hs := Nat.le_trans (h.le s (List.mem_filter.mp hs).1) le

/-- A log with room for one more instant. -/
theorem Kept.concat (h : Kept q now log) (room : log.length < q.limit) : Kept q now (log ++ [now]) where
  sorted := List.pairwise_append.mpr
    ⟨h.sorted, List.pairwise_singleton _ _, by simpa using h.le⟩
  few := by
    rw [List.length_append, List.length_singleton]
    exact room
  le := by
    intro s hs
    rcases List.mem_append.mp hs with hs | hs
    · exact h.le s hs
    · exact Nat.le_of_eq (List.mem_singleton.mp hs)

/-- Whatever is answered, a log of the limiter is stored. -/
theorem Kept.stored (h : Kept q now log) :
    ∃ log', (verdict q log now).1 = entry q log' now ∧ Kept q now log' := by
  unfold verdict
  split
  · exact ⟨log, rfl, h⟩
  · next room => exact ⟨log ++ [now], rfl, h.concat (Nat.lt_of_not_le room)⟩

/-- The entry of a log that the limiter has stored at an instant. -/
def Own (q : Quota) (written : Nat) (e : Entry) : Prop :=
  ∃ log, e = entry q log written ∧ Kept q written log

namespace Own

variable {e entry' : Entry} {d : Decision}

theorem unexpired (valid : q.Valid) (h : Own q now e) (hlast : now < Word.last) :
    e.expired now = false := by
  obtain ⟨log, rfl, -⟩ := h
  exact Entry.unexpired_window valid _ hlast

/-- A fresh key starts from an empty log, in which there is room. -/
theorem first (valid : q.Valid) (now : Nat) :
    (SlidingLog.decide q none now).2.allowed = true ∧ Own q now (SlidingLog.decide q none now).1 := by
  have kept : Kept q now [] := ⟨List.Pairwise.nil, Nat.zero_le _, nofun⟩
  have room : ¬ q.limit ≤ ([] : List Nat).length := Nat.not_le.mpr valid.limit_pos
  rw [decide_none]
  refine ⟨?_, kept.stored⟩
  rw [verdict, if_neg room]

/-- A stored log is pruned, and takes the instant if there is room. -/
theorem next (h : Own q written e) (le : written ≤ now) (hlast : now < Word.last) :
    Own q now (SlidingLog.decide q (some e.value) now).1 := by
  obtain ⟨log, rfl, kept⟩ := h
  rw [kept.decide_eq (by omega)]
  exact (kept.prune le).stored

/-- A log that has lapsed counts nothing. -/
theorem lapse (valid : q.Valid) (h : Own q written e) (lapsed : e.expired t = true)
    (ht : t < Word.last) : SlidingLog.decide q (some e.value) t = SlidingLog.decide q none t := by
  obtain ⟨log, rfl, kept⟩ := h
  have passed := (Entry.expired_window valid _ written ht).mp lapsed
  rw [kept.decide_eq (by omega), decide_none, trailing_eq_nil kept.le passed]

/-- A denial stores what it has counted, and that counts the same later on. -/
theorem deny (h : Own q written e) (le : written ≤ now)
    (decided : SlidingLog.decide q (some e.value) now = (entry', d)) (denied : d.allowed = false)
    (ht : now ≤ t) (hlast : t < Word.last) :
    SlidingLog.decide q (some entry'.value) t = SlidingLog.decide q (some e.value) t := by
  obtain ⟨log, rfl, kept⟩ := h
  rw [kept.decide_eq (by omega)] at decided
  have stored : entry' = entry q (trailing q now log) now := by
    unfold verdict at decided
    split at decided
    · cases decided
      rfl
    · cases decided
      cases denied
  rw [stored, (kept.prune le).decide_eq (by omega), kept.decide_eq (by omega), trailing_trailing ht]

end Own

/-- **The log is steady.** -/
def steady (valid : q.Valid) : Steady fun stored now => .ok (SlidingLog.decide q stored now) where
  own := Own q
  unexpired := Own.unexpired valid
  first _ := ⟨_, _, rfl, Own.first valid _⟩
  next h le hlast := ⟨_, _, rfl, Own.next h le hlast⟩
  lapse h lapsed ht := congrArg Except.ok (Own.lapse valid h lapsed ht)
  deny h le decided denied ht hlast :=
    congrArg Except.ok (Own.deny h le (Except.ok.inj decided) denied ht hlast)

end SlidingLog

/-- **Every limiter is steady.** -/
def Limiter.steady (l : Limiter) (valid : l.quota.Valid) : Steady l.decide :=
  match l, valid with
  | ⟨.tokenBucket, _, _⟩, valid => TokenBucket.steady valid
  | ⟨.slidingWindow, _, _⟩, valid => SlidingLog.steady valid

end Admission

/-
# Admission.Proofs.Healing — a decision heals whatever was stored

What is under a limiter's key need not come from a limiter. It may be no state at all, the state of the
other algorithm, or a state that no limiter would have stored: more tokens than the limit, a log that is
too long or out of order, instants that lie in the future.

A decision takes it as it is and leaves something sound (`Limiter.heals`). It does not fail, it has no
fault in its arithmetic, and the state that it stores is one of its own algorithm that agrees with the
answer (`State.Accounts`): as many tokens as there are requests left, or a log of the requests that are
not left, all of them in the window. Bytes in which there is no state of the algorithm count for nothing.
-/
import Admission.Proofs.Faultless

namespace Admission

namespace State

variable {a : Algorithm} {bytes : ByteArray}

/-- In these bytes there is no state of the algorithm. -/
def Foreign (a : Algorithm) (bytes : ByteArray) : Prop :=
  ∀ s, decode bytes = .ok s → s.algorithm ≠ a

theorem decodeBucket_of_foreign (h : Foreign .tokenBucket bytes) :
    ∃ corruption, decodeBucket bytes = .error corruption := by
  cases decoded : decode bytes with
  | error corruption =>
    refine ⟨corruption, ?_⟩
    rw [decodeBucket, decoded]
    rfl
  | ok s =>
    cases s with
    | bucket b => exact absurd rfl (h _ decoded)
    | log l =>
      refine ⟨.mismatch .tokenBucket .slidingWindow, ?_⟩
      rw [decodeBucket, decoded]
      rfl

theorem decodeLog_of_foreign (h : Foreign .slidingWindow bytes) :
    ∃ corruption, decodeLog bytes = .error corruption := by
  cases decoded : decode bytes with
  | error corruption =>
    refine ⟨corruption, ?_⟩
    rw [decodeLog, decoded]
    rfl
  | ok s =>
    cases s with
    | log l => exact absurd rfl (h _ decoded)
    | bucket b =>
      refine ⟨.mismatch .slidingWindow .tokenBucket, ?_⟩
      rw [decodeLog, decoded]
      rfl

/-- **A state accounts for a decision** that it is stored with at an instant. A bucket holds the requests
that are left, of which there are none after a denial. A log has the requests that are not left, and
each of its instants is the present one or strictly after the start of the window; after a denial it is
full. -/
def Accounts (q : Quota) (now : Nat) (d : Decision) : State → Prop
  | .bucket b =>
    (d.allowed = true → b.tokens = d.standing.remaining ∧ d.standing.remaining < q.limit) ∧
      (d.allowed = false → b.tokens = 0 ∧ d.standing.remaining = 0)
  | .log l =>
    l.instants.length + d.standing.remaining = q.limit ∧
      (d.allowed = false → l.instants.length = q.limit) ∧
      ∀ s ∈ l.instants, s = now ∨ now - q.windowMs < s

end State

/-- **A sound outcome** of a decision at an instant: the entry lapses when the answer says, one window
ahead, and holds a state of the algorithm that accounts for the answer. -/
structure Sound (l : Limiter) (now : Nat) (entry : Entry) (d : Decision) : Prop where
  /-- The entry lapses one window ahead. -/
  expiresAt_eq : entry.expiresAt = some (min (now + l.quota.windowMs) Word.last)
  /-- The answer says so. -/
  resetAt_eq : d.standing.resetAt = min (now + l.quota.windowMs) Word.last
  /-- The entry holds a state that accounts for the answer. -/
  accounts : ∃ s, State.decode entry.value = .ok s ∧ s.algorithm = l.algorithm ∧
    s.Accounts l.quota now d

namespace TokenBucket

variable {q : Quota} {bytes : ByteArray} {now : Nat}

theorem start_of_foreign (h : State.Foreign .tokenBucket bytes) :
    start q (some bytes) now = start q none now := by
  obtain ⟨corruption, unread⟩ := State.decodeBucket_of_foreign h
  simp only [start, unread]

/-- Where there is no bucket a decision starts from a full one. -/
theorem decide_of_foreign (h : State.Foreign .tokenBucket bytes) :
    TokenBucket.decide q (some bytes) now = TokenBucket.decide q none now := by
  rw [TokenBucket.decide, TokenBucket.decide, start_of_foreign h]

theorem verdict_resetAt (q : Quota) (b : Bucket) (now : Nat) :
    (verdict q b now).standing.resetAt = Word.add now q.windowMs := by
  unfold verdict
  split
  · rfl
  · rfl

/-- A settled bucket accounts for the verdict on it. -/
theorem accounts_settled {b : Bucket} (tokens : b.tokens ≤ q.limit) (now : Nat) :
    (State.bucket (settled b now)).Accounts q now (verdict q b now) := by
  unfold settled verdict
  split
  · next empty => exact ⟨nofun, fun _ => ⟨empty, rfl⟩⟩
  · refine ⟨fun _ => ⟨rfl, ?_⟩, nofun⟩
    show b.tokens - 1 < q.limit
    omega

/-- **A bucket heals**, however it was forged. -/
theorem sound (valid : q.Valid) (retries : Nat) (stored : Option ByteArray) (h : now ≤ Word.last)
    {entry : Entry} {d : Decision} (decided : TokenBucket.decide q stored now = .ok (entry, d)) :
    Sound ⟨.tokenBucket, q, retries⟩ now entry d := by
  rw [decide_eq valid] at decided
  obtain ⟨rfl, rfl⟩ := Prod.mk.inj (Except.ok.inj decided)
  have tokens := refilled_tokens_le (start_tokens_le q stored now) now
  have bounded := refilled_bounded valid (start_bounded valid stored h) h
  refine ⟨?_, verdict_resetAt q _ now, _, ?_, rfl, accounts_settled tokens now⟩
  · rw [TokenBucket.entry, Entry.make_window valid]
    rfl
  · rw [TokenBucket.entry, Entry.make_window valid]
    exact State.decode_encode (s := .bucket _) (settled_bounded bounded h)

end TokenBucket

namespace SlidingLog

variable {q : Quota} {bytes : ByteArray} {now : Nat} {instants : List Nat}

theorem start_of_foreign (h : State.Foreign .slidingWindow bytes) : start (some bytes) = start none := by
  obtain ⟨corruption, unread⟩ := State.decodeLog_of_foreign h
  simp only [start, unread]

/-- Where there is no log a decision starts from an empty one. -/
theorem decide_of_foreign (h : State.Foreign .slidingWindow bytes) :
    SlidingLog.decide q (some bytes) now = SlidingLog.decide q none now := by
  rw [decide_eq, decide_eq, start_of_foreign h]

/-- A decision starts from a log within the ceiling, whatever was stored. -/
theorem start_bounded (stored : Option ByteArray) : ∀ s ∈ start stored, s ≤ Word.last := by
  unfold start
  split
  · exact nofun
  · split
    · next decoded => exact State.decodeLog_bounded decoded
    · exact nofun

/-- Whatever counts was in the log, and lies strictly after the start of the window. -/
theorem mem_counting {s : Nat} (h : s ∈ counting q instants now) :
    s ∈ instants ∧ now - q.windowMs < s := by
  unfold counting lastN at h
  have found := List.mem_filter.mp (List.mem_mergeSort.mp (List.mem_of_mem_drop h))
  exact ⟨found.1, of_decide_eq_true found.2⟩

/-- No more counts than the limit. -/
theorem length_counting_le (q : Quota) (instants : List Nat) (now : Nat) :
    (counting q instants now).length ≤ q.limit := by
  rw [counting, lastN, List.length_drop]
  omega

theorem verdict_resetAt (q : Quota) (log : List Nat) (now : Nat) :
    (verdict q log now).2.standing.resetAt = Word.add now q.windowMs := by
  unfold verdict
  split
  · rfl
  · rfl

/-- The log that is stored with a verdict accounts for it. -/
theorem accounts_verdict {log : List Nat} (few : log.length ≤ q.limit)
    (inside : ∀ s ∈ log, now - q.windowMs < s) :
    ∃ log', (verdict q log now).1 = entry q log' now ∧ (∀ s ∈ log', s ∈ log ∨ s = now) ∧
      (State.log ⟨log'⟩).Accounts q now (verdict q log now).2 := by
  unfold verdict
  split
  · next full =>
    have whole : log.length = q.limit := Nat.le_antisymm few full
    exact ⟨log, rfl, fun s hs => .inl hs, whole, fun _ => whole, fun s hs => .inr (inside s hs)⟩
  · next room =>
    have added : (log ++ [now]).length = log.length + 1 := List.length_append
    refine ⟨log ++ [now], rfl, fun s hs => ?_, ?_, nofun, fun s hs => ?_⟩
    · simpa using hs
    · show (log ++ [now]).length + (q.limit - (log ++ [now]).length) = q.limit
      omega
    · rcases List.mem_append.mp hs with hs | hs
      · exact .inr (inside s hs)
      · exact .inl (List.mem_singleton.mp hs)

/-- **A log heals**, however it was forged. -/
theorem sound (valid : q.Valid) (retries : Nat) (stored : Option ByteArray) (h : now ≤ Word.last) :
    Sound ⟨.slidingWindow, q, retries⟩ now (SlidingLog.decide q stored now).1
      (SlidingLog.decide q stored now).2 := by
  have counted : ∀ s ∈ counting q (start stored) now, s ∈ start stored ∧ now - q.windowMs < s :=
    fun s hs => mem_counting hs
  obtain ⟨log', stores, mem, accounts⟩ :=
    accounts_verdict (length_counting_le q (start stored) now) fun s hs => (counted s hs).2
  have bounded : (⟨log'⟩ : Log).Bounded := by
    intro s hs
    rcases mem s hs with hs | rfl
    · exact start_bounded stored s (counted s hs).1
    · exact h
  rw [decide_eq]
  refine ⟨?_, verdict_resetAt q _ now, .log ⟨log'⟩, ?_, rfl, accounts⟩
  · rw [stores, entry, Entry.make_window valid]
    rfl
  · rw [stores, entry, Entry.make_window valid]
    exact State.decode_encode (s := .log _) bounded

end SlidingLog

namespace Limiter

/-- **A decision heals any stored state.** Whatever is under the key, and whatever the clock reads, a
limiter with a checked quota decides, without a fault in its arithmetic, and the outcome is sound. If
what is stored is no state of its algorithm, entry and answer are those of a fresh key. -/
theorem heals (l : Limiter) (valid : l.quota.Valid) (stored : Option ByteArray) {now : Nat}
    (h : now ≤ Word.last) :
    ∃ entry d, l.decide? stored now = some (entry, d) ∧ l.decide stored now = .ok (entry, d) ∧
      Sound l now entry d ∧
      ((∀ bytes ∈ stored, State.Foreign l.algorithm bytes) → l.decide none now = .ok (entry, d)) := by
  obtain ⟨⟨entry, d⟩, faultless, decided⟩ := l.decide?_eq valid stored h
  refine ⟨entry, d, faultless, decided, ?_, fun foreign => ?_⟩
  · obtain ⟨algorithm, q, retries⟩ := l
    cases algorithm with
    | tokenBucket => exact TokenBucket.sound valid retries stored h decided
    | slidingWindow =>
      have outcome : SlidingLog.decide q stored now = (entry, d) := Except.ok.inj decided
      have sound := SlidingLog.sound valid retries stored h
      rwa [outcome] at sound
  · rw [← decided]
    cases stored with
    | none => rfl
    | some bytes =>
      have foreign := foreign bytes rfl
      obtain ⟨algorithm, q, retries⟩ := l
      cases algorithm with
      | tokenBucket => exact (TokenBucket.decide_of_foreign foreign).symm
      | slidingWindow => exact congrArg Except.ok (SlidingLog.decide_of_foreign foreign).symm

/-- Two requests per ten milliseconds, at 8, over a log that is out of order, too long, and ahead of its
time: two of its instants are kept, one of them in the future, and the request is denied. The state of a
bucket with all the tokens there can be counts for nothing. -/
theorem heals_forged :
    let l : Limiter := ⟨.slidingWindow, ⟨2, .ofMillis 10⟩, 0⟩
    let log := some (State.log ⟨[Word.last, 0, 7, 9, 8]⟩).encode
    let bucket := some (State.bucket ⟨Word.last, Word.last⟩).encode
    (l.quota.Valid ∧ 8 ≤ Word.last) ∧
      (∃ entry d, l.decide? log 8 = some (entry, d) ∧ l.decide log 8 = .ok (entry, d) ∧
        Sound l 8 entry d ∧ d.allowed = false ∧
        entry.value = (State.log ⟨[9, Word.last]⟩).encode) ∧
      ∃ entry d, l.decide? bucket 8 = some (entry, d) ∧ l.decide bucket 8 = .ok (entry, d) ∧
        Sound l 8 entry d ∧ l.decide none 8 = .ok (entry, d) := by
  intro l log bucket
  have valid : l.quota.Valid := ⟨by decide, by decide, by decide⟩
  have le : 8 ≤ Word.last := by decide
  have bounded : (⟨[Word.last, 0, 7, 9, 8]⟩ : Log).Bounded := by
    show ∀ s ∈ [Word.last, 0, 7, 9, 8], s ≤ Word.last
    decide
  have bounded' : (⟨Word.last, Word.last⟩ : Bucket).Bounded := ⟨Nat.le_refl _, Nat.le_refl _⟩
  have foreign : ∀ bytes ∈ bucket, State.Foreign l.algorithm bytes := by
    intro bytes hbytes s decoded
    obtain rfl : _ = bytes := Option.some.inj hbytes
    obtain rfl := Except.ok.inj ((State.decode_encode (s := .bucket _) bounded').symm.trans decoded)
    exact nofun
  have counted : SlidingLog.counting l.quota [Word.last, 0, 7, 9, 8] 8 = [9, Word.last] := by
    have inside : [Word.last, 0, 7, 9, 8].filter (8 - l.quota.windowMs < ·) = [Word.last, 7, 9, 8] := by
      decide
    have sorted : [Word.last, 7, 9, 8].mergeSort = [7, 8, 9, Word.last] := by
      simp [List.mergeSort, Word.last]
    rw [SlidingLog.counting, inside, sorted]
    rfl
  have denied : l.decide log 8 = .ok (SlidingLog.verdict l.quota [9, Word.last] 8) := by
    show Except.ok (SlidingLog.decide l.quota log 8) = _
    simp only [SlidingLog.decide_eq, SlidingLog.start, log, State.decodeLog_encode bounded, counted]
  obtain ⟨entry, d, faultless, decided, sound, -⟩ := heals l valid log le
  obtain ⟨entry', d', faultless', decided', sound', fresh⟩ := heals l valid bucket le
  obtain ⟨rfl, rfl⟩ := Prod.mk.inj (Except.ok.inj (denied.symm.trans decided))
  exact ⟨⟨valid, le⟩, ⟨_, _, faultless, decided, sound, rfl, rfl⟩,
    entry', d', faultless', decided', sound', fresh foreign⟩

end Limiter

end Admission

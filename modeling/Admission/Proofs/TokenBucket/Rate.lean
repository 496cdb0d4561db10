/-
# Admission.Proofs.TokenBucket.Rate — no stretch of time admits more than the rate allows

In any stretch of a session, from one request to another, the bucket admits at most its limit and the
tokens that the time in between is worth, rounded *up*. Rounding down would be wrong: a part of a token
that was earned before the stretch begins may be completed within it.

The proof weighs a token as a window's worth of time, so that nothing is divided. A bucket has a
`Budget` since an instant `base`: what it has admitted and what it still holds, together with the time
up to `base`, is no more than a full bucket and the time up to the instant its refill counts from. That
instant may lie in the future when the bytes were forged, so it counts up to the last write only.
Every decision keeps the budget: a refill pays for its tokens with the time it uses up, an expiry pays
for a full bucket with the window that has passed, and a reset of the clock gives time away.

The first decision of the stretch sets the budget up, whatever it found in the store: either it
refills, and time counts from now on, or less than one token's time had been left over.
-/
import Admission.Proofs.Session
import Admission.Proofs.TokenBucket.Step
import Mathlib.Algebra.Order.Floor.Div

namespace Admission.TokenBucket

variable {q : Quota}

/-! ## Budgets -/

/-- What `admitted` requests since `base` and the tokens of a bucket are covered by, when the bucket
was last written at `written`. -/
def Budget (q : Quota) (base admitted : Nat) (b : Bucket) (written : Nat) : Prop :=
  (admitted + b.tokens) * q.windowMs + base * q.limit ≤
    q.limit * q.windowMs + min b.refilledAt written * q.limit

/-- A budget lasts. -/
theorem Budget.later {base admitted written now : Nat} {b : Bucket}
    (h : Budget q base admitted b written) (le : written ≤ now) : Budget q base admitted b now := by
  have since : min b.refilledAt written * q.limit ≤ min b.refilledAt now * q.limit :=
    Nat.mul_le_mul_right _ (by omega)
  exact Nat.le_trans h (Nat.add_le_add_left since _)

/-- A refill pays with the time it uses up. -/
theorem Budget.refilled (valid : q.Valid) {base admitted written now : Nat} {b : Bucket}
    (h : Budget q base admitted b written) (le : written ≤ now) :
    Budget q base admitted (refilled q b now) now := by
  unfold TokenBucket.refilled
  split
  · next earned =>
    -- something was earned, so the last refill lies in the past even if the bytes were forged
    have hwindow := valid.windowMs_pos
    have before : b.refilledAt ≤ now := by
      by_contra ahead
      rw [Nat.sub_eq_zero_of_le (by omega), Nat.zero_mul] at earned
      omega
    have spent : (now - b.refilledAt) * q.limit + b.refilledAt * q.limit = now * q.limit := by
      rw [← Nat.add_mul, Nat.sub_add_cancel before]
    have whole := Nat.div_mul_le_self ((now - b.refilledAt) * q.limit) q.windowMs
    have tokens : min (b.tokens + (now - b.refilledAt) * q.limit / q.windowMs) q.limit *
        q.windowMs ≤ b.tokens * q.windowMs + (now - b.refilledAt) * q.limit := by
      refine Nat.le_trans (Nat.mul_le_mul_right _ (Nat.min_le_left _ _)) ?_
      rw [Nat.add_mul]
      omega
    have since : min b.refilledAt written * q.limit ≤ b.refilledAt * q.limit :=
      Nat.mul_le_mul_right _ (Nat.min_le_left _ _)
    simp only [Budget, Nat.add_mul, Nat.min_self] at h ⊢
    omega
  · exact h.later le

/-- An expiry pays for a full bucket with the window that has passed. -/
theorem Budget.lapsed {base admitted written now : Nat} {b : Bucket}
    (h : Budget q base admitted b written) (passed : written + q.windowMs ≤ now) :
    Budget q base admitted (.full q.limit now) now := by
  have since : min b.refilledAt written * q.limit ≤ written * q.limit :=
    Nat.mul_le_mul_right _ (Nat.min_le_right _ _)
  have window : (written + q.windowMs) * q.limit ≤ now * q.limit :=
    Nat.mul_le_mul_right _ passed
  rw [Nat.add_mul, Nat.mul_comm q.windowMs] at window
  simp only [Budget, Bucket.full, Nat.add_mul, Nat.min_self] at h ⊢
  omega

/-- An allowed request moves a token from the bucket to the admissions, and a reset of the clock gives
time away. -/
theorem Budget.settled {base admitted now : Nat} {b : Bucket}
    (h : Budget q base admitted b now) :
    Budget q base (admitted + if 0 < b.tokens then 1 else 0) (settled b now) now := by
  rw [TokenBucket.settled]
  by_cases empty : b.tokens = 0
  · rw [if_pos empty, if_neg (by omega)]
    exact h
  · have moved : admitted + 1 + (b.tokens - 1) = admitted + b.tokens := by omega
    have since : min b.refilledAt now * q.limit ≤ min (spend b now).refilledAt now * q.limit := by
      apply Nat.mul_le_mul_right
      simp only [spend]
      split
      · exact Nat.le_trans (Nat.min_le_right _ _) (Nat.le_of_eq (Nat.min_self _).symm)
      · exact Nat.le_refl _
    rw [if_neg empty, if_pos (by omega)]
    simp only [Budget] at h ⊢
    rw [show (spend b now).tokens = b.tokens - 1 from rfl, moved]
    omega

/-- The first decision sets a budget up, whatever was stored: less than one token's time is left over
from before. -/
theorem exists_budget (valid : q.Valid) {b : Bucket} (tokens : b.tokens ≤ q.limit) (now : Nat) :
    ∃ base ≤ now, (now - base) * q.limit < q.windowMs ∧
      Budget q base 0 (refilled q b now) now := by
  have hwindow := valid.windowMs_pos
  refine ⟨min (refilled q b now).refilledAt now, Nat.min_le_right _ _, ?_, ?_⟩
  · rw [refilled]
    split
    · rw [Nat.min_self, Nat.sub_self, Nat.zero_mul]
      exact hwindow
    · next none =>
      have same : now - min b.refilledAt now = now - b.refilledAt := by omega
      rw [same]
      omega
  · have held : (refilled q b now).tokens * q.windowMs ≤ q.limit * q.windowMs :=
      Nat.mul_le_mul_right _ (refilled_tokens_le tokens now)
    simp only [Budget, Nat.zero_add]
    omega

/-- What a budget says about the admissions alone. -/
theorem Budget.admitted_le (valid : q.Valid) {base admitted first now : Nat} {b : Bucket}
    (h : Budget q base admitted b now) (hbase : base ≤ first) (hfirst : first ≤ now)
    (left : (first - base) * q.limit < q.windowMs) :
    admitted ≤ q.limit + (now - first) * q.limit ⌈/⌉ q.windowMs := by
  have until_now : min b.refilledAt now * q.limit ≤ now * q.limit :=
    Nat.mul_le_mul_right _ (Nat.min_le_right _ _)
  have split : now * q.limit =
      (now - first) * q.limit + (first - base) * q.limit + base * q.limit := by
    rw [← Nat.add_mul, ← Nat.add_mul]
    congr 1
    omega
  have up : (now - first) * q.limit ≤ q.windowMs * ((now - first) * q.limit ⌈/⌉ q.windowMs) :=
    (ceilDiv_le_iff_le_mul valid.windowMs_pos).mp (Nat.le_refl _)
  -- weighed by the window, the admissions are less than one token above the bound
  have weighed : admitted * q.windowMs <
      (q.limit + (now - first) * q.limit ⌈/⌉ q.windowMs + 1) * q.windowMs := by
    rw [Nat.mul_comm q.windowMs] at up
    simp only [Budget, Nat.add_mul, Nat.one_mul] at h ⊢
    omega
  exact Nat.le_of_lt_succ (Nat.lt_of_mul_lt_mul_right weighed)

/-! ## Sessions -/

/-- The limiter that decides with a bucket. -/
def limiter (q : Quota) (retries : Nat) : Limiter := ⟨.tokenBucket, q, retries⟩

/-- A stored bucket with a budget, not written after `since`. -/
structure Paid (q : Quota) (base admitted : Nat) (e : Option Entry) (since : Nat) : Prop where
  /-- There is such a bucket. -/
  exists_bucket : ∃ b written, e = some (entry q b written) ∧ b.Bounded ∧ b.tokens ≤ q.limit ∧
    written ≤ since ∧ Budget q base admitted b written

/-- Settling a refilled bucket stores one with the budget that the answer leaves. -/
theorem paid_settled (valid : q.Valid) {base admitted now : Nat} {b : Bucket} (bounded : b.Bounded)
    (tokens : b.tokens ≤ q.limit) (hlast : now < Word.last)
    (budget : Budget q base admitted (refilled q b now) now) :
    Paid q base (admitted + if (verdict q (refilled q b now) now).allowed then 1 else 0)
      (some (entry q (settled (refilled q b now) now) now)) now := by
  have le : now ≤ Word.last := Nat.le_of_lt hlast
  refine ⟨settled (refilled q b now) now, now, rfl,
    settled_bounded (refilled_bounded valid bounded le) le,
    Nat.le_trans (settled_tokens_le _ _) (refilled_tokens_le tokens now), Nat.le_refl _, ?_⟩
  simp only [verdict_allowed]
  exact budget.settled

/-- **One decision** over a bucket with a budget leaves a bucket with a budget. -/
theorem Paid.decide (valid : q.Valid) {base admitted since now : Nat} {e : Option Entry}
    (paid : Paid q base admitted e since) (hsince : since ≤ now) (hlast : now < Word.last) :
    ∃ entry d, TokenBucket.decide q (e.bind (·.live? now)) now = .ok (entry, d) ∧
      Paid q base (admitted + if d.allowed then 1 else 0) (some entry) now := by
  obtain ⟨b, written, rfl, bounded, tokens, hwritten, budget⟩ := paid.exists_bucket
  have le : written ≤ now := Nat.le_trans hwritten hsince
  have hstart := start_entry valid bounded tokens written hlast
  refine ⟨_, _, decide_eq valid _ _, ?_⟩
  rw [Option.bind_some, hstart]
  split
  · next passed =>
    exact paid_settled valid ⟨valid.limit_le, Nat.le_of_lt hlast⟩ (Nat.le_refl _) hlast
      ((budget.lapsed passed).refilled valid (Nat.le_refl now))
  · exact paid_settled valid bounded tokens hlast (budget.refilled valid le)

/-- **The first decision** of a stretch, whatever it finds in the store. -/
theorem exists_paid (valid : q.Valid) (e : Option Entry) {now : Nat} (hlast : now < Word.last) :
    ∃ base ≤ now, (now - base) * q.limit < q.windowMs ∧
      ∃ entry d, TokenBucket.decide q (e.bind (·.live? now)) now = .ok (entry, d) ∧
        Paid q base (if d.allowed then 1 else 0) (some entry) now := by
  have tokens := start_tokens_le q (e.bind (·.live? now)) now
  have bounded := start_bounded valid (e.bind (·.live? now)) (Nat.le_of_lt hlast)
  obtain ⟨base, hbase, left, budget⟩ := exists_budget valid tokens now
  refine ⟨base, hbase, left, _, _, decide_eq valid _ _, ?_⟩
  have paid := paid_settled valid bounded tokens hlast budget
  rwa [Nat.zero_add] at paid

/-- **Every answer of a replay** leaves a bucket with a budget for the admissions up to it. -/
theorem replay_paid (valid : q.Valid) (retries : Nat) {instants : List Nat}
    (sorted : instants.Pairwise (· ≤ ·)) (within : ∀ t ∈ instants, t < Word.last)
    {base since : Nat} {done : List Answer} {e : Option Entry}
    (paid : Paid q base (Answer.admissions done).length e since) (later : ∀ t ∈ instants, since ≤ t)
    {before after : List Answer} {a : Answer}
    (h : (limiter q retries).replay e instants = before ++ a :: after) :
    ∃ entry, Paid q base (Answer.admissions (done ++ (before ++ [a]))).length (some entry)
      a.instant := by
  have step : ∀ e since answers now, Paid q base (Answer.admissions answers).length e since →
      since ≤ now → now < Word.last →
      ∃ entry d, (limiter q retries).decide (e.bind (·.live? now)) now = .ok (entry, d) ∧
        Paid q base (Answer.admissions (answers ++ [⟨now, .ok d⟩])).length (some entry) now := by
    intro e since answers now paid hsince hlast
    obtain ⟨entry, d, hdecide, paid'⟩ := paid.decide valid hsince hlast
    refine ⟨entry, d, hdecide, ?_⟩
    rw [Answer.admissions_append, List.length_append, Answer.length_admissions_cons_ok]
    exact paid'
  obtain ⟨e', since', -, -, -, entry, d, -, -, paid', -⟩ :=
    Limiter.replay_keeps
      (fun e since answers => Paid q base (Answer.admissions answers).length e since)
      step sorted within paid later h
  exact ⟨entry, paid'⟩

/-- The bound for a replay, from its first request to any other one. -/
theorem replay_rate (valid : q.Valid) (retries : Nat) {first : Nat} {rest : List Nat}
    (sorted : (first :: rest).Pairwise (· ≤ ·)) (within : ∀ t ∈ first :: rest, t < Word.last)
    (e : Option Entry) {before after : List Answer} {a : Answer}
    (h : (limiter q retries).replay e (first :: rest) = before ++ a :: after) :
    (Answer.admissions (before ++ [a])).length ≤
      q.limit + (a.instant - first) * q.limit ⌈/⌉ q.windowMs := by
  obtain ⟨base, hbase, left, entry, d, hdecide, paid⟩ :=
    exists_paid valid e (within first List.mem_cons_self)
  obtain ⟨next, sorted⟩ := List.pairwise_cons.mp sorted
  have hlimiter : (limiter q retries).decide (e.bind (·.live? first)) first = .ok (entry, d) :=
    hdecide
  have one : (Answer.admissions [⟨first, .ok d⟩]).length = if d.allowed then 1 else 0 :=
    Answer.length_admissions_cons_ok first d []
  simp only [Limiter.replay, hlimiter] at h
  cases before with
  | nil =>
    -- the first request alone: one admission at most
    obtain ⟨rfl, -⟩ := List.cons.inj h
    have := valid.limit_pos
    rw [List.nil_append, one]
    split <;> omega
  | cons b before =>
    obtain ⟨rfl, hrest⟩ := List.cons.inj h
    rw [← one] at paid
    have within' : ∀ t ∈ rest, t < Word.last := by
      intro t ht
      exact within t (List.mem_cons_of_mem first ht)
    obtain ⟨_, paid'⟩ := replay_paid valid retries sorted within' paid next hrest
    obtain ⟨b, written, -, -, -, hwritten, budget⟩ := paid'.exists_bucket
    have ha : a.instant ∈ rest := by
      rw [← (limiter q retries).replay_instants (some entry) rest, hrest]
      simp
    exact (budget.later hwritten).admitted_le valid hbase (next a.instant ha) left

theorem limiter_decides (valid : q.Valid) (retries : Nat) (stored : Option ByteArray) (now : Nat) :
    ∃ decided, (limiter q retries).decide stored now = .ok decided :=
  ⟨_, decide_eq valid stored now⟩

/-- **The rate bound.** In every session, over a store with anything at all under the key, every
request is answered, and every stretch of consecutive answers admits at most the limit and the tokens
of the time from its first request to its last one, rounded up. -/
theorem session_rate (valid : q.Valid) (retries : Nat) (key : String) (m : Memory)
    {occasions : List Occasion} (ordered : Occasion.Chronological occasions)
    (within : ∀ t ∈ Occasion.requests occasions, t < Word.last) :
    (∀ a ∈ (limiter q retries).serve key m occasions, ∃ d, a.outcome = .ok d) ∧
      ∀ before stretch after,
        (limiter q retries).serve key m occasions = before ++ stretch ++ after →
        ∀ first ∈ stretch.head?, ∀ last ∈ stretch.getLast?,
          (Answer.admissions stretch).length ≤
            q.limit + (last.instant - first.instant) * q.limit ⌈/⌉ q.windowMs := by
  rw [Limiter.serve_eq _ key m ordered]
  refine ⟨Limiter.replay_decides (limiter_decides valid retries) _ _, ?_⟩
  intro before stretch after h first hfirst last hlast
  have hinstants := (limiter q retries).replay_instants
    (m.table.get? ((limiter q retries).slot key)) (Occasion.requests occasions)
  rw [h, List.append_assoc, List.map_append] at hinstants
  rw [List.append_assoc] at h
  obtain ⟨e, hreplay⟩ := (limiter q retries).replay_drop _ _ h
  have sorted : ((stretch ++ after).map Answer.instant).Pairwise (· ≤ ·) := by
    have sorted := ordered.requests
    rw [← hinstants, List.pairwise_append] at sorted
    exact sorted.2.1
  have within : ∀ t ∈ (stretch ++ after).map Answer.instant, t < Word.last := by
    intro t ht
    apply within t
    rw [← hinstants]
    exact List.mem_append_right _ ht
  obtain ⟨init, rfl⟩ := List.getLast?_eq_some_iff.mp hlast
  obtain ⟨rest, hrest⟩ := List.head?_eq_some_iff.mp hfirst
  rw [hrest, List.cons_append, List.map_cons] at sorted within
  have hsplit : (limiter q retries).replay e (first.instant :: (rest ++ after).map Answer.instant) =
      init ++ last :: after := by
    rw [hrest, List.cons_append, List.map_cons] at hreplay
    rw [← hreplay, ← List.cons_append, ← hrest, List.append_assoc]
    rfl
  exact replay_rate valid retries sorted within e hsplit

/-- One request per three milliseconds, over bytes that are no state at all: a stretch with a denial
in it. -/
theorem session_rate_corrupted :
    let q : Quota := ⟨1, .ofMillis 3⟩
    let m : Memory := (Memory.bare .manual).set 0 ((limiter q 0).slot "k") (.persistent "?".toUTF8)
    let occasions : List Occasion := [.request 0, .request 2, .sweep 3, .request 3]
    (q.Valid ∧ Occasion.Chronological occasions ∧
      ∀ t ∈ Occasion.requests occasions, t < Word.last) ∧
    (∀ a ∈ (limiter q 0).serve "k" m occasions, ∃ d, a.outcome = .ok d) ∧
      ∀ before stretch after, (limiter q 0).serve "k" m occasions = before ++ stretch ++ after →
        ∀ first ∈ stretch.head?, ∀ last ∈ stretch.getLast?,
          (Answer.admissions stretch).length ≤
            q.limit + (last.instant - first.instant) * q.limit ⌈/⌉ q.windowMs := by
  intro q m occasions
  have valid : q.Valid := ⟨by decide, by decide, by decide⟩
  have ordered : Occasion.Chronological occasions := by
    show List.Pairwise _ _
    decide
  have within : ∀ t ∈ Occasion.requests occasions, t < Word.last := by decide
  exact ⟨⟨valid, ordered, within⟩, session_rate valid 0 "k" m ordered within⟩

end Admission.TokenBucket

/-
# Admission.Proofs.TokenBucket.Exhaustion — how an exhausted bucket refills

Whoever spends the last token sets the refill clock to now. From then on nothing of what happened before
matters: the bucket is empty since that instant (`exhausted_entry`), and stays so through every denial,
which writes the very same bucket down again (`replay_denied`). So at any later instant it has the whole
tokens of the time since its exhaustion, up to the limit, and this is also what it has if its entry has
lapsed by then, since a window refills it to the brim (`tokens_found`).

A burst at that instant gets exactly those tokens, the first requests of it one each. Nothing is said
about what was stored in the beginning: a forged bucket is as good as any once it has been exhausted.
-/
import Admission.Proofs.Countdown
import Admission.Proofs.Denials
import Admission.Proofs.TokenBucket.Rate

namespace Admission

/-- Whether the request was allowed and has left nothing. -/
def Answer.exhausts (a : Answer) : Bool :=
  match a.outcome with
  | .ok d => d.allowed && d.standing.remaining = 0
  | .error _ => false

namespace TokenBucket

variable {q : Quota} {now t : Nat}

/-- An empty bucket whose refill counts from an instant. -/
def emptied (t : Nat) : Bucket := ⟨0, t⟩

/-- The tokens that an empty bucket has after some time: whole ones, and no more than the limit. -/
def earned (q : Quota) (elapsed : Nat) : Nat := min q.limit (elapsed * q.limit / q.windowMs)

theorem emptied_bounded (h : t ≤ Word.last) : (emptied t).Bounded := ⟨Nat.zero_le _, h⟩

/-- **Whoever spends the last token** leaves a bucket that is empty since then. -/
theorem exhausted_entry (valid : q.Valid) {stored : Option ByteArray} {e : Entry} {d : Decision}
    (decided : TokenBucket.decide q stored now = .ok (e, d)) (allowed : d.allowed = true)
    (exhausted : d.standing.remaining = 0) : e = entry q (emptied now) now := by
  rw [decide_eq valid] at decided
  obtain ⟨rfl, rfl⟩ := Prod.mk.inj (Except.ok.inj decided)
  generalize refilled q (start q stored now) now = b at allowed exhausted ⊢
  have some_left : ¬ b.tokens = 0 := Nat.ne_of_gt ((verdict_allowed q b now).mp allowed)
  have last_one : b.tokens - 1 = 0 := by rw [← verdict_remaining q b now, exhausted]
  rw [settled, if_neg some_left, spend, if_pos last_one, last_one]
  rfl

/-- **The tokens of an exhausted bucket** are those of the time since it was exhausted, up to the limit,
whether or not its entry has lapsed. -/
theorem tokens_found (valid : q.Valid) {written : Nat} (since : t ≤ written) (ht : t ≤ Word.last)
    (hlast : now < Word.last) :
    (found q (some (entry q (emptied t) written)) now).tokens = earned q (now - t) := by
  have hstart := start_entry valid (emptied_bounded ht) (Nat.zero_le q.limit) written hlast
  rw [found, Option.bind_some, hstart]
  split
  · next passed =>
    -- the entry has lapsed, and a whole window has refilled the bucket
    have window : q.windowMs ≤ now - t := by omega
    have brim : q.limit ≤ (now - t) * q.limit / q.windowMs := by
      rw [Nat.le_div_iff_mul_le valid.windowMs_pos, Nat.mul_comm]
      exact Nat.mul_le_mul_right q.limit window
    rw [Bucket.full, refilled_now valid, earned, Nat.min_eq_left brim]
  · unfold refilled emptied earned
    split
    · rw [Nat.zero_add, Nat.min_comm]
    · next none =>
      rw [Nat.div_eq_of_lt (Nat.lt_of_not_le none), Nat.min_zero]

/-- A denial leaves an exhausted bucket as it is. -/
theorem denied_entry (valid : q.Valid) {written : Nat} (ht : t ≤ Word.last) (hlast : now < Word.last)
    {e : Entry} {d : Decision}
    (decided : TokenBucket.decide q ((entry q (emptied t) written).live? now) now = .ok (e, d))
    (denied : d.allowed = false) : e = entry q (emptied t) now := by
  rw [decide_eq valid] at decided
  obtain ⟨rfl, rfl⟩ := Prod.mk.inj (Except.ok.inj decided)
  have empty : (refilled q (start q ((entry q (emptied t) written).live? now) now) now).tokens = 0 :=
    verdict_denied denied
  rw [settled, if_pos empty, refilled_of_empty valid empty,
    start_entry valid (emptied_bounded ht) (Nat.zero_le q.limit) written hlast]
  split
  · next passed =>
    -- a lapsed entry would have been a full bucket
    rw [start_entry valid (emptied_bounded ht) (Nat.zero_le q.limit) written hlast, if_pos passed,
      Bucket.full, refilled_now valid] at empty
    exact absurd empty (Nat.ne_of_gt valid.limit_pos)
  · rfl

/-- **An exhausted bucket stays as it is** through any number of denials. -/
theorem replay_denied (valid : q.Valid) (retries : Nat) (ht : t ≤ Word.last) {written : Nat}
    (since : t ≤ written) {instants : List Nat} (after : ∀ u ∈ instants, t ≤ u)
    (within : ∀ u ∈ instants, u < Word.last) {between rest : List Answer}
    (h : (limiter q retries).replay (some (entry q (emptied t) written)) instants = between ++ rest)
    (denied : ∀ a ∈ between, a.denied = true) :
    ∃ written', t ≤ written' ∧ (limiter q retries).replay
      (some (entry q (emptied t) written')) (rest.map Answer.instant) = rest := by
  induction between generalizing written instants with
  | nil =>
    refine ⟨written, since, ?_⟩
    rw [List.nil_append] at h
    rw [← h, Limiter.replay_instants]
  | cons a between ih =>
    obtain ⟨refused, further⟩ := List.forall_mem_cons.mp denied
    cases instants with
    | nil => cases h
    | cons now instants =>
      obtain ⟨first, after⟩ := List.forall_mem_cons.mp after
      obtain ⟨hlast, within⟩ := List.forall_mem_cons.mp within
      obtain ⟨⟨e, d⟩, decided⟩ := limiter_decides valid retries
        ((some (entry q (emptied t) written)).bind (·.live? now)) now
      simp only [Limiter.replay, decided, List.cons_append] at h
      obtain ⟨rfl, tail⟩ := List.cons.inj h
      obtain rfl := denied_entry valid ht hlast decided (by simpa [Answer.denied] using refused)
      exact ih first after within tail further

/-! ## Sessions -/

/-- **Refill after exhaustion.** In every session, over a store with anything at all under the key, every
request is answered with a decision. Once a request has been allowed with nothing remaining, and only been
followed by denials, a burst at any later reading counts down from the tokens of the time in between: no
more than the limit, and as many as that time is worth, rounded down. So many of its requests are
allowed, and these are the first ones. -/
theorem refills_after_exhaustion (valid : q.Valid) (retries : Nat) (key : String) (m : Memory)
    {occasions : List Occasion} (ordered : Occasion.Chronological occasions)
    (within : ∀ t ∈ Occasion.requests occasions, t < Word.last) :
    ((limiter q retries).serve key m occasions).map Answer.instant = Occasion.requests occasions ∧
      (∀ a ∈ (limiter q retries).serve key m occasions, ∃ d, a.outcome = .ok d) ∧
      ∀ before a between burst after,
        (limiter q retries).serve key m occasions = before ++ a :: (between ++ (burst ++ after)) →
        a.exhausts = true → (∀ b ∈ between, b.denied = true) → ∀ t, (∀ b ∈ burst, b.instant = t) →
          Answer.CountDown (earned q (t - a.instant)) burst ∧
          burst.map Answer.admitted =
            List.replicate (min burst.length (earned q (t - a.instant))) true ++
              List.replicate (burst.length - earned q (t - a.instant)) false := by
  rw [Limiter.serve_eq _ key m ordered]
  refine ⟨Limiter.replay_instants _ _ _,
    Limiter.replay_decides (limiter_decides valid retries) _ _, ?_⟩
  intro before a between burst after h exhausts denied t still
  suffices counts : Answer.CountDown (earned q (t - a.instant)) burst from
    ⟨counts, counts.map_admitted⟩
  have step : ∀ (e : Option Entry) (since now : Nat), True → since ≤ now → now < Word.last →
      ∃ entry d, (limiter q retries).decide (e.bind (·.live? now)) now = .ok (entry, d) ∧ True := by
    intro e since now _ _ _
    exact ⟨_, _, decide_eq valid _ now, trivial⟩
  obtain ⟨e, since, -, -, hlast, entry, d, decided, outcome, -, rest⟩ :=
    Limiter.replay_reaches (fun _ _ => True) step ordered.requests within trivial
      (fun _ _ => Nat.zero_le _) h
  rw [outcome, Answer.exhausts, Bool.and_eq_true, decide_eq_true_eq] at exhausts
  obtain rfl := exhausted_entry valid decided exhausts.1 exhausts.2
  obtain ⟨later, -, within⟩ := Limiter.replay_after ordered.requests within h
  obtain ⟨written, since, rest⟩ := replay_denied valid retries (Nat.le_of_lt hlast)
    (Nat.le_refl a.instant) later within rest denied
  cases burst with
  | nil => exact .nil _
  | cons b burst =>
    have at_t : b.instant = t := still b List.mem_cons_self
    have ht : t < Word.last := by
      rw [← at_t]
      exact within b.instant (List.mem_map_of_mem (by simp))
    exact (countdown valid ht).burst (l := limiter q retries)
      (tokens_found valid since (Nat.le_of_lt hlast) ht) rest still

/-- Three requests per ten milliseconds, over a forged bucket with one token that was refilled in the
future. That token is spent at 5, and the two denials after it and the sweep change nothing: of three
requests at 12 two are allowed, since seven milliseconds are worth two tokens and a bit. -/
theorem refills_after_exhaustion_of_forged :
    let q : Quota := ⟨3, .ofMillis 10⟩
    let forged : State := .bucket ⟨1, Word.last⟩
    let m : Memory :=
      (Memory.bare .manual).set 0 ((limiter q 0).slot "k") (.persistent forged.encode)
    let occasions : List Occasion :=
      [.request 5, .request 6, .sweep 7, .request 8, .request 12, .request 12, .request 12]
    let answers := (limiter q 0).serve "k" m occasions
    (q.Valid ∧ Occasion.Chronological occasions ∧
        ∀ t ∈ Occasion.requests occasions, t < Word.last) ∧
      ∃ a between burst, answers = a :: (between ++ burst) ∧ a.exhausts = true ∧
        (∀ b ∈ between, b.denied = true) ∧ (∀ b ∈ burst, b.instant = 12) ∧
        a.instant = 5 ∧ between.length = 2 ∧ burst.map Answer.admitted = [true, true, false] := by
  intro q forged m occasions answers
  have valid : q.Valid := ⟨by decide, by decide, by decide⟩
  have ordered : Occasion.Chronological occasions := by
    show List.Pairwise _ _
    decide
  have within : ∀ t ∈ Occasion.requests occasions, t < Word.last := by decide
  obtain ⟨-, -, refills⟩ := refills_after_exhaustion valid 0 "k" m ordered within
  let signs (a : Answer) : Nat × Bool × Bool := (a.instant, a.exhausts, a.denied)
  have course : answers.map signs = (5, true, false) ::
      ([(6, false, true), (8, false, true)] ++
        [(12, false, false), (12, true, false), (12, false, true)]) := by
    decide +kernel
  obtain ⟨a, rest, split, first, course⟩ := List.map_eq_cons_iff.mp course
  obtain ⟨between, burst, rfl, middle, last⟩ := List.map_eq_append_iff.mp course
  obtain ⟨at_five, exhausts, -⟩ : a.instant = 5 ∧ a.exhausts = true ∧ a.denied = false := by
    simpa [signs] using first
  have denied : ∀ b ∈ between, b.denied = true := by
    have all : ∀ s ∈ between.map signs, s.2.2 = true := by
      rw [middle]
      decide
    exact fun b hb => all _ (List.mem_map_of_mem hb)
  have still : ∀ b ∈ burst, b.instant = 12 := by
    have all : ∀ s ∈ burst.map signs, s.1 = 12 := by
      rw [last]
      decide
    exact fun b hb => all _ (List.mem_map_of_mem hb)
  have two : between.length = 2 := by rw [← List.length_map signs, middle]; rfl
  have three : burst.length = 3 := by rw [← List.length_map signs, last]; rfl
  obtain ⟨-, allowed⟩ := refills [] a between burst [] (by rw [List.append_nil]; exact split)
    exhausts denied 12 still
  have worth : earned q (12 - 5) = 2 := by decide
  rw [at_five, three, worth] at allowed
  exact ⟨⟨valid, ordered, within⟩, a, between, burst, split, exhausts, denied, still, at_five, two,
    allowed⟩

end TokenBucket

end Admission

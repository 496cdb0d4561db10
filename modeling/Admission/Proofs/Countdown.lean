/-
# Admission.Proofs.Countdown — so many at once, and then no more

While the clock stands still a limiter counts down: what is under the key leaves room for so many
requests, each of them takes one away, and when there is room for none every further one is denied. A
`Countdown` says how much room an entry leaves, and that one request leaves one less; whatever the
entry, the answers to a burst then count down from there (`Countdown.burst`).

Either algorithm has one. For a bucket the room is in its tokens, once it has been refilled, and nothing
more is earned at the same instant (`refilled_settled`). For a log it is what the instants in the window
leave of the limit, and a new instant is in the window of its own instant. That is so at every reading
but 0, where the start of the window saturates: there a log never fills up
(`Limiter.log_never_fills_at_epoch`).
-/
import Admission.Proofs.Healing

namespace Admission

/-! ## A clock that stands still -/

namespace Occasion

variable {now : Nat} {occasions : List Occasion}

theorem chronological_of_still (still : ∀ o ∈ occasions, o.instant = now) :
    Chronological occasions := by
  apply List.Pairwise.map (R := fun o o' => o.instant = now ∧ o'.instant = now)
  · rintro o o' ⟨ho, ho'⟩
    exact Nat.le_of_eq (ho.trans ho'.symm)
  · exact List.pairwise_of_forall_mem_list fun o ho o' ho' => ⟨still o ho, still o' ho'⟩

theorem requests_of_still (still : ∀ o ∈ occasions, o.instant = now) :
    ∀ t ∈ requests occasions, t = now := by
  intro t ht
  obtain ⟨o, ho, rfl⟩ := List.mem_map.mp ((requests_sublist occasions).subset ht)
  exact still o ho

end Occasion

/-! ## Answers that count down -/

/-- Answers that count down: the first `left` requests are allowed and leave one less each time, and
every further one is denied and leaves none. -/
def Answer.CountDown (left : Nat) (answers : List Answer) : Prop :=
  ∀ i a, answers[i]? = some a → ∃ d, a.outcome = .ok d ∧ (d.allowed = true ↔ i < left) ∧
    d.standing.remaining = left - 1 - i

namespace Answer.CountDown

variable {left : Nat} {answers : List Answer}

theorem nil (left : Nat) : CountDown left [] := nofun

/-- One request takes one away. -/
theorem cons {now : Nat} {d : Decision} (allowed : d.allowed = true ↔ 0 < left)
    (remaining : d.standing.remaining = left - 1) (rest : CountDown (left - 1) answers) :
    CountDown left (⟨now, .ok d⟩ :: answers) := by
  intro i a ha
  cases i with
  | zero =>
    obtain rfl := Option.some.inj ha
    exact ⟨d, rfl, allowed, remaining⟩
  | succ i =>
    obtain ⟨d', outcome, allowed', remaining'⟩ := rest i a ha
    refine ⟨d', outcome, allowed'.trans ?_, remaining'.trans ?_⟩
    · omega
    · omega

/-- Those who are allowed come first, and they are as many as there is room for. -/
theorem map_admitted (h : CountDown left answers) :
    answers.map Answer.admitted =
      List.replicate (min answers.length left) true ++
        List.replicate (answers.length - left) false := by
  apply List.ext_getElem
  · simp only [List.length_map, List.length_append, List.length_replicate]
    omega
  · intro i hi _
    rw [List.length_map] at hi
    obtain ⟨d, outcome, allowed, -⟩ := h i answers[i] (List.getElem?_eq_getElem hi)
    have admitted : answers[i].admitted = d.allowed := by rw [Answer.admitted, outcome]
    rw [List.getElem_map, admitted, List.getElem_append]
    by_cases room : i < left
    · simp only [allowed.mpr room, List.length_replicate, List.getElem_replicate]
      rw [dif_pos (by omega)]
    · simp only [List.length_replicate, List.getElem_replicate]
      rw [dif_neg (by omega)]
      simpa using mt allowed.mp room

end Answer.CountDown

/-! ## Countdowns -/

/-- **A countdown** of an operation at an instant. -/
structure Countdown (operation : Update.Operation Decision) (now : Nat) where
  /-- An entry leaves room for so many requests. -/
  leaves : Option Entry → Nat → Prop
  /-- A request is allowed if there is room, and leaves room for one less. -/
  step : ∀ {e left}, leaves e left → ∃ entry d,
    operation (e.bind (·.live? now)) now = .ok (entry, d) ∧ (d.allowed = true ↔ 0 < left) ∧
      d.standing.remaining = left - 1 ∧ leaves (some entry) (left - 1)

/-- **A burst counts down** from the room that there is. -/
theorem Countdown.burst {l : Limiter} {now : Nat} (countdown : Countdown l.decide now)
    {e : Option Entry} {left : Nat} (leaves : countdown.leaves e left) {instants : List Nat}
    {burst after : List Answer} (h : l.replay e instants = burst ++ after)
    (still : ∀ a ∈ burst, a.instant = now) : Answer.CountDown left burst := by
  induction burst generalizing e left instants with
  | nil => exact .nil left
  | cons a burst ih =>
    obtain ⟨at_now, later⟩ := List.forall_mem_cons.mp still
    obtain ⟨entry, d, decided, allowed, remaining, leaves'⟩ := countdown.step leaves
    have all : instants = now :: (burst ++ after).map Answer.instant := by
      rw [← l.replay_instants e instants, h, List.cons_append, List.map_cons, at_now]
    simp only [all, Limiter.replay, decided, List.cons_append] at h
    obtain ⟨rfl, rest⟩ := List.cons.inj h
    exact .cons allowed remaining (ih leaves' rest later)

namespace TokenBucket

variable {q : Quota} {now : Nat}

/-- What a decision finds in the bucket. -/
def found (q : Quota) (e : Option Entry) (now : Nat) : Bucket :=
  refilled q (start q (e.bind (·.live? now)) now) now

theorem settled_tokens (b : Bucket) (now : Nat) : (settled b now).tokens = b.tokens - 1 := by
  unfold settled
  split
  · omega
  · rfl

/-- **Nothing more is earned at the same instant**, whatever part of a token was left over. -/
theorem refilled_settled (valid : q.Valid) (b : Bucket) (now : Nat) :
    refilled q (settled (refilled q b now) now) now = settled (refilled q b now) now := by
  by_cases earned : q.windowMs ≤ (now - b.refilledAt) * q.limit
  · rw [show refilled q b now = ⟨_, now⟩ from if_pos earned, settled, spend, ite_self]
    split
    · exact refilled_now valid _ now
    · exact refilled_now valid _ now
  · rw [show refilled q b now = b from if_neg earned, settled]
    split
    · exact if_neg earned
    · rw [spend]
      split
      · exact refilled_now valid _ now
      · exact if_neg earned

/-- The next decision at the same instant finds a token less. -/
theorem found_settled (valid : q.Valid) (e : Option Entry) (hlast : now < Word.last) :
    found q (some (entry q (settled (found q e now) now) now)) now = settled (found q e now) now := by
  have le : now ≤ Word.last := Nat.le_of_lt hlast
  have still : ¬ now + q.windowMs ≤ now := by
    have := valid.windowMs_pos
    omega
  have bounded : (found q e now).Bounded := refilled_bounded valid (start_bounded valid _ le) le
  have tokens : (found q e now).tokens ≤ q.limit := refilled_tokens_le (start_tokens_le q _ now) now
  rw [found, Option.bind_some, start_entry valid (settled_bounded bounded le)
    (Nat.le_trans (settled_tokens_le _ now) tokens) now hlast, if_neg still]
  exact refilled_settled valid _ now

theorem verdict_remaining (q : Quota) (b : Bucket) (now : Nat) :
    (verdict q b now).standing.remaining = b.tokens - 1 := by
  unfold verdict
  split
  · next empty =>
    rw [empty]
    rfl
  · rfl

/-- The countdown of the bucket: its tokens. -/
def countdown (valid : q.Valid) (hlast : now < Word.last) :
    Countdown (TokenBucket.decide q) now where
  leaves e left := (found q e now).tokens = left
  step := by
    intro e left tokens
    refine ⟨_, _, decide_eq valid _ now, ?_, ?_, ?_⟩
    · rw [verdict_allowed, ← tokens]
      rfl
    · rw [verdict_remaining, ← tokens]
      rfl
    · rw [← tokens, ← settled_tokens _ now]
      exact congrArg Bucket.tokens (found_settled valid e hlast)

theorem found_none (valid : q.Valid) (now : Nat) : found q none now = .full q.limit now := by
  rw [found, Option.bind_none, start_none]
  exact refilled_now valid _ now

end TokenBucket

namespace SlidingLog

variable {q : Quota} {now : Nat} {log : List Nat}

/-- What a decision finds in the log. -/
def found (q : Quota) (e : Option Entry) (now : Nat) : List Nat :=
  counting q (start (e.bind (·.live? now))) now

/-- As long as it is not longer than the limit, a log counts whole if its instants are all in the
window. -/
theorem length_counting (inside : ∀ s ∈ log, now - q.windowMs < s) (few : log.length ≤ q.limit) :
    (counting q log now).length = log.length := by
  have all : log.filter (now - q.windowMs < ·) = log :=
    List.filter_eq_self.mpr fun s hs => decide_eq_true (inside s hs)
  rw [counting, all, lastN, List.length_drop, List.length_mergeSort]
  omega

/-- The next decision at the same instant finds all of a log that was stored. -/
theorem length_found_entry (valid : q.Valid) (hlast : now < Word.last)
    (bounded : ∀ s ∈ log, s ≤ Word.last) (inside : ∀ s ∈ log, now - q.windowMs < s)
    (few : log.length ≤ q.limit) : (found q (some (entry q log now)) now).length = log.length := by
  have still : ¬ now + q.windowMs ≤ now := by
    have := valid.windowMs_pos
    omega
  rw [found, Option.bind_some, start_entry valid bounded hlast, if_neg still]
  exact length_counting inside few

/-- **One request**, when so many instants count, takes room away if there is any. -/
theorem verdict_counts (valid : q.Valid) (positive : 0 < now) (hlast : now < Word.last)
    (bounded : ∀ s ∈ log, s ≤ Word.last) (inside : ∀ s ∈ log, now - q.windowMs < s) {left : Nat}
    (room : log.length + left = q.limit) :
    ((verdict q log now).2.allowed = true ↔ 0 < left) ∧
      (verdict q log now).2.standing.remaining = left - 1 ∧
      (found q (some (verdict q log now).1) now).length + (left - 1) = q.limit := by
  unfold verdict
  split
  · next full =>
    obtain rfl : left = 0 := by omega
    have all := length_found_entry valid hlast bounded inside (by omega)
    exact ⟨iff_of_false Bool.false_ne_true (Nat.lt_irrefl 0), rfl, by rw [all]; exact room⟩
  · next fits =>
    have added : (log ++ [now]).length = log.length + 1 := List.length_append
    have bounded' : ∀ s ∈ log ++ [now], s ≤ Word.last :=
      List.forall_mem_append.mpr ⟨bounded, List.forall_mem_singleton.mpr (Nat.le_of_lt hlast)⟩
    -- here the reading must not be 0
    have inside' : ∀ s ∈ log ++ [now], now - q.windowMs < s :=
      List.forall_mem_append.mpr
        ⟨inside, List.forall_mem_singleton.mpr (Nat.sub_lt positive valid.windowMs_pos)⟩
    have all := length_found_entry valid hlast bounded' inside' (by omega)
    refine ⟨iff_of_true rfl (by omega), ?_, ?_⟩
    · show q.limit - (log ++ [now]).length = left - 1
      omega
    · show (found q (some (entry q (log ++ [now]) now)) now).length + (left - 1) = q.limit
      omega

/-- The countdown of the log: what it leaves of the limit. -/
def countdown (valid : q.Valid) (positive : 0 < now) (hlast : now < Word.last) :
    Countdown (fun stored now => .ok (SlidingLog.decide q stored now)) now where
  leaves e left := (found q e now).length + left = q.limit
  step := by
    intro e left room
    refine ⟨_, _, rfl, verdict_counts valid positive hlast ?_ ?_ room⟩
    · intro s hs
      exact start_bounded _ s (mem_counting hs).1
    · intro s hs
      exact (mem_counting hs).2

theorem found_none (q : Quota) (now : Nat) : found q none now = [] := by
  rw [found, Option.bind_none, start]
  exact counting_eq_trailing List.Pairwise.nil (Nat.zero_le _)

/-- The start of the window saturates, so that at the reading 0 no request of that instant counts. -/
theorem counting_at_epoch (q : Quota) : counting q [0] 0 = [] := by
  have outside : trailing q 0 [0] = [] :=
    List.filter_eq_nil_iff.mpr fun s hs => by simp [List.mem_singleton.mp hs]
  rw [counting_eq_trailing (List.pairwise_singleton _ 0) (by rw [outside]; exact Nat.zero_le _), outside]

/-- A decision at the reading 0 that finds nothing allows, and leaves nothing to be found there. -/
theorem decide_at_epoch (valid : q.Valid) {e : Option Entry} (nothing : found q e 0 = []) :
    SlidingLog.decide q (e.bind (·.live? 0)) 0 =
        (entry q [0] 0, ⟨true, standing q (q.limit - 1) 0 none⟩) ∧
      found q (some (entry q [0] 0)) 0 = [] := by
  constructor
  · have room : ¬ q.limit ≤ ([] : List Nat).length := Nat.not_le.mpr valid.limit_pos
    rw [decide_eq, ← found, nothing, verdict, if_neg room]
    rfl
  · have stays : ¬ 0 + q.windowMs ≤ 0 := by
      have := valid.windowMs_pos
      omega
    have bounded : ∀ s ∈ [0], s ≤ Word.last := by decide
    rw [found, Option.bind_some, start_entry valid bounded (by decide), if_neg stays]
    exact counting_at_epoch q

end SlidingLog

namespace Limiter

/-- **Every limiter counts down**, if it is not a log at the reading 0. -/
def countdown (l : Limiter) (valid : l.quota.Valid) {now : Nat}
    (positive : l.algorithm = .slidingWindow → 0 < now) (hlast : now < Word.last) :
    Countdown l.decide now :=
  match l, valid, positive with
  | ⟨.tokenBucket, _, _⟩, valid, _ => TokenBucket.countdown valid hlast
  | ⟨.slidingWindow, _, _⟩, valid, positive => SlidingLog.countdown valid (positive rfl) hlast

/-- A fresh key leaves room for as many requests as the limit. -/
theorem countdown_fresh (l : Limiter) (valid : l.quota.Valid) {now : Nat}
    (positive : l.algorithm = .slidingWindow → 0 < now) (hlast : now < Word.last) :
    (l.countdown valid positive hlast).leaves none l.quota.limit := by
  obtain ⟨algorithm, q, retries⟩ := l
  cases algorithm with
  | tokenBucket => exact congrArg Bucket.tokens (TokenBucket.found_none valid now)
  | slidingWindow =>
    show (SlidingLog.found q none now).length + q.limit = q.limit
    rw [SlidingLog.found_none]
    exact Nat.zero_add q.limit

/-- **The first requests are admitted, and then no more.** While the clock stands still, as many requests
for a fresh key are allowed as the limit says, with one less remaining each time, and every further one is
denied. For a log the clock must not stand at 0. -/
theorem burst_counts_down (l : Limiter) (valid : l.quota.Valid) (key : String) {m : Memory}
    (absent : m.table.get? (l.slot key) = none) {now : Nat} (hlast : now < Word.last)
    (positive : l.algorithm = .slidingWindow → 0 < now) {occasions : List Occasion}
    (still : ∀ o ∈ occasions, o.instant = now) :
    (l.serve key m occasions).map Answer.instant = Occasion.requests occasions ∧
      Answer.CountDown l.quota.limit (l.serve key m occasions) := by
  have instants := l.replay_instants none (Occasion.requests occasions)
  rw [l.serve_eq key m (Occasion.chronological_of_still still), absent]
  refine ⟨instants, (l.countdown valid positive hlast).burst
    (l.countdown_fresh valid positive hlast) (List.append_nil _).symm fun a ha => ?_⟩
  apply Occasion.requests_of_still still
  rw [← instants]
  exact List.mem_map_of_mem ha

/-- At the last reading before the ceiling, where the state never lapses any more: two requests are
allowed, and two are denied. -/
theorem burst_counts_down_at_ceiling :
    let l : Limiter := ⟨.slidingWindow, ⟨2, .ofMillis 10⟩, 0⟩
    let m : Memory := .bare (.requests 2)
    let now : Nat := Word.last - 1
    let occasions : List Occasion :=
      [.request now, .request now, .sweep now, .request now, .request now]
    (l.quota.Valid ∧ m.table.get? (l.slot "k") = none ∧ now < Word.last ∧ 0 < now ∧
        ∀ o ∈ occasions, o.instant = now) ∧
      (l.serve "k" m occasions).map Answer.instant = Occasion.requests occasions ∧
      Answer.CountDown l.quota.limit (l.serve "k" m occasions) := by
  intro l m now occasions
  have valid : l.quota.Valid := ⟨by decide, by decide, by decide⟩
  have still : ∀ o ∈ occasions, o.instant = now := by decide
  exact ⟨⟨valid, rfl, by decide, by decide, still⟩,
    burst_counts_down l valid "k" (m := m) rfl (by decide) (fun _ => by decide) still⟩

/-- **At the reading 0 a log never fills up.** While the clock stands there every request for a fresh key is
allowed, and one less than the limit remains each time. -/
theorem log_never_fills_at_epoch {q : Quota} (valid : q.Valid) (retries : Nat) (key : String) {m : Memory}
    (absent : m.table.get? ((⟨.slidingWindow, q, retries⟩ : Limiter).slot key) = none)
    {occasions : List Occasion} (still : ∀ o ∈ occasions, o.instant = 0) :
    ∀ a ∈ (⟨.slidingWindow, q, retries⟩ : Limiter).serve key m occasions,
      ∃ d, a.outcome = .ok d ∧ d.allowed = true ∧ d.standing.remaining = q.limit - 1 := by
  have ordered := Occasion.chronological_of_still still
  intro a ha
  rw [serve_eq _ key m ordered, absent] at ha
  obtain ⟨before, after, split⟩ := List.append_of_mem ha
  have step : ∀ e since now, SlidingLog.found q e 0 = [] → since ≤ now → now = 0 →
      ∃ entry d, (⟨.slidingWindow, q, retries⟩ : Limiter).decide (e.bind (·.live? now)) now =
        .ok (entry, d) ∧ SlidingLog.found q (some entry) 0 = [] := by
    rintro e since now nothing - rfl
    obtain ⟨decided, nothing⟩ := SlidingLog.decide_at_epoch valid nothing
    exact ⟨_, _, congrArg Except.ok decided, nothing⟩
  obtain ⟨e, -, nothing, -, at_epoch, entry, d, decided, made, -⟩ :=
    replay_reaches (fun e _ => SlidingLog.found q e 0 = []) step ordered.requests
      (Occasion.requests_of_still still) (SlidingLog.found_none q 0) (fun t _ => Nat.zero_le t) split
  have allowed := (SlidingLog.decide_at_epoch valid nothing).1
  rw [at_epoch] at decided
  obtain ⟨-, rfl⟩ := Prod.mk.inj (allowed.symm.trans (Except.ok.inj decided))
  exact ⟨_, congrArg Answer.outcome made, rfl, rfl⟩

/-- So of two requests at the reading 0 both are allowed, though the limit is one request per ten
milliseconds. The instant of the first is not strictly after the start of the window, which is 0. -/
theorem burst_exceeds_at_epoch :
    let l : Limiter := ⟨.slidingWindow, ⟨1, .ofMillis 10⟩, 0⟩
    let m : Memory := .bare .manual
    let occasions : List Occasion := [.request 0, .request 0]
    l.quota.Valid ∧ m.table.get? (l.slot "k") = none ∧ 0 < Word.last ∧
      (∀ o ∈ occasions, o.instant = 0) ∧
      (l.serve "k" m occasions).map Answer.admitted = [true, true] ∧
      ¬ Answer.CountDown l.quota.limit (l.serve "k" m occasions) := by
  intro l m occasions
  have admitted : (l.serve "k" m occasions).map Answer.admitted = [true, true] := by
    decide +kernel
  refine ⟨⟨by decide, by decide, by decide⟩, rfl, by decide, by decide, admitted, fun counts => ?_⟩
  have two : (l.serve "k" m occasions).length = 2 := by
    rw [← List.length_map (f := Answer.admitted), admitted]
    rfl
  have expected := counts.map_admitted
  rw [admitted, two] at expected
  exact absurd expected (by decide)

end Limiter

end Admission

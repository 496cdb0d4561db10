/-
# Admission.Proofs.Waiting — how long a denied caller has to wait

A denial tells its caller when to come back. That is the truth to the millisecond, and in both
directions: whoever comes earlier is denied, and the first one who does not is allowed, however many
were denied in between (`Limiter.retry_after_exact`).

The two algorithms find the wait in different ways, a bucket from the time that a token takes, rounded up,
and a log from its oldest instant; but both waits say of the state that the denial was made on from when
on it allows a request (`Steady.Awaits`). The denials that follow keep that state as good as it is, and
its lapsing changes nothing: these are the laws of a steady operation. So only the first denial has to be
looked at.
-/
import Admission.Proofs.Denials
import Mathlib.Algebra.Order.Floor.Div

namespace Admission

/-- **An entry that awaits an instant**: from now on, a request is allowed on it exactly from that instant
on. -/
def Steady.Awaits (operation : Update.Operation Decision) (since due : Nat) (e : Option Entry) : Prop :=
  ∀ t, since ≤ t → t < Word.last → ∃ entry d,
    operation (e.map Entry.value) t = .ok (entry, d) ∧ (d.allowed = true ↔ due ≤ t)

/-- After a denial the same instant is awaited as before it. -/
theorem Steady.Awaits.deny {operation : Update.Operation Decision} {steady : Steady operation}
    {since now due : Nat} {e : Option Entry} (awaits : Awaits operation since due e)
    (known : steady.Known since e) (hsince : since ≤ now) (hlast : now < Word.last) {entry : Entry}
    {d : Decision} (decided : operation (e.map Entry.value) now = .ok (entry, d))
    (denied : d.allowed = false) : Awaits operation now due (some entry) := by
  obtain ⟨entry', d', decided', -, same⟩ := Steady.decided known hsince hlast
  obtain ⟨rfl, rfl⟩ := Prod.mk.inj (Except.ok.inj (decided.symm.trans decided'))
  intro t ht hlast
  rw [Option.map_some, same denied t ht hlast]
  exact awaits t (Nat.le_trans hsince ht) hlast

/-- What a denial at an instant says about the entry it was made on: when to come back, no earlier than
in a millisecond and no later than in a window. -/
def Steady.Retry (operation : Update.Operation Decision) (q : Quota) (now : Nat) (e : Entry)
    (d : Decision) : Prop :=
  ∃ r, d.standing.retryAfter = some (.ofMillis r) ∧ 1 ≤ r ∧ r ≤ q.windowMs ∧
    Awaits operation now (now + r) (some e)

/-- A wait until an instant which lies ahead, and at which the clock may never arrive. -/
theorem Word.add_wait {a b now : Nat} (hlast : now < last) (ahead : now < a + b) :
    1 ≤ add a b - now ∧ ∀ t < last, now + (add a b - now) ≤ t ↔ a + b ≤ t := by
  have later : now < add a b := (lt_add hlast).mpr ahead
  refine ⟨by omega, fun t ht => ?_⟩
  rw [← add_le_iff (a := a) (b := b) ht]
  omega

namespace TokenBucket

variable {q : Quota} {b : Bucket} {written now t : Nat}

/-- A token takes so many milliseconds that they earn one, and not one millisecond more. -/
theorem period_le_iff (valid : q.Valid) {ms : Nat} : period q ≤ ms ↔ q.windowMs ≤ ms * q.limit := by
  have up : (q.windowMs + q.limit - 1) / q.limit ≤ ms ↔ q.windowMs ≤ q.limit * ms := by
    rw [← Nat.ceilDiv_eq_add_pred_div]
    exact ceilDiv_le_iff_le_mul valid.limit_pos
  rw [period, Nat.max_le, up, Nat.mul_comm]
  refine and_iff_left_of_imp fun earns => ?_
  have := valid.windowMs_pos
  rcases Nat.eq_zero_or_pos ms with rfl | positive
  · omega
  · exact positive

/-- A token takes a window at most. -/
theorem period_le_windowMs (valid : q.Valid) : period q ≤ q.windowMs :=
  (period_le_iff valid).mpr (Nat.le_mul_of_pos_right _ valid.limit_pos)

/-- An empty bucket has a token again as soon as the time of one has passed. -/
theorem refilled_of_no_tokens (valid : q.Valid) (empty : b.tokens = 0) :
    0 < (refilled q b t).tokens ↔ period q ≤ t - b.refilledAt := by
  rw [period_le_iff valid]
  have hlimit := valid.limit_pos
  unfold refilled
  split
  · next earned =>
    have whole : 0 < (t - b.refilledAt) * q.limit / q.windowMs :=
      Nat.div_pos earned valid.windowMs_pos
    refine iff_of_true ?_ earned
    show 0 < min (b.tokens + (t - b.refilledAt) * q.limit / q.windowMs) q.limit
    omega
  · next none => exact iff_of_false (by omega) none

/-- **A denied caller of a bucket** is told when there will be a token. -/
theorem Own.retry (valid : q.Valid) {e entry' : Entry} {d : Decision} (h : Own q written e)
    (le : written ≤ now) (hlast : now < Word.last)
    (decided : TokenBucket.decide q (some e.value) now = .ok (entry', d))
    (denied : d.allowed = false) : Steady.Retry (TokenBucket.decide q) q now e d := by
  obtain ⟨b, rfl, kept⟩ := h
  have past : b.refilledAt ≤ written := kept.refilledAt_le
  have hstart : ∀ u, start q (some (entry q b written).value) u = b := fun u =>
    kept.start_eq valid (by omega)
  rw [decide_eq valid, hstart] at decided
  obtain ⟨-, rfl⟩ := Prod.mk.inj (Except.ok.inj decided)
  have nothing : (refilled q b now).tokens = 0 := verdict_denied denied
  have same : refilled q b now = b := refilled_of_empty valid nothing
  rw [same] at nothing ⊢
  -- less than a token's time has passed, and a token takes a window at most
  have early : ¬ period q ≤ now - b.refilledAt := by
    rw [← refilled_of_no_tokens valid nothing, same, nothing]
    exact Nat.lt_irrefl 0
  have short := period_le_windowMs valid
  obtain ⟨positive, due⟩ := Word.add_wait (a := b.refilledAt) (b := period q) hlast (by omega)
  refine ⟨Word.add b.refilledAt (period q) - now, ?_, positive, ?_, fun t ht hlast => ?_⟩
  · rw [verdict, if_pos nothing]
    rfl
  · have : Word.add b.refilledAt (period q) ≤ b.refilledAt + period q := Nat.min_le_left _ _
    omega
  · refine ⟨_, _, decide_eq valid (some (entry q b written).value) t, ?_⟩
    rw [verdict_allowed, hstart, refilled_of_no_tokens valid nothing, due t hlast]
    omega

end TokenBucket

namespace SlidingLog

variable {q : Quota} {log : List Nat} {written now t : Nat}

theorem verdict_allowed (q : Quota) (log : List Nat) (now : Nat) :
    (verdict q log now).2.allowed = true ↔ log.length < q.limit := by
  unfold verdict
  split
  · next full => exact iff_of_false Bool.false_ne_true (Nat.not_lt.mpr full)
  · next room => exact iff_of_true rfl (Nat.lt_of_not_le room)

/-- A log in order loses an instant from the window as soon as its oldest one is a window ago. -/
theorem length_trailing_lt {oldest : Nat} {rest : List Nat}
    (sorted : (oldest :: rest).Pairwise (· ≤ ·)) (positive : 0 < oldest) :
    (trailing q t (oldest :: rest)).length < (oldest :: rest).length ↔ oldest + q.windowMs ≤ t := by
  rw [trailing, List.length_filter_lt_length_iff_exists]
  constructor
  · rintro ⟨s, hs, outside⟩
    have first : oldest ≤ s := by
      rcases List.mem_cons.mp hs with rfl | hs
      · exact Nat.le_refl s
      · exact (List.pairwise_cons.mp sorted).1 s hs
    simp only [decide_eq_true_eq] at outside
    omega
  · intro passed
    refine ⟨oldest, List.mem_cons_self, ?_⟩
    simp only [decide_eq_true_eq]
    omega

/-- **A denied caller of a log** is told when its oldest instant will leave the window. -/
theorem Own.retry (valid : q.Valid) {e entry' : Entry} {d : Decision} (h : Own q written e)
    (le : written ≤ now) (hlast : now < Word.last)
    (decided : SlidingLog.decide q (some e.value) now = (entry', d)) (denied : d.allowed = false) :
    Steady.Retry (fun stored now => .ok (SlidingLog.decide q stored now)) q now e d := by
  obtain ⟨log, rfl, kept⟩ := h
  have hdecide : ∀ u, SlidingLog.decide q (some (entry q log written).value) u =
      verdict q (trailing q u log) u := fun u => kept.decide_eq (by omega) u
  rw [hdecide] at decided
  obtain rfl : (verdict q (trailing q now log) now).2 = d := congrArg Prod.snd decided
  have full : q.limit ≤ (trailing q now log).length := by
    by_contra room
    rw [(verdict_allowed q _ now).mpr (Nat.lt_of_not_le room)] at denied
    cases denied
  -- the log has no more than the limit, so all of it is in the window
  have whole : trailing q now log = log :=
    List.filter_sublist.eq_of_length_le (Nat.le_trans kept.few full)
  rw [whole] at full ⊢
  have length_eq : log.length = q.limit := Nat.le_antisymm kept.few full
  obtain ⟨oldest, rest, rfl⟩ : ∃ oldest rest, log = oldest :: rest := by
    cases log with
    | nil => exact absurd length_eq (Nat.ne_of_lt valid.limit_pos)
    | cons oldest rest => exact ⟨oldest, rest, rfl⟩
  have inside : now - q.windowMs < oldest := by
    have counted : oldest ∈ trailing q now (oldest :: rest) := by
      rw [whole]
      exact List.mem_cons_self
    exact of_decide_eq_true (List.mem_filter.mp counted).2
  have past : oldest ≤ now := Nat.le_trans (kept.le oldest List.mem_cons_self) le
  obtain ⟨positive, due⟩ := Word.add_wait (a := oldest) (b := q.windowMs) hlast (by omega)
  refine ⟨Word.add oldest q.windowMs - now, ?_, positive, ?_, fun t ht hlast => ?_⟩
  · rw [verdict, if_pos full]
    rfl
  · have : Word.add oldest q.windowMs ≤ oldest + q.windowMs := Nat.min_le_left _ _
    omega
  · refine ⟨_, (verdict q (trailing q t (oldest :: rest)) t).2, congrArg Except.ok (hdecide t), ?_⟩
    rw [verdict_allowed, ← length_eq, length_trailing_lt kept.sorted (by omega), due t hlast]

end SlidingLog

namespace Limiter

variable {l : Limiter}

/-- **Every denial tells when to come back**, if it was made on a state that the limiter has stored. -/
theorem retry (l : Limiter) (valid : l.quota.Valid) {written now : Nat} {e entry' : Entry} {d : Decision}
    (own : (l.steady valid).own written e) (le : written ≤ now) (hlast : now < Word.last)
    (decided : l.decide (some e.value) now = .ok (entry', d)) (denied : d.allowed = false) :
    Steady.Retry l.decide l.quota now e d := by
  obtain ⟨algorithm, q, retries⟩ := l
  cases algorithm with
  | tokenBucket => exact TokenBucket.Own.retry valid own le hlast decided denied
  | slidingWindow =>
    exact SlidingLog.Own.retry valid own le hlast (Except.ok.inj decided) denied

/-- **Nobody is early, and nobody is late.** In a replay from an entry that awaits an instant every request
before it is denied, and the first one that is not before it is allowed. -/
theorem replay_awaits (steady : Steady l.decide) {since due : Nat} {e : Option Entry}
    (known : steady.Known since e) (awaits : Steady.Awaits l.decide since due e) {instants : List Nat}
    (sorted : instants.Pairwise (· ≤ ·)) (after : ∀ t ∈ instants, since ≤ t)
    (within : ∀ t ∈ instants, t < Word.last) :
    (∀ a ∈ l.replay e instants, a.instant < due → a.denied = true) ∧
      ∀ a ∈ (l.replay e instants).find? (due ≤ ·.instant), a.admitted = true := by
  induction instants generalizing since e with
  | nil => exact ⟨nofun, nofun⟩
  | cons now instants ih =>
    obtain ⟨next, sorted⟩ := List.pairwise_cons.mp sorted
    obtain ⟨hsince, -⟩ := List.forall_mem_cons.mp after
    obtain ⟨hlast, within⟩ := List.forall_mem_cons.mp within
    obtain ⟨entry, d, decided, own, -⟩ := Steady.decided known hsince hlast
    obtain ⟨entry', d', decided', allowed⟩ := awaits now hsince hlast
    obtain ⟨rfl, rfl⟩ := Prod.mk.inj (Except.ok.inj (decided.symm.trans decided'))
    have seen : l.decide (e.bind (·.live? now)) now = .ok (entry, d) := by
      rw [Steady.operation_live? known hlast, decided]
    simp only [replay, seen]
    by_cases early : now < due
    · -- a denial, after which the same is awaited
      have denied : d.allowed = false := by
        rw [← Bool.not_eq_true, allowed]
        omega
      obtain ⟨before, first⟩ := ih (Steady.known_some own)
        (awaits.deny known hsince hlast decided denied) sorted next within
      refine ⟨List.forall_mem_cons.mpr ⟨fun _ => ?_, before⟩, ?_⟩
      · simp [Answer.denied, denied]
      · rw [List.find?_cons_of_neg (by simpa using early)]
        exact first
    · have due_now : due ≤ now := Nat.le_of_not_lt early
      refine ⟨List.forall_mem_cons.mpr ⟨fun h => absurd h early, fun a ha h => ?_⟩, ?_⟩
      · -- nobody comes before the due instant any more
        have made : a.instant ∈ instants := by
          rw [← l.replay_instants (some entry) instants]
          exact List.mem_map_of_mem ha
        have := next a.instant made
        omega
      · rw [List.find?_cons_of_pos (by simpa using due_now)]
        intro a ha
        obtain rfl := Option.some.inj ha
        exact allowed.mpr due_now

/-- **The wait of a denial is exact.** In every session that begins with a fresh key, every request is
answered with a decision. A denied caller is told to wait at least a millisecond and at most a window;
every later request before the wait is over is denied, and the first later request that is not before
that is allowed. -/
theorem retry_after_exact (l : Limiter) (valid : l.quota.Valid) (key : String) {m : Memory}
    (absent : m.table.get? (l.slot key) = none) {occasions : List Occasion}
    (ordered : Occasion.Chronological occasions)
    (within : ∀ t ∈ Occasion.requests occasions, t < Word.last) :
    (l.serve key m occasions).map Answer.instant = Occasion.requests occasions ∧
      (∀ a ∈ l.serve key m occasions, ∃ d, a.outcome = .ok d) ∧
      ∀ before a after, l.serve key m occasions = before ++ a :: after →
        ∀ d, a.outcome = .ok d → d.allowed = false →
          ∃ r, d.standing.retryAfter = some (.ofMillis r) ∧ 1 ≤ r ∧ r ≤ l.quota.windowMs ∧
            (∀ b ∈ after, b.instant < a.instant + r → b.denied = true) ∧
            ∀ b ∈ after.find? (a.instant + r ≤ ·.instant), b.admitted = true := by
  rw [l.serve_eq key m ordered, absent]
  refine ⟨l.replay_instants _ _, replay_decides (l.decides valid) _ _, ?_⟩
  intro before a after h d outcome denied
  have step : ∀ e since now, (l.steady valid).Known since e → since ≤ now → now < Word.last →
      ∃ entry d, l.decide (e.bind (·.live? now)) now = .ok (entry, d) ∧
        (l.steady valid).Known now (some entry) := by
    intro e since now known hsince hlast
    obtain ⟨entry, d, decided, own, -⟩ := Steady.decided known hsince hlast
    rw [← Steady.operation_live? known hlast] at decided
    exact ⟨entry, d, decided, Steady.known_some own⟩
  obtain ⟨e, since, known, hsince, hlast, entry, d', decided, made, stored, rest⟩ :=
    replay_reaches (fun e since => (l.steady valid).Known since e) step ordered.requests within
      ((l.steady valid).known_none 0) (fun _ _ => Nat.zero_le _) h
  obtain rfl : d' = d := Except.ok.inj ((congrArg Answer.outcome made).symm.trans outcome)
  rw [Steady.operation_live? known hlast] at decided
  obtain ⟨later, sorted, within⟩ := replay_after ordered.requests within h
  cases e with
  | none =>
    -- nobody is denied on a fresh key
    obtain ⟨entry', d', decided', allowed, -⟩ := (l.steady valid).first hlast
    obtain ⟨-, rfl⟩ := Prod.mk.inj (Except.ok.inj (decided.symm.trans decided'))
    cases denied.symm.trans allowed
  | some e =>
    obtain ⟨written, before, own⟩ := known e rfl
    obtain ⟨r, retryAfter, positive, short, awaits⟩ :=
      l.retry valid own (Nat.le_trans before hsince) hlast decided denied
    have awaits' := awaits.deny (known.later hsince) (Nat.le_refl _) hlast decided denied
    have waits := replay_awaits (l.steady valid) stored awaits' sorted later within
    rw [rest] at waits
    exact ⟨r, retryAfter, positive, short, waits⟩

/-- Three requests per ten milliseconds, which are spent at once. A token takes four milliseconds, rounded
up, so the denial at 1 says to wait for three: the request at 3 is denied, and of the two at 4 the first
one is allowed. -/
theorem retry_after_exact_of_bucket :
    let l : Limiter := ⟨.tokenBucket, ⟨3, .ofMillis 10⟩, 0⟩
    let m : Memory := .bare .manual
    let occasions : List Occasion :=
      [.request 0, .request 0, .request 0, .request 1, .sweep 2, .request 3, .request 4, .request 4]
    let answers := l.serve "k" m occasions
    (l.quota.Valid ∧ m.table.get? (l.slot "k") = none ∧ Occasion.Chronological occasions ∧
        ∀ t ∈ Occasion.requests occasions, t < Word.last) ∧
      ∃ before a after d, answers = before ++ a :: after ∧ a.instant = 1 ∧ a.outcome = .ok d ∧
        d.allowed = false ∧ d.standing.retryAfter = some (.ofMillis 3) ∧
        after.map Answer.instant = [3, 4, 4] ∧
        (∀ b ∈ after, b.instant < 1 + 3 → b.denied = true) ∧
        ∀ b ∈ after.find? (1 + 3 ≤ ·.instant), b.admitted = true := by
  intro l m occasions answers
  have valid : l.quota.Valid := ⟨by decide, by decide, by decide⟩
  have ordered : Occasion.Chronological occasions := by
    show List.Pairwise _ _
    decide
  have within : ∀ t ∈ Occasion.requests occasions, t < Word.last := by decide
  obtain ⟨instants, decides, exact_wait⟩ :=
    retry_after_exact l valid "k" (m := m) rfl ordered within
  let signs (a : Answer) : Nat × Bool × Option Duration :=
    (a.instant, a.denied, a.outcome.toOption.bind (·.standing.retryAfter))
  have course : answers.map signs =
      [(0, false, none), (0, false, none), (0, false, none)] ++ (1, true, some (.ofMillis 3)) ::
        [(3, true, some (.ofMillis 1)), (4, false, none), (4, true, some (.ofMillis 4))] := by
    decide +kernel
  obtain ⟨before, tail, split, -, course⟩ := List.map_eq_append_iff.mp course
  obtain ⟨a, after, rfl, there, later⟩ := List.map_eq_cons_iff.mp course
  obtain ⟨d, outcome⟩ := decides a (by rw [show l.serve "k" m occasions = _ from split]; simp)
  obtain ⟨at_one, there⟩ := Prod.mk.inj there
  obtain ⟨refused, there⟩ := Prod.mk.inj there
  rw [outcome] at there
  have told : d.standing.retryAfter = some (.ofMillis 3) := there
  have denied : d.allowed = false := by simpa [Answer.denied, outcome] using refused
  have rest : after.map Answer.instant = [3, 4, 4] := by
    have instants := congrArg (List.map Prod.fst) later
    rwa [List.map_map] at instants
  obtain ⟨r, told', -, -, waits⟩ := exact_wait before a after split d outcome denied
  have three : r = 3 := by
    have same := congrArg Duration.millis (Option.some.inj (told'.symm.trans told))
    rwa [Duration.millis_ofMillis, Duration.millis_ofMillis] at same
  rw [three, at_one] at waits
  exact ⟨⟨valid, rfl, ordered, within⟩, before, a, after, d, split, at_one, outcome, denied, told, rest,
    waits⟩

end Limiter

end Admission

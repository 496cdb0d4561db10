/-
# Admission.Proofs.SlidingLog.Exact — the log admits exactly what the window allows

The limiter keeps a log that is pruned at every decision, put in order, cut to the limit, encoded,
and lost when its entry lapses. None of that shows: at every instant, what the log still counts is
what the *whole history* of admissions has in the trailing window (`Tracks`). One decision keeps that
relation, whether it allows or denies (`Tracks.decide`), so a session keeps it, and each of its
answers is the one that the history calls for.

The readings are at least 1. At reading 0 the start of the window saturates to 0, and an instant 0
would not lie strictly after it.
-/
import Admission.Proofs.Codec
import Admission.Proofs.Lapse
import Admission.Proofs.Session
import Mathlib.Data.List.Induction

namespace Admission

namespace SlidingLog

variable {q : Quota}

/-! ## What a log counts -/

/-- The instants that lie strictly after the start of the window. -/
def trailing (q : Quota) (now : Nat) (instants : List Nat) : List Nat :=
  instants.filter (now - q.windowMs < ·)

theorem lastN_of_length_le {n : Nat} {xs : List Nat} (h : xs.length ≤ n) : lastN n xs = xs := by
  rw [lastN, Nat.sub_eq_zero_of_le h, List.drop_zero]

/-- Of a log in order with no more than the limit in the window, all of that counts. -/
theorem counting_eq_trailing {instants : List Nat} {now : Nat}
    (sorted : instants.Pairwise (· ≤ ·)) (few : (trailing q now instants).length ≤ q.limit) :
    counting q instants now = trailing q now instants := by
  have ordered : (trailing q now instants).Pairwise fun a b => Decidable.decide (a ≤ b) = true :=
    (sorted.sublist List.filter_sublist).imp decide_eq_true
  rw [counting, ← trailing, List.mergeSort_of_pairwise ordered, lastN_of_length_le few]

/-- The window only moves on: what counts later is among what counts now. -/
theorem trailing_trailing {t u : Nat} (h : t ≤ u) (instants : List Nat) :
    trailing q u (trailing q t instants) = trailing q u instants := by
  rw [trailing, trailing, List.filter_filter]
  apply List.filter_congr
  intro s _
  simp only [Bool.and_eq_left_iff_imp, decide_eq_true_eq]
  omega

theorem trailing_append (t : Nat) (xs ys : List Nat) :
    trailing q t (xs ++ ys) = trailing q t xs ++ trailing q t ys := List.filter_append _ _

/-- An instant counts at itself. -/
theorem trailing_now (valid : q.Valid) {now : Nat} (h : 0 < now) :
    trailing q now [now] = [now] := by
  have inside : now - q.windowMs < now := Nat.sub_lt h valid.windowMs_pos
  simp [trailing, inside]

/-- Once a whole window has passed nothing counts. -/
theorem trailing_eq_nil {instants : List Nat} {now t : Nat} (le : ∀ s ∈ instants, s ≤ now)
    (h : now + q.windowMs ≤ t) : trailing q t instants = [] := by
  rw [trailing, List.filter_eq_nil_iff]
  intro s hs
  have := le s hs
  simp only [decide_eq_true_eq]
  omega

/-- A stored log is found until a window has passed; after that a decision starts afresh. -/
theorem start_entry (valid : q.Valid) {instants : List Nat} {now t : Nat}
    (bounded : ∀ s ∈ instants, s ≤ Word.last) (ht : t < Word.last) :
    start ((entry q instants now).live? t) = if now + q.windowMs ≤ t then [] else instants := by
  rw [entry, Entry.live?_window valid _ _ ht]
  split
  · rfl
  · simp only [start]
    rw [State.decodeLog_encode (show (⟨instants⟩ : Log).Bounded from bounded)]

/-- **What a stored log counts later** is what its instants have in the window then. -/
theorem counting_entry (valid : q.Valid) {instants : List Nat} {now t : Nat}
    (sorted : instants.Pairwise (· ≤ ·)) (le : ∀ s ∈ instants, s ≤ now)
    (few : instants.length ≤ q.limit) (hnow : now ≤ t) (ht : t < Word.last) :
    counting q (start ((entry q instants now).live? t)) t = trailing q t instants := by
  have fewer : (trailing q t instants).length ≤ q.limit :=
    Nat.le_trans (List.length_filter_le _ _) few
  rw [start_entry valid (fun s hs => by have := le s hs; omega) ht]
  split
  · next passed =>
    -- the entry is gone, and so is everything it counted
    rw [trailing_eq_nil le passed, counting_eq_trailing List.Pairwise.nil (Nat.zero_le _)]
    rfl
  · exact counting_eq_trailing sorted fewer

/-! ## The log and the history -/

/-- An entry tracks a history of admissions up to an instant: from then on, what a decision counts
is what the history has in the window. -/
structure Tracks (q : Quota) (e : Option Entry) (since : Nat) (history : List Nat) : Prop where
  /-- The history is in order. -/
  sorted : history.Pairwise (· ≤ ·)
  /-- The history is over. -/
  le : ∀ s ∈ history, s ≤ since
  /-- The log counts what the history says. -/
  counting_eq : ∀ t, since ≤ t → t < Word.last →
    counting q (start (e.bind (·.live? t))) t = trailing q t history

/-- Nothing stored, nothing admitted. -/
theorem Tracks.empty (q : Quota) : Tracks q none 0 [] where
  sorted := List.Pairwise.nil
  le := by simp
  counting_eq _ _ _ := counting_eq_trailing List.Pairwise.nil (Nat.zero_le _)

/-- The trailing part of a history, stored at `now`, tracks the history. -/
theorem tracks_entry (valid : q.Valid) {history : List Nat} {now : Nat}
    (sorted : history.Pairwise (· ≤ ·)) (le : ∀ s ∈ history, s ≤ now)
    (few : (trailing q now history).length ≤ q.limit) :
    Tracks q (some (entry q (trailing q now history) now)) now history where
  sorted := sorted
  le := le
  counting_eq := by
    intro t ht hlast
    have hsub : (trailing q now history).Sublist history := List.filter_sublist
    rw [Option.bind_some, counting_entry valid (sorted.sublist hsub)
      (fun s hs => le s (hsub.subset hs)) few ht hlast]
    exact trailing_trailing ht history

/-- The history after a decision. -/
def record (history : List Nat) (d : Decision) (now : Nat) : List Nat :=
  history ++ if d.allowed then [now] else []

/-- What a decision has to be when `used` admissions are in the window. -/
structure Calls (q : Quota) (used : Nat) (d : Decision) : Prop where
  /-- A request is allowed exactly while the window has room. -/
  allowed_iff : d.allowed = true ↔ used < q.limit
  /-- The room that an allowed request leaves. -/
  remaining_eq : d.allowed = true → d.standing.remaining = q.limit - 1 - used

/-- **One decision** is the one the history calls for, and its entry tracks the history with the
decision recorded. -/
theorem Tracks.decide (valid : q.Valid) {e : Option Entry} {since now : Nat} {history : List Nat}
    (tracks : Tracks q e since history) (hsince : since ≤ now) (hnow : 0 < now)
    (hlast : now < Word.last) :
    ∃ entry d, SlidingLog.decide q (e.bind (·.live? now)) now = (entry, d) ∧
      Calls q (trailing q now history).length d ∧
      Tracks q (some entry) now (record history d now) := by
  have le : ∀ s ∈ history, s ≤ now := by
    intro s hs
    exact Nat.le_trans (tracks.le s hs) hsince
  have hcount := tracks.counting_eq now hsince hlast
  by_cases full : q.limit ≤ (trailing q now history).length
  · -- the log never counts more than the limit, so neither does the history
    have atMost : (trailing q now history).length ≤ q.limit := by
      rw [← hcount, counting, lastN, List.length_drop]
      omega
    refine ⟨entry q (trailing q now history) now,
      ⟨false, standing q 0 now (some (.ofMillis (wait q (trailing q now history) now)))⟩,
      ?_, ⟨?_, ?_⟩, ?_⟩
    · simp only [SlidingLog.decide, hcount, if_pos full]
    · simp only [Bool.false_eq_true, false_iff, Nat.not_lt]
      exact full
    · simp
    · rw [record, if_neg (by simp), List.append_nil]
      exact tracks_entry valid tracks.sorted le atMost
  · have room : (trailing q now history).length < q.limit := Nat.lt_of_not_le full
    have sorted : (history ++ [now]).Pairwise (· ≤ ·) := by
      rw [List.pairwise_append]
      exact ⟨tracks.sorted, List.pairwise_singleton _ _, by simpa using le⟩
    have le' : ∀ s ∈ history ++ [now], s ≤ now := by
      intro s hs
      rcases List.mem_append.mp hs with hs | hs
      · exact le s hs
      · exact Nat.le_of_eq (List.mem_singleton.mp hs)
    have hnew : trailing q now (history ++ [now]) = trailing q now history ++ [now] := by
      rw [trailing_append, trailing_now valid hnow]
    have few : (trailing q now (history ++ [now])).length ≤ q.limit := by
      rw [hnew, List.length_append, List.length_singleton]
      exact room
    refine ⟨entry q (trailing q now (history ++ [now])) now,
      ⟨true, standing q (q.limit - (trailing q now (history ++ [now])).length) now none⟩,
      ?_, ⟨?_, ?_⟩, ?_⟩
    · simp only [SlidingLog.decide, hcount, if_neg full, hnew]
    · simp only [true_iff]
      exact room
    · intro _
      simp only [standing, hnew, List.length_append, List.length_singleton]
      omega
    · exact tracks_entry valid sorted le' few

/-! ## Sessions -/

/-- The limiter that decides with a log. -/
def limiter (q : Quota) (retries : Nat) : Limiter := ⟨.slidingWindow, q, retries⟩

/-- The admissions of a history strictly after `now - window`, when instants are integers. -/
def used (q : Quota) (now : Nat) (history : List Nat) : Nat :=
  history.countP fun s : Nat => (now : Int) - q.windowMs < s

/-- Over positive instants, saturation at zero excludes nothing. -/
theorem length_trailing {history : List Nat} (positive : ∀ s ∈ history, 0 < s) (now : Nat) :
    (trailing q now history).length = used q now history := by
  rw [trailing, used, List.countP_eq_length_filter]
  congr 1
  apply List.filter_congr
  intro s hs
  have := positive s hs
  apply decide_eq_decide.mpr
  omega

/-- An answer is the one that a history of admissions calls for. -/
def Answers (q : Quota) (history : List Nat) (a : Answer) : Prop :=
  ∃ d, a.outcome = .ok d ∧ Calls q (used q a.instant history) d

/-- **What a session keeps**: its entry tracks the admissions so far, and these are positive. -/
structure Faithful (q : Quota) (e : Option Entry) (since : Nat) (answers : List Answer) : Prop where
  /-- The entry tracks the admissions. -/
  tracks : Tracks q e since (Answer.admissions answers)
  /-- The admissions are positive. -/
  positive : ∀ s ∈ Answer.admissions answers, 0 < s

/-- One decision of a session is the one that the admissions so far call for, and adds to them. -/
theorem Faithful.answer (valid : q.Valid) (retries : Nat) {e : Option Entry} {since now : Nat}
    {answers : List Answer} (faithful : Faithful q e since answers) (hsince : since ≤ now)
    (within : 0 < now ∧ now < Word.last) :
    ∃ entry d, (limiter q retries).decide (e.bind (·.live? now)) now = .ok (entry, d) ∧
      Calls q (used q now (Answer.admissions answers)) d ∧
      Faithful q (some entry) now (answers ++ [⟨now, .ok d⟩]) := by
  obtain ⟨tracks, positive⟩ := faithful
  obtain ⟨entry, d, hdecide, calls, tracks'⟩ := tracks.decide valid hsince within.1 within.2
  rw [length_trailing positive] at calls
  have hrecord : Answer.admissions (answers ++ [⟨now, .ok d⟩]) =
      record (Answer.admissions answers) d now := by
    rw [Answer.admissions_append, Answer.admissions_singleton]
    rfl
  refine ⟨entry, d, congrArg Except.ok hdecide, calls, hrecord ▸ tracks', ?_⟩
  intro s hs
  rw [hrecord, record] at hs
  rcases List.mem_append.mp hs with hs | hs
  · exact positive s hs
  · split at hs
    · rw [List.mem_singleton.mp hs]
      exact within.1
    · exact absurd hs List.not_mem_nil

/-- **Every answer of a replay** from nothing is the one that the admissions before it call for. -/
theorem replay_answers (valid : q.Valid) (retries : Nat) {instants : List Nat}
    (sorted : instants.Pairwise (· ≤ ·)) (within : ∀ t ∈ instants, 0 < t ∧ t < Word.last)
    {before after : List Answer} {a : Answer}
    (h : (limiter q retries).replay none instants = before ++ a :: after) :
    Answers q (Answer.admissions before) a := by
  have start : Faithful q none 0 [] := ⟨Tracks.empty q, by simp⟩
  have step : ∀ e since answers now, Faithful q e since answers → since ≤ now →
      0 < now ∧ now < Word.last →
      ∃ entry d, (limiter q retries).decide (e.bind (·.live? now)) now = .ok (entry, d) ∧
        Faithful q (some entry) now (answers ++ [⟨now, .ok d⟩]) := by
    intro e since answers now faithful hsince inside
    obtain ⟨entry, d, hdecide, -, faithful'⟩ := faithful.answer valid retries hsince inside
    exact ⟨entry, d, hdecide, faithful'⟩
  obtain ⟨e, since, faithful, hsince, inside, entry, d, hdecide, ha, -⟩ :=
    Limiter.replay_keeps (Faithful q) step sorted within start (fun _ _ => Nat.zero_le _) h
  obtain ⟨entry', d', hdecide', calls, -⟩ := faithful.answer valid retries hsince inside
  -- the decision that was made is the one that the admissions call for
  cases hdecide.symm.trans hdecide'
  exact ⟨d, congrArg Answer.outcome ha, calls⟩

/-- If every admission found room, no window of that length ever holds more than the limit. -/
theorem window_le {answers : List Answer}
    (room : ∀ before a after, answers = before ++ a :: after → a.admitted = true →
      used q a.instant (Answer.admissions before) < q.limit) (u : Int) :
    (Answer.admissions answers).countP (fun s : Nat => u - q.windowMs < s ∧ (s : Int) ≤ u) ≤
      q.limit := by
  induction answers using List.reverseRecOn with
  | nil => exact Nat.zero_le _
  | append_singleton answers a ih =>
    have ih := ih fun before b after h hb => room before b (after ++ [a])
      (by rw [h, List.append_assoc]; rfl) hb
    rw [Answer.admissions_append, Answer.admissions_singleton, List.countP_append]
    split
    · next admitted =>
      rw [List.countP_singleton]
      split
      · next inside =>
        -- whatever lies in this window before `a` was in the window that `a` found room in
        have hsub : (Answer.admissions answers).countP
            (fun s : Nat => u - q.windowMs < s ∧ (s : Int) ≤ u) ≤
            used q a.instant (Answer.admissions answers) := by
          apply List.countP_mono_left
          intro s _ hs
          simp only [decide_eq_true_eq] at hs inside ⊢
          omega
        have hroom := room answers a [] rfl admitted
        omega
      · exact ih
    · rw [List.countP_nil, Nat.add_zero]
      exact ih

/-- **The sliding window is exact.** In every session over a store without the key, each request is
answered, and it is allowed exactly if fewer than `limit` of the admissions so far lie strictly after
the start of its window; an allowed one leaves the room that these admissions leave. Hence no
half-open window of that length ever holds more than `limit` admissions, wherever it ends. -/
theorem session_exact (valid : q.Valid) (retries : Nat) (key : String) {m : Memory}
    (absent : m.table.get? ((limiter q retries).slot key) = none) {occasions : List Occasion}
    (ordered : Occasion.Chronological occasions)
    (within : ∀ t ∈ Occasion.requests occasions, 1 ≤ t ∧ t < Word.last) :
    ((limiter q retries).serve key m occasions).map Answer.instant =
        Occasion.requests occasions ∧
      (∀ before a after, (limiter q retries).serve key m occasions = before ++ a :: after →
        Answers q (Answer.admissions before) a) ∧
      ∀ u : Int, (Answer.admissions ((limiter q retries).serve key m occasions)).countP
        (fun s : Nat => u - q.windowMs < s ∧ (s : Int) ≤ u) ≤ q.limit := by
  rw [Limiter.serve_eq _ key m ordered, absent]
  have exact : ∀ before a after,
      (limiter q retries).replay none (Occasion.requests occasions) = before ++ a :: after →
      Answers q (Answer.admissions before) a := by
    intro before a after h
    exact replay_answers valid retries ordered.requests within h
  refine ⟨Limiter.replay_instants _ _ _, exact, window_le fun before a after h admitted => ?_⟩
  obtain ⟨d, houtcome, calls⟩ := exact before a after h
  rw [Answer.admitted, houtcome] at admitted
  exact calls.allowed_iff.mp admitted

/-- Two requests per ten milliseconds: a burst, a sweep, a request in the window, one at its very
end and one after the entry has lapsed. -/
theorem session_exact_burst :
    let q : Quota := ⟨2, .ofMillis 10⟩
    let occasions : List Occasion :=
      [.request 5, .request 5, .sweep 6, .request 7, .request 15, .request 40]
    (q.Valid ∧ Occasion.Chronological occasions ∧
      ∀ t ∈ Occasion.requests occasions, 1 ≤ t ∧ t < Word.last) ∧
    ((limiter q 3).serve "k" (.bare .manual) occasions).map Answer.instant =
        Occasion.requests occasions ∧
      (∀ before a after,
        (limiter q 3).serve "k" (.bare .manual) occasions = before ++ a :: after →
        Answers q (Answer.admissions before) a) ∧
      ∀ u : Int, (Answer.admissions ((limiter q 3).serve "k" (.bare .manual) occasions)).countP
        (fun s : Nat => u - q.windowMs < s ∧ (s : Int) ≤ u) ≤ q.limit := by
  intro q occasions
  have valid : q.Valid := ⟨by decide, by decide, by decide⟩
  have ordered : Occasion.Chronological occasions := by
    show List.Pairwise _ _
    decide
  have within : ∀ t ∈ Occasion.requests occasions, 1 ≤ t ∧ t < Word.last := by decide
  exact ⟨⟨valid, ordered, within⟩,
    session_exact valid 3 "k" (m := .bare .manual) rfl ordered within⟩

end SlidingLog

end Admission

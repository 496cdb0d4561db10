/-
# Admission.Proofs.SlidingLog.Reflection — what a stored log says about the admissions

When decisions overlap, admissions do not come in the order of their instants, and a log that is stored
is not the history any more. What it still has to say of the admissions is `Reflects`: from now on, as
many of them are in the window as of the log, and there are as many from the newest instant of the log
on. The first is what a decision counts. The second makes logs unmistakable: an admission after this one
is not before its newest instant, and there is one more from then on, so that this very log is never
stored again (`Outlook`).

A decision that is recorded keeps what is stored a reflection (`Reflects.commit`), whatever happened
between its looking at the clock and its writing.
-/
import Admission.Proofs.SlidingLog.Exact

namespace Admission.SlidingLog

variable {q : Quota} {dates log : List Nat} {now t : Nat}

/-! ## Logs as they are stored -/

/-- The bytes of a log. An empty log is not stored. -/
def stored : List Nat → Option ByteArray
  | [] => none
  | t :: rest => some (State.log ⟨t :: rest⟩).encode

/-- A log that the limiter has written by some instant. -/
structure Tidy (q : Quota) (now : Nat) (log : List Nat) : Prop where
  /-- It is in order. -/
  sorted : log.Pairwise (· ≤ ·)
  /-- It is not longer than the limit. -/
  few : log.length ≤ q.limit
  /-- Its instants are past, -/
  le : ∀ s ∈ log, s ≤ now
  /-- and none of them is the epoch. -/
  positive : ∀ s ∈ log, 0 < s

namespace Tidy

/-- What was tidy stays tidy. -/
theorem later (h : Tidy q now log) (le : now ≤ t) : Tidy q t log :=
  ⟨h.sorted, h.few, fun s hs => Nat.le_trans (h.le s hs) le, h.positive⟩

theorem nil (q : Quota) (now : Nat) : Tidy q now [] :=
  ⟨List.Pairwise.nil, Nat.zero_le _, nofun, nofun⟩

theorem bounded (h : Tidy q now log) (hnow : now < Word.last) : (⟨log⟩ : Log).Bounded :=
  fun s hs => Nat.le_of_lt (Nat.lt_of_le_of_lt (h.le s hs) hnow)

end Tidy

/-- Only one log is stored as the same bytes. -/
theorem stored_injective {log' : List Nat} (h : (⟨log⟩ : Log).Bounded) (h' : (⟨log'⟩ : Log).Bounded)
    (same : stored log = stored log') : log = log' := by
  cases log with
  | nil =>
    cases log' with
    | nil => rfl
    | cons => cases same
  | cons =>
    cases log' with
    | nil => cases same
    | cons =>
      have states := State.encode_injective (s := .log _) (t := .log _) h h' (Option.some.inj same)
      exact congrArg Log.instants (State.log.inj states)

/-- A decision starts from the log that is stored. -/
theorem start_stored (h : (⟨log⟩ : Log).Bounded) : start (stored log) = log := by
  cases log with
  | nil => rfl
  | cons => simp only [stored, start, State.decodeLog_encode h]

theorem stored_of_ne_nil (h : log ≠ []) : stored log = some (State.log ⟨log⟩).encode := by
  cases log with
  | nil => exact absurd rfl h
  | cons => rfl

/-- A stored log is found until a window has passed. -/
theorem live?_entry (valid : q.Valid) (nonempty : log ≠ []) (ht : t < Word.last) :
    (entry q log now).live? t = if now + q.windowMs ≤ t then stored [] else stored log := by
  rw [entry, Entry.live?_window valid _ _ ht, stored_of_ne_nil nonempty]
  rfl

/-- **A decision on a stored log** allows while there is room in the window, and adds its instant. A
denial stores the same log again. -/
theorem decide_stored (tidy : Tidy q now log) (hlast : now < Word.last) :
    ∃ entry' d, decide q (stored log) now = (entry', d) ∧
      (d.allowed = true ∧ used q now log < q.limit ∧
          entry' = entry q (trailing q now log ++ [now]) now ∨
        d.allowed = false ∧ q.limit ≤ log.length ∧ entry' = entry q log now) := by
  have fewer : (trailing q now log).length ≤ log.length := List.length_filter_le _ _
  have counted : counting q (start (stored log)) now = trailing q now log := by
    rw [start_stored (tidy.bounded hlast)]
    exact counting_eq_trailing tidy.sorted (Nat.le_trans fewer tidy.few)
  by_cases full : q.limit ≤ (trailing q now log).length
  · -- the log has no more than the limit, so all of it is in the window
    have whole : trailing q now log = log :=
      (List.filter_sublist).eq_of_length_le (Nat.le_trans tidy.few full)
    refine ⟨_, _, by simp only [SlidingLog.decide, counted, if_pos full]; rfl, .inr ⟨rfl, ?_, ?_⟩⟩
    · exact Nat.le_trans full fewer
    · rw [whole]
  · refine ⟨_, _, by simp only [SlidingLog.decide, counted, if_neg full]; rfl, .inl ⟨rfl, ?_, rfl⟩⟩
    rw [← length_trailing tidy.positive]
    exact Nat.lt_of_not_le full

/-- Whoever is allowed has found room. -/
theorem room_of_allowed (tidy : Tidy q now log) (hlast : now < Word.last) {e : Entry} {d : Decision}
    (decided : decide q (stored log) now = (e, d)) (allowed : d.allowed = true) :
    used q now log < q.limit := by
  obtain ⟨e', d', decided', outcome⟩ := decide_stored tidy hlast
  cases decided.symm.trans decided'
  rcases outcome with ⟨-, room, -⟩ | ⟨denied, -⟩
  · exact room
  · cases denied.symm.trans allowed

/-- A decision depends on the limit of the quota and on its window in milliseconds. -/
theorem decide_congr {q' : Quota} (limit : q.limit = q'.limit) (windowMs : q.windowMs = q'.windowMs)
    (seen : Option ByteArray) (now : Nat) : decide q seen now = decide q' seen now := by
  have counts : ∀ instants, counting q instants now = counting q' instants now := by
    intro instants
    rw [counting, counting, limit, windowMs]
  have stores : ∀ instants, entry q instants now = entry q' instants now := by
    intro instants
    rw [entry, entry, windowMs]
  have waits : ∀ instants, wait q instants now = wait q' instants now := by
    intro instants
    rw [wait, wait, windowMs]
  have stands : ∀ remaining retryAfter,
      standing q remaining now retryAfter = standing q' remaining now retryAfter := by
    intro remaining retryAfter
    rw [standing, standing, limit, windowMs]
  simp only [decide, counts, stores, waits, stands]
  rw [limit]

/-! ## Reflections -/

/-- How many of some instants are not before an instant. -/
def since (y : Nat) (dates : List Nat) : Nat := dates.countP (y ≤ ·)

/-- The last instant of a log. -/
def Newest (log : List Nat) (x : Nat) : Prop := x ∈ log ∧ ∀ s ∈ log, s ≤ x

/-- **What a log says about the admissions** from an instant on: how many are in the window, and how many
there are from its newest instant on. -/
structure Reflects (q : Quota) (dates : List Nat) (now : Nat) (log : List Nat) : Prop where
  /-- It is a log of the limiter. -/
  tidy : Tidy q now log
  /-- In the window it has as many instants as there are admissions. -/
  used_eq : ∀ t, now ≤ t → used q t dates = used q t log
  /-- From its newest instant on too. -/
  since_eq : ∀ x, Newest log x → ∀ y, x ≤ y → since y dates = since y log

theorem used_append (t : Nat) (xs ys : List Nat) :
    used q t (xs ++ ys) = used q t xs + used q t ys := List.countP_append

theorem since_append (y : Nat) (xs ys : List Nat) : since y (xs ++ ys) = since y xs + since y ys :=
  List.countP_append

theorem used_eq_zero : used q t dates = 0 ↔ ∀ s ∈ dates, s + q.windowMs ≤ t := by
  rw [used, List.countP_eq_zero]
  refine forall₂_congr fun s _ => ?_
  rw [decide_eq_true_eq]
  omega

theorem since_eq_zero {y : Nat} : since y dates = 0 ↔ ∀ s ∈ dates, s < y := by
  rw [since, List.countP_eq_zero]
  refine forall₂_congr fun s _ => ?_
  rw [decide_eq_true_eq, Nat.not_le]

/-- Whatever is in the window later is in it now. -/
theorem used_trailing (positive : ∀ s ∈ log, 0 < s) (h : now ≤ t) :
    used q t (trailing q now log) = used q t log := by
  have positive' : ∀ s ∈ trailing q now log, 0 < s := fun s hs => positive s (List.mem_filter.mp hs).1
  rw [← length_trailing positive, ← length_trailing positive', trailing_trailing h]

/-- Whatever is not before an instant is in the window there. -/
theorem since_trailing (valid : q.Valid) (positive : ∀ s ∈ log, 0 < s) {y : Nat} (h : now ≤ y) :
    since y (trailing q now log) = since y log := by
  rw [since, since, trailing, List.countP_filter]
  apply List.countP_congr
  intro s hs
  have := positive s hs
  have := valid.windowMs_pos
  simp only [Bool.and_eq_true, decide_eq_true_eq]
  omega

/-- A log that is not empty has a last instant. -/
theorem exists_newest (h : log ≠ []) : ∃ x, Newest log x := by
  cases hmax : log.max? with
  | none => exact absurd (List.max?_eq_none_iff.mp hmax) h
  | some x => exact ⟨x, List.max?_eq_some_iff.mp hmax⟩

namespace Reflects

/-- Nothing has been admitted, nothing is stored. -/
theorem nil (q : Quota) (now : Nat) : Reflects q [] now [] :=
  ⟨.nil q now, fun _ _ => rfl, fun _ newest => nomatch newest.1⟩

/-- What reflects the admissions goes on reflecting them. -/
theorem later (h : Reflects q dates now log) (le : now ≤ t) : Reflects q dates t log :=
  ⟨h.tidy.later le, fun u hu => h.used_eq u (Nat.le_trans le hu), h.since_eq⟩

/-- Nothing reflects admissions which are all out of the window. -/
theorem gone (h : ∀ s ∈ dates, s + q.windowMs ≤ now) : Reflects q dates now [] := by
  refine ⟨.nil q now, fun t ht => ?_, fun _ newest => nomatch newest.1⟩
  exact used_eq_zero.mpr fun s hs => Nat.le_trans (h s hs) ht

/-- No admission is after the newest instant. -/
theorem le_newest (h : Reflects q dates now log) {x : Nat} (newest : Newest log x) {s : Nat}
    (hs : s ∈ dates) : s ≤ x := by
  have none_after : since (x + 1) log = 0 :=
    since_eq_zero.mpr fun z hz => Nat.lt_succ_of_le (newest.2 z hz)
  rw [← h.since_eq x newest (x + 1) (Nat.le_succ x)] at none_after
  exact Nat.le_of_lt_succ (since_eq_zero.mp none_after s hs)

/-- When nothing is stored, every admission is out of the window. -/
theorem lapsed (h : Reflects q dates now []) : ∀ s ∈ dates, s + q.windowMs ≤ now :=
  used_eq_zero.mp (h.used_eq now (Nat.le_refl now))

/-- At a date that no instant of the log is after, an admission either is not after it or is out of the
window. -/
theorem le_or_lapsed (h : Reflects q dates now log) {date : Nat} (latest : ∀ s ∈ log, s ≤ date)
    {s : Nat} (hs : s ∈ dates) : s ≤ date ∨ s + q.windowMs ≤ now := by
  by_cases empty : log = []
  · subst empty
    exact .inr (h.lapsed s hs)
  · obtain ⟨x, newest⟩ := exists_newest empty
    exact .inl (Nat.le_trans (h.le_newest newest hs) (latest x newest.1))

/-- A denial, whenever it is recorded, leaves a reflection. -/
theorem deny (valid : q.Valid) (h : Reflects q dates now log) {date : Nat}
    (latest : ∀ s ∈ log, s ≤ date) (nonempty : log ≠ []) (ht : now ≤ t) (hlast : t < Word.last) :
    ∃ log', (entry q log date).live? t = stored log' ∧ Reflects q dates t log' := by
  rw [live?_entry valid nonempty hlast]
  split
  · next passed =>
    refine ⟨[], rfl, gone fun s hs => ?_⟩
    have := h.le_or_lapsed latest hs
    omega
  · exact ⟨log, rfl, h.later ht⟩

/-- **An admission**, whenever it is recorded, leaves a reflection: of its log until a window has passed
since its date, and of nothing from then on. -/
theorem allow (valid : q.Valid) (h : Reflects q dates now log) {date : Nat} (positive : 0 < date)
    (past : date ≤ now) (latest : ∀ s ∈ log, s ≤ date) (room : used q date log < q.limit)
    (ht : now ≤ t) (hlast : t < Word.last) :
    ∃ log', (entry q (trailing q date log ++ [date]) date).live? t = stored log' ∧
      Reflects q (dates ++ [date]) t log' := by
  rw [live?_entry valid (List.append_ne_nil_of_right_ne_nil _ (List.cons_ne_nil _ _)) hlast]
  have earlier : ∀ s ∈ trailing q date log, s ∈ log := fun s hs => (List.mem_filter.mp hs).1
  split
  · next passed =>
    refine ⟨[], rfl, gone fun s hs => ?_⟩
    rcases List.mem_append.mp hs with hs | hs
    · have := h.le_or_lapsed latest hs
      omega
    · rw [List.mem_singleton.mp hs]
      exact passed
  · next alive =>
    refine ⟨_, rfl, ⟨?_, ?_, ?_, ?_⟩, fun u hu => ?_, fun x newest y hy => ?_⟩
    · rw [List.pairwise_append]
      refine ⟨h.tidy.sorted.sublist List.filter_sublist, List.pairwise_singleton _ _, ?_⟩
      intro s hs s' hs'
      rw [List.mem_singleton.mp hs']
      exact latest s (earlier s hs)
    · rw [List.length_append, List.length_singleton, length_trailing h.tidy.positive]
      exact room
    · intro s hs
      rcases List.mem_append.mp hs with hs | hs
      · exact Nat.le_trans (latest s (earlier s hs)) (Nat.le_trans past ht)
      · rw [List.mem_singleton.mp hs]
        exact Nat.le_trans past ht
    · intro s hs
      rcases List.mem_append.mp hs with hs | hs
      · exact h.tidy.positive s (earlier s hs)
      · rw [List.mem_singleton.mp hs]
        exact positive
    · have dated : date ≤ u := Nat.le_trans past (Nat.le_trans ht hu)
      rw [used_append, used_append, used_trailing h.tidy.positive dated,
        h.used_eq u (Nat.le_trans ht hu)]
    · -- the newest instant is the date of the admission
      have hdate : date ≤ y :=
        Nat.le_trans (newest.2 date (List.mem_append_right _ (List.mem_singleton_self date))) hy
      rw [since_append, since_append, since_trailing valid h.tidy.positive hdate]
      congr 1
      by_cases empty : log = []
      · subst empty
        refine since_eq_zero.mpr fun s hs => ?_
        have := h.lapsed s hs
        omega
      · obtain ⟨x', newest'⟩ := exists_newest empty
        exact h.since_eq x' newest' y (Nat.le_trans (latest x' newest'.1) hdate)

/-- **A decision that is recorded** leaves a reflection of the admissions with it, from then on. -/
theorem commit (valid : q.Valid) (h : Reflects q dates now log) {date : Nat} (positive : 0 < date)
    (past : date ≤ now) (latest : ∀ s ∈ log, s ≤ date) {e : Entry} {d : Decision}
    (decided : decide q (stored log) date = (e, d)) (ht : now ≤ t) (hlast : t < Word.last) :
    ∃ log', e.live? t = stored log' ∧ Reflects q (record dates d date) t log' := by
  have tidy : Tidy q date log := ⟨h.tidy.sorted, h.tidy.few, latest, h.tidy.positive⟩
  have hdate : date < Word.last := Nat.lt_of_le_of_lt (Nat.le_trans past ht) hlast
  obtain ⟨e', d', decided', outcome⟩ := decide_stored tidy hdate
  cases decided.symm.trans decided'
  rcases outcome with ⟨allowed, room, rfl⟩ | ⟨denied, full, rfl⟩
  · rw [record, if_pos allowed]
    exact h.allow valid positive past latest room ht hlast
  · rw [record, if_neg (by simp [denied]), List.append_nil]
    refine h.deny valid latest ?_ ht hlast
    rintro rfl
    have := valid.limit_pos
    exact absurd full (by simp only [List.length_nil]; omega)

end Reflects

/-! ## What has been read, and what is there now -/

/-- **What a call that has read a log may expect** later on, when other decisions have been recorded. -/
inductive Outlook (q : Quota) (dates : List Nat) (live : Option ByteArray) (overtaken : Prop)
    (readAt : Nat) (log : List Nat) : Prop where
  /-- The log is there, and there have been no admissions since it was read. -/
  | current (live_eq : live = stored log)
      (used_eq : ∀ t, readAt ≤ t → used q t dates = used q t log)
  /-- The log was there, and has lapsed. -/
  | gone {x : Nat} (newest : Newest log x) (lapsed : live = none) (le : since x log ≤ since x dates)
  /-- There has been an admission that is not before the newest instant of the log. -/
  | beaten {x : Nat} (newest : Newest log x) (lt : since x log < since x dates)
  /-- There was no log, and a write has been accepted since. -/
  | overtaken (empty : log = []) (since : overtaken)

theorem since_record_le (y : Nat) (d : Decision) (date : Nat) :
    since y dates ≤ since y (record dates d date) := by
  rw [record, since_append]
  exact Nat.le_add_right _ _

/-- An admission counts from any instant on that is not after it. -/
theorem since_concat {y date : Nat} (h : y ≤ date) :
    since y (dates ++ [date]) = since y dates + 1 := by
  rw [since_append]
  simp [since, h]

namespace Outlook

variable {live live' : Option ByteArray} {overtaken overtaken' : Prop} {readAt date : Nat}

/-- Whoever has just read expects the log to be there. -/
theorem read (h : Reflects q dates now log) : Outlook q dates (stored log) overtaken now log :=
  .current rfl h.used_eq

theorem imp (h : Outlook q dates live overtaken readAt log) (more : overtaken → overtaken') :
    Outlook q dates live overtaken' readAt log := by
  cases h with
  | current live_eq used_eq => exact .current live_eq used_eq
  | gone newest lapsed le => exact .gone newest lapsed le
  | beaten newest lt => exact .beaten newest lt
  | overtaken empty since => exact .overtaken empty (more since)

/-- A log that is there is the one that reflects the admissions. -/
theorem eq_of_live {log' : List Nat} (tidy : Tidy q readAt log) (le : readAt ≤ now)
    (hlast : now < Word.last) (h : Reflects q dates now log') (same : stored log = stored log') :
    log = log' :=
  stored_injective (tidy.bounded (Nat.lt_of_le_of_lt le hlast)) (h.tidy.bounded hlast) same

/-- **Time passes**: a log that was there is still there or has lapsed. -/
theorem elapse (outlook : Outlook q dates live overtaken readAt log) (tidy : Tidy q readAt log)
    (le : readAt ≤ now) (hlast : now < Word.last) {log' : List Nat} (h : Reflects q dates now log')
    (there : live = stored log') (later : live' = live ∨ live' = none) :
    Outlook q dates live' overtaken readAt log := by
  cases outlook with
  | current live_eq used_eq =>
    rcases later with rfl | rfl
    · exact .current live_eq used_eq
    · by_cases empty : log = []
      · subst empty
        exact .current rfl used_eq
      · obtain rfl := eq_of_live tidy le hlast h (live_eq.symm.trans there)
        obtain ⟨x, newest⟩ := exists_newest empty
        exact .gone newest rfl (Nat.le_of_eq (h.since_eq x newest x (Nat.le_refl x)).symm)
  | gone newest lapsed le =>
    refine .gone newest ?_ le
    rcases later with rfl | rfl
    · exact lapsed
    · rfl
  | beaten newest lt => exact .beaten newest lt
  | overtaken empty since => exact .overtaken empty since

/-- **Somebody's decision is recorded** over the log that is there. Whoever has read a log before will not
find it again, unless it was a denial that left it. -/
theorem commit (valid : q.Valid) (outlook : Outlook q dates live overtaken readAt log)
    (tidy : Tidy q readAt log) (le : readAt ≤ now) (hlast : now < Word.last) {log' : List Nat}
    (h : Reflects q dates now log') (there : live = stored log') (past : date ≤ now)
    (latest : ∀ s ∈ log', s ≤ date) {e : Entry} {d : Decision}
    (decided : decide q (stored log') date = (e, d)) :
    Outlook q (record dates d date) (e.live? now) True readAt log := by
  by_cases empty : log = []
  · exact .overtaken empty trivial
  have tidy' : Tidy q date log' := ⟨h.tidy.sorted, h.tidy.few, latest, h.tidy.positive⟩
  have hdate : date < Word.last := Nat.lt_of_le_of_lt past hlast
  obtain ⟨e', d', decided', outcome⟩ := decide_stored tidy' hdate
  cases decided.symm.trans decided'
  cases outlook with
  | current live_eq used_eq =>
    obtain rfl := eq_of_live tidy le hlast h (live_eq.symm.trans there)
    obtain ⟨x, newest⟩ := exists_newest empty
    have same := h.since_eq x newest x (Nat.le_refl x)
    rcases outcome with ⟨allowed, room, rfl⟩ | ⟨denied, full, rfl⟩
    · refine .beaten newest ?_
      rw [record, if_pos allowed, since_concat (latest x newest.1)]
      omega
    · rw [record, if_neg (by simp [denied]), List.append_nil, live?_entry valid empty hlast]
      split
      · exact .gone newest rfl (Nat.le_of_eq same.symm)
      · exact .current rfl used_eq
  | @gone x newest lapsed le =>
    -- nothing is there, so this is an admission; it is dead on arrival, or dated after the log
    obtain rfl : log' = [] := by
      cases log' with
      | nil => rfl
      | cons => cases there.symm.trans lapsed
    rcases outcome with ⟨allowed, room, rfl⟩ | ⟨denied, full, rfl⟩
    · rw [record, if_pos allowed, live?_entry valid (List.append_ne_nil_of_right_ne_nil _
        (List.cons_ne_nil _ _)) hlast]
      split
      · refine .gone newest rfl (Nat.le_trans le ?_)
        rw [since_append]
        exact Nat.le_add_right _ _
      · next alive =>
        refine .beaten newest ?_
        have counted : 0 < since x log := List.countP_pos_iff.mpr ⟨x, newest.1, by simp⟩
        obtain ⟨a, ha, hxa⟩ := List.countP_pos_iff.mp (Nat.lt_of_lt_of_le counted le)
        have := h.lapsed a ha
        simp only [decide_eq_true_eq] at hxa
        rw [since_concat (by omega)]
        omega
    · have := valid.limit_pos
      exact absurd full (by simp only [List.length_nil]; omega)
  | beaten newest lt => exact .beaten newest (Nat.lt_of_lt_of_le lt (since_record_le _ d date))
  | overtaken empty' _ => exact absurd empty' empty

/-- **Whoever finds its log again** has counted right, unless it had found none and was overtaken. -/
theorem counts (outlook : Outlook q dates live overtaken readAt log) (h : Reflects q dates now log)
    (there : live = stored log) (dated : readAt ≤ date) :
    used q date dates = used q date log ∨ log = [] ∧ overtaken := by
  cases outlook with
  | current live_eq used_eq => exact .inl (used_eq date dated)
  | @gone x newest lapsed le =>
    cases log with
    | nil => nomatch newest.1
    | cons => cases there.symm.trans lapsed
  | beaten newest lt =>
    exact absurd (h.since_eq _ newest _ (Nat.le_refl _)) (Nat.ne_of_gt lt)
  | overtaken empty since => exact .inr ⟨empty, since⟩

end Outlook

end Admission.SlidingLog

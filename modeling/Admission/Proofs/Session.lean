/-
# Admission.Proofs.Session — one limiter, one key, one request after the other

A *session* is what a caller sees who asks one limiter about one key again and again, over a store
that may already hold anything and may be swept at any time in between (`Limiter.serve`). Nobody else
writes to the key.

All that a session depends on is the entry under the limiter's own key, and of that entry only whether
it has lapsed. `Limiter.replay` is the session without the store: a fold over the instants of the
requests that carries one entry. The two give the same answers (`serve_eq_replay`), so that whatever
holds of every replay holds of every session, under every sweep policy.
-/
import Admission.Proofs.Update.Steps

namespace Admission

/-- Something that happens to the store during a session. -/
inductive Occasion where
  /-- A request, at a reading of the clock. -/
  | request (now : Nat)
  /-- A sweep, at a reading of the clock. -/
  | sweep (now : Nat)
deriving DecidableEq, Repr

namespace Occasion

/-- What the clock reads. -/
def instant : Occasion → Nat
  | .request now => now
  | .sweep now => now

/-- The instant of a request. -/
def request? : Occasion → Option Nat
  | .request now => some now
  | .sweep _ => none

/-- The instants of the requests. -/
def requests (occasions : List Occasion) : List Nat := occasions.filterMap request?

/-- The clock never goes back. -/
def Chronological (occasions : List Occasion) : Prop :=
  (occasions.map instant).Pairwise (· ≤ ·)

theorem requests_cons_request (now : Nat) (rest : List Occasion) :
    requests (.request now :: rest) = now :: requests rest := rfl

theorem requests_cons_sweep (now : Nat) (rest : List Occasion) :
    requests (.sweep now :: rest) = requests rest := rfl

theorem requests_sublist (occasions : List Occasion) :
    (requests occasions).Sublist (occasions.map instant) := by
  induction occasions with
  | nil => exact List.Sublist.slnil
  | cons o rest ih =>
    cases o with
    | request now => exact ih.cons_cons now
    | sweep now => exact ih.cons now

theorem Chronological.requests {occasions : List Occasion} (h : Chronological occasions) :
    (requests occasions).Pairwise (· ≤ ·) := List.Pairwise.sublist (requests_sublist occasions) h

end Occasion

/-- An answer to a request of a session. -/
structure Answer where
  /-- When the request was made. -/
  instant : Nat
  /-- What came of it. -/
  outcome : Except Failure Decision

namespace Answer

/-- Whether the request was allowed. -/
def admitted (a : Answer) : Bool :=
  match a.outcome with
  | .ok d => d.allowed
  | .error _ => false

/-- The instants of the allowed requests. -/
def admissions (answers : List Answer) : List Nat := (answers.filter admitted).map instant

@[simp] theorem admissions_nil : admissions [] = [] := rfl

theorem admissions_append (a b : List Answer) :
    admissions (a ++ b) = admissions a ++ admissions b := by
  simp only [admissions, List.filter_append, List.map_append]

theorem admissions_singleton (a : Answer) :
    admissions [a] = if a.admitted then [a.instant] else [] := by
  cases h : a.admitted <;> simp [admissions, h]

/-- A decision adds its instant exactly if it allows. -/
theorem admissions_cons_ok (now : Nat) (d : Decision) (rest : List Answer) :
    admissions (⟨now, .ok d⟩ :: rest) = (if d.allowed then [now] else []) ++ admissions rest := by
  rw [← List.singleton_append, admissions_append, admissions_singleton]
  rfl

theorem length_admissions_cons_ok (now : Nat) (d : Decision) (rest : List Answer) :
    (admissions (⟨now, .ok d⟩ :: rest)).length =
      (if d.allowed then 1 else 0) + (admissions rest).length := by
  rw [admissions_cons_ok, List.length_append]
  split <;> rfl

end Answer

namespace Limiter

/-- The answers of a session. -/
def serve (l : Limiter) (key : String) : Memory → List Occasion → List Answer
  | _, [] => []
  | m, .request now :: rest =>
    let (outcome, m, _) := l.allow Race.backend key (m, ⟨now, false⟩)
    ⟨now, outcome⟩ :: serve l key m rest
  | m, .sweep now :: rest => serve l key (m.sweep now) rest

/-- The answers to requests at some instants, when the entry is all there is of the store. -/
def replay (l : Limiter) : Option Entry → List Nat → List Answer
  | _, [] => []
  | e, now :: rest =>
    match l.decide (e.bind (·.live? now)) now with
    | .error f => ⟨now, .error f⟩ :: replay l e rest
    | .ok (entry, d) => ⟨now, .ok d⟩ :: replay l (some entry) rest

/-- Every request is answered, in order. -/
theorem replay_instants (l : Limiter) (e : Option Entry) (instants : List Nat) :
    (l.replay e instants).map Answer.instant = instants := by
  induction instants generalizing e with
  | nil => rfl
  | cons now rest ih =>
    rw [replay]
    split
    · rw [List.map_cons, ih]
    · rw [List.map_cons, ih]

/-- A limiter that never fails to decide answers every request with a decision. -/
theorem replay_decides {l : Limiter}
    (total : ∀ stored now, ∃ decided, l.decide stored now = .ok decided) (e : Option Entry)
    (instants : List Nat) : ∀ a ∈ l.replay e instants, ∃ d, a.outcome = .ok d := by
  induction instants generalizing e with
  | nil =>
    intro a ha
    cases ha
  | cons now rest ih =>
    obtain ⟨⟨entry, d⟩, hdecide⟩ := total (e.bind (·.live? now)) now
    simp only [replay, hdecide, List.mem_cons, forall_eq_or_imp]
    exact ⟨⟨d, rfl⟩, ih (some entry)⟩

/-- The last answers are those at the last instants. -/
theorem replay_suffix (l : Limiter) (e : Option Entry) {instants : List Nat} {before after : List Answer}
    (h : l.replay e instants = before ++ after) : after.map Answer.instant <:+ instants := by
  refine ⟨before.map Answer.instant, ?_⟩
  rw [← List.map_append, ← h, replay_instants]

/-- What comes after an answer is in order, and not before it. -/
theorem replay_after {l : Limiter} {domain : Nat → Prop} {e : Option Entry} {instants : List Nat}
    (sorted : instants.Pairwise (· ≤ ·)) (within : ∀ t ∈ instants, domain t) {before after : List Answer}
    {a : Answer} (h : l.replay e instants = before ++ a :: after) :
    (∀ t ∈ after.map Answer.instant, a.instant ≤ t) ∧ (after.map Answer.instant).Pairwise (· ≤ ·) ∧
      ∀ t ∈ after.map Answer.instant, domain t := by
  have suffix := l.replay_suffix e h
  rw [List.map_cons] at suffix
  obtain ⟨later, sorted⟩ := List.pairwise_cons.mp (sorted.sublist suffix.sublist)
  exact ⟨later, sorted, fun t ht => within t (suffix.subset (List.mem_cons_of_mem _ ht))⟩

/-- From some request on, a replay is a replay from another entry. -/
theorem replay_drop (l : Limiter) (e : Option Entry) (instants : List Nat)
    {before after : List Answer} (h : l.replay e instants = before ++ after) :
    ∃ e', after = l.replay e' (after.map Answer.instant) := by
  induction instants generalizing e before with
  | nil =>
    obtain ⟨-, rfl⟩ := List.append_eq_nil_iff.mp h.symm
    exact ⟨none, rfl⟩
  | cons now rest ih =>
    cases before with
    | nil =>
      refine ⟨e, ?_⟩
      rw [List.nil_append] at h
      rw [← h, replay_instants]
    | cons b before =>
      rw [replay] at h
      split at h
      · exact ih _ (List.cons.inj h).2
      · exact ih _ (List.cons.inj h).2

/-- **What one decision keeps, a replay keeps.** If every decision at a reading in `domain` turns what
holds of an entry and of the answers so far into the same of the entry it writes and of one answer
more, then that holds before and after each answer of a replay, which goes on from the entry that was
written. -/
theorem replay_keeps {l : Limiter} {domain : Nat → Prop}
    (keeps : Option Entry → Nat → List Answer → Prop)
    (step : ∀ e since done now, keeps e since done → since ≤ now → domain now →
      ∃ entry d, l.decide (e.bind (·.live? now)) now = .ok (entry, d) ∧
        keeps (some entry) now (done ++ [⟨now, .ok d⟩]))
    {instants : List Nat} (sorted : instants.Pairwise (· ≤ ·)) (within : ∀ t ∈ instants, domain t)
    {e : Option Entry} {since : Nat} {done : List Answer} (kept : keeps e since done)
    (later : ∀ t ∈ instants, since ≤ t) {before after : List Answer} {a : Answer}
    (h : l.replay e instants = before ++ a :: after) :
    ∃ e' since', keeps e' since' (done ++ before) ∧ since' ≤ a.instant ∧ domain a.instant ∧
      ∃ entry d, l.decide (e'.bind (·.live? a.instant)) a.instant = .ok (entry, d) ∧
        a = ⟨a.instant, .ok d⟩ ∧ keeps (some entry) a.instant (done ++ (before ++ [a])) ∧
        l.replay (some entry) (after.map Answer.instant) = after := by
  induction instants generalizing e since done before with
  | nil => simp [replay] at h
  | cons now rest ih =>
    obtain ⟨next, sorted⟩ := List.pairwise_cons.mp sorted
    have hsince := later now List.mem_cons_self
    have hdomain := within now List.mem_cons_self
    obtain ⟨entry, d, hdecide, kept'⟩ := step e since done now kept hsince hdomain
    simp only [replay, hdecide] at h
    cases before with
    | nil =>
      obtain ⟨rfl, rfl⟩ := List.cons.inj h
      rw [List.append_nil, replay_instants]
      exact ⟨e, since, kept, hsince, hdomain, entry, d, hdecide, rfl, kept', rfl⟩
    | cons b before =>
      -- the entry that was written takes the place of the one at the start
      obtain ⟨rfl, hrest⟩ := List.cons.inj h
      have within' : ∀ t ∈ rest, domain t := by
        intro t ht
        exact within t (List.mem_cons_of_mem now ht)
      have reached := ih sorted within' kept' next hrest
      simp only [List.append_assoc, List.singleton_append] at reached
      exact reached

/-- What one decision keeps of the entry alone holds of the entry that an answer is decided on, and of the
one that it leaves, from which the replay goes on. -/
theorem replay_reaches {l : Limiter} {domain : Nat → Prop} (keeps : Option Entry → Nat → Prop)
    (step : ∀ e since now, keeps e since → since ≤ now → domain now →
      ∃ entry d, l.decide (e.bind (·.live? now)) now = .ok (entry, d) ∧ keeps (some entry) now)
    {instants : List Nat} (sorted : instants.Pairwise (· ≤ ·)) (within : ∀ t ∈ instants, domain t)
    {e : Option Entry} {since : Nat} (kept : keeps e since) (later : ∀ t ∈ instants, since ≤ t)
    {before after : List Answer} {a : Answer} (h : l.replay e instants = before ++ a :: after) :
    ∃ e' since', keeps e' since' ∧ since' ≤ a.instant ∧ domain a.instant ∧
      ∃ entry d, l.decide (e'.bind (·.live? a.instant)) a.instant = .ok (entry, d) ∧
        a = ⟨a.instant, .ok d⟩ ∧ keeps (some entry) a.instant ∧
        l.replay (some entry) (after.map Answer.instant) = after :=
  @replay_keeps l domain (fun e since _ => keeps e since) (fun e since _ => step e since) instants
    sorted within e since [] kept later before after a h

/-- From `start` on, a store holds under a limiter's key what an entry says. -/
def Holds (l : Limiter) (key : String) (m : Memory) (start : Nat) (e : Option Entry) : Prop :=
  ∀ t, start ≤ t → m.present t (l.slot key) = Entry.unlapsed t e

section

variable {l : Limiter} {key : String} {m : Memory} {start now : Nat} {e : Option Entry}

/-- Nothing that is there now or later is swept. -/
theorem Holds.sweep (h : l.Holds key m start e) (le : start ≤ now) :
    l.Holds key (m.sweep now) now e := by
  intro t ht
  rw [m.present_sweep ht]
  exact h t (Nat.le_trans le ht)

/-- The store and the entry show the same to a reader, hence to a decision. -/
theorem Holds.live_eq (h : l.Holds key m start e) (le : start ≤ now) :
    m.live now (l.slot key) = e.bind (·.live? now) := by
  rw [Memory.live, h now le, Entry.bind_live?]

/-- A decision that fails leaves what was held. -/
theorem Holds.allow_error (h : l.Holds key m start e) (le : start ≤ now) {f : Failure}
    (decided : l.decide (e.bind (·.live? now)) now = .error f) :
    ∃ m', l.allow Race.backend key (m, ⟨now, false⟩) = (.error f, m', ⟨now, false⟩) ∧
      l.Holds key m' now e := by
  rw [← h.live_eq le] at decided
  refine ⟨(m.get now (l.slot key)).2, Update.run_undisturbed_error decided, ?_⟩
  intro t ht
  rw [m.present_get ht]
  exact h t (Nat.le_trans le ht)

/-- **A decision** is made on what is held, and then its entry is held. -/
theorem Holds.allow_ok (h : l.Holds key m start e) (le : start ≤ now) {entry : Entry} {d : Decision}
    (decided : l.decide (e.bind (·.live? now)) now = .ok (entry, d)) :
    ∃ m', l.allow Race.backend key (m, ⟨now, false⟩) = (.ok d, m', ⟨now, false⟩) ∧
      l.Holds key m' now (some entry) := by
  rw [← h.live_eq le] at decided
  obtain ⟨m', ran, present⟩ := @Update.run_undisturbed _ (l.slot key) l.maxRetries _ _ _ _ _ decided
  refine ⟨m', ran, fun t ht => ?_⟩
  rw [present t ht, if_pos rfl]

end

/-- **A session is its replay**: neither sweeps nor the rest of the store have a part in it. -/
theorem serve_eq_replay (l : Limiter) (key : String) {m : Memory} {start : Nat}
    {e : Option Entry} (holds : l.Holds key m start e) {occasions : List Occasion}
    (ordered : Occasion.Chronological occasions) (after : ∀ o ∈ occasions, start ≤ o.instant) :
    l.serve key m occasions = l.replay e (Occasion.requests occasions) := by
  induction occasions generalizing m start e with
  | nil => rfl
  | cons o rest ih =>
    obtain ⟨first, -⟩ := List.forall_mem_cons.mp after
    obtain ⟨later, tail⟩ := List.pairwise_cons.mp ordered
    have after : ∀ o' ∈ rest, o.instant ≤ o'.instant := by
      intro o' ho'
      exact later o'.instant (List.mem_map.mpr ⟨o', ho', rfl⟩)
    cases o with
    | sweep now =>
      have hstart : start ≤ now := first
      rw [serve, Occasion.requests_cons_sweep]
      exact ih (holds.sweep hstart) tail after
    | request now =>
      have hstart : start ≤ now := first
      rw [Occasion.requests_cons_request, replay]
      cases decided : l.decide (e.bind (·.live? now)) now with
      | error f =>
        obtain ⟨m', ran, holds⟩ := holds.allow_error hstart decided
        simp only [serve, ran, List.cons.injEq, true_and]
        exact ih holds tail after
      | ok result =>
        obtain ⟨m', ran, holds⟩ := holds.allow_ok hstart decided
        simp only [serve, ran, List.cons.injEq, true_and]
        exact ih holds tail after

/-- Any store holds what its table says. -/
theorem holds_table (l : Limiter) (key : String) (m : Memory) :
    l.Holds key m 0 (m.table.get? (l.slot key)) := fun _ _ => rfl

/-- A session depends on the table only through the limiter's own key. -/
theorem serve_eq (l : Limiter) (key : String) (m : Memory) {occasions : List Occasion}
    (ordered : Occasion.Chronological occasions) :
    l.serve key m occasions =
      l.replay (m.table.get? (l.slot key)) (Occasion.requests occasions) :=
  serve_eq_replay l key (l.holds_table key m) ordered fun _ _ => Nat.zero_le _

end Limiter

end Admission

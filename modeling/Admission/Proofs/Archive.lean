/-
# Admission.Proofs.Archive — a state that lapses is not missed

Stored states lapse a window after they were written, so that keys that nobody asks about any more take
no room for ever. To see that no decision depends on it, a limiter is run twice: over the store inside the
process, and over an *archive*, a store in which an entry stays until it is written over, whatever its
expiry says (`Archive`). A *record* of a session has, for each request, the answer and the entry that is
there right after it (`Limiter.record`).

The two records are the same. They differ only where a request comes after the state has lapsed: the one
limiter decides on nothing then, and the other on an old state; but a steady operation makes no difference
between the two (`Limiter.lapsing_loses_nothing`).
-/
import Admission.Proofs.Steady

namespace Admission

/-! ## A store that keeps everything -/

/-- A store in which entries do not lapse. -/
structure Archive where
  /-- The entry under a key. -/
  kept? : String → Option Entry

namespace Archive

/-- The value under a key, however old it is. -/
def value? (a : Archive) (key : String) : Option ByteArray := (a.kept? key).map Entry.value

/-- An entry is put under a key, or taken from there. -/
def put (a : Archive) (key : String) (e : Option Entry) : Archive :=
  ⟨Function.update a.kept? key e⟩

/-- An archive as a backend. -/
def backend {σ : Type} (around : Surroundings σ) : Backend (Archive × σ) :=
  let outer : Surroundings (Archive × σ) :=
    ⟨fun s => around.now s.2, fun s => around.cancelled s.2⟩
  { outer with
    get := fun key => outer.guarded fun (a, s) => (.ok (a.value? key), a, s)
    set := fun key entry => outer.guarded fun (a, s) => (.ok (), a.put key (some entry), s)
    delete := fun key => outer.guarded fun (a, s) => (.ok (), a.put key none, s)
    swap := fun key expected entry => outer.guarded fun (a, s) =>
      if a.value? key = expected then (.ok true, a.put key (some entry), s) else (.ok false, a, s)
    close := fun s => (.ok (), s) }

theorem backend_swap {a : Archive} {key : String} {now : Nat} (entry : Entry) :
    (backend Moment.surroundings).swap key (a.value? key) entry (a, ⟨now, false⟩) =
      (.ok true, a.put key (some entry), ⟨now, false⟩) := by
  show (if a.value? key = a.value? key then _ else _) = _
  rw [if_pos rfl]

end Archive

/-! ## Records -/

/-- A store that can be swept, and whose entries can be looked at from outside. -/
structure Vault (σ : Type) where
  /-- The store for its callers. -/
  backend : Backend (σ × Moment)
  /-- The entry under a key, lapsed or not. -/
  kept? : σ → String → Option Entry
  /-- The store after a sweep at an instant. -/
  sweep : σ → Nat → σ

/-- The store inside the process. -/
def Memory.vault : Vault Memory := ⟨Race.backend, fun m key => m.table.get? key, sweep⟩

/-- An archive, in which there is nothing to sweep. -/
def Archive.vault : Vault Archive := ⟨backend Moment.surroundings, kept?, fun a _ => a⟩

/-- What came of a request of a session. -/
structure Recorded where
  /-- The answer. -/
  answer : Answer
  /-- What is under the limiter's key right after it. -/
  kept? : Option Entry

namespace Limiter

variable {l : Limiter} {key : String}

/-- The record of a session. -/
def record {σ : Type} (vault : Vault σ) (l : Limiter) (key : String) : σ → List Occasion → List Recorded
  | _, [] => []
  | s, .request now :: rest =>
    let (outcome, s, _) := l.allow vault.backend key (s, ⟨now, false⟩)
    ⟨⟨now, outcome⟩, vault.kept? s (l.slot key)⟩ :: record vault l key s rest
  | s, .sweep now :: rest => record vault l key (vault.sweep s now) rest

theorem record_request {σ : Type} (vault : Vault σ) {s s' : σ} {now : Nat} {moment : Moment}
    {outcome : Except Failure Decision}
    (ran : l.allow vault.backend key (s, ⟨now, false⟩) = (outcome, s', moment)) (rest : List Occasion) :
    l.record vault key s (.request now :: rest) =
      ⟨⟨now, outcome⟩, vault.kept? s' (l.slot key)⟩ :: l.record vault key s' rest := by
  rw [record, ran]

/-- A request over an archive is decided on what is there, and its entry takes that place. -/
theorem allow_archive {a : Archive} {now : Nat} {entry : Entry} {d : Decision}
    (decided : l.decide (a.value? (l.slot key)) now = .ok (entry, d)) :
    l.allow Archive.vault.backend key (a, ⟨now, false⟩) =
      (.ok d, a.put (l.slot key) (some entry), ⟨now, false⟩) :=
  Update.run_accepted rfl rfl (Update.Operation.action_eq decided _) rfl (Archive.backend_swap entry)

/-- What is held and has not lapsed is in the table. -/
theorem Holds.get?_eq {m : Memory} {now : Nat} {entry : Entry} (h : l.Holds key m now (some entry))
    (unexpired : entry.expired now = false) : m.table.get? (l.slot key) = some entry := by
  have present : m.present now (l.slot key) = some entry := by
    rw [h now (Nat.le_refl now)]
    simp [Entry.unlapsed, Option.filter, unexpired]
  exact (Option.filter_eq_some_iff.mp present).1

/-- **Both records are the same**, if both stores hold what the limiter has stored itself, and every
entry in them is one that it stores. -/
theorem record_eq (steady : Steady l.decide) {m : Memory} {a : Archive} {start : Nat}
    (holds : l.Holds key m start (a.kept? (l.slot key)))
    (known : steady.Known start (a.kept? (l.slot key))) {occasions : List Occasion}
    (ordered : Occasion.Chronological occasions) (after : ∀ o ∈ occasions, start ≤ o.instant)
    (within : ∀ t ∈ Occasion.requests occasions, t < Word.last) :
    l.record Memory.vault key m occasions = l.record Archive.vault key a occasions ∧
      ∀ r ∈ l.record Memory.vault key m occasions, ∃ d entry,
        r = ⟨⟨r.answer.instant, .ok d⟩, some entry⟩ ∧ steady.own r.answer.instant entry := by
  induction occasions generalizing m a start with
  | nil => exact ⟨rfl, nofun⟩
  | cons o rest ih =>
    obtain ⟨first, -⟩ := List.forall_mem_cons.mp after
    obtain ⟨later, tail⟩ := List.pairwise_cons.mp ordered
    have after : ∀ o' ∈ rest, o.instant ≤ o'.instant := by
      intro o' ho'
      exact later o'.instant (List.mem_map.mpr ⟨o', ho', rfl⟩)
    cases o with
    | sweep now =>
      have hstart : start ≤ now := first
      exact ih (holds.sweep hstart) (known.later hstart) tail after within
    | request now =>
      have hstart : start ≤ now := first
      rw [Occasion.requests_cons_request] at within
      obtain ⟨hlast, within⟩ := List.forall_mem_cons.mp within
      obtain ⟨entry, d, decided, own, -⟩ := Steady.decided known hstart hlast
      -- the one decides on what has not lapsed, and the other on everything: both decide the same
      obtain ⟨m', ran, holds⟩ :=
        holds.allow_ok hstart ((Steady.operation_live? known hlast).trans decided)
      have there := holds.get?_eq (steady.unexpired own hlast)
      have put : (a.put (l.slot key) (some entry)).kept? (l.slot key) = some entry :=
        Function.update_self _ _ _
      obtain ⟨same, recorded⟩ := ih (a := a.put (l.slot key) (some entry)) (by rwa [put])
        (by rw [put]; exact Steady.known_some own) tail after within
      have there' : Memory.vault.kept? m' (l.slot key) = some entry := there
      have put' : Archive.vault.kept? (a.put (l.slot key) (some entry)) (l.slot key) = some entry := put
      rw [record_request Memory.vault ran, record_request Archive.vault (allow_archive decided), there',
        put']
      exact ⟨congrArg _ same, List.forall_mem_cons.mpr ⟨⟨d, entry, rfl, own⟩, recorded⟩⟩

/-- **The expiry of a state never changes a decision.** In every session that begins with a fresh key,
the answers, and the entries that are written with them, are the same over the store inside the process
as over an archive. Every request is answered with a decision and writes an entry; and at any reading at
which that entry has lapsed, a decision on its state and one on no state at all give the same entry and
the same answer. -/
theorem lapsing_loses_nothing (l : Limiter) (valid : l.quota.Valid) (key : String) {m : Memory}
    {a : Archive} (absent : m.table.get? (l.slot key) = none) (absent' : a.kept? (l.slot key) = none)
    {occasions : List Occasion} (ordered : Occasion.Chronological occasions)
    (within : ∀ t ∈ Occasion.requests occasions, t < Word.last) :
    l.record Memory.vault key m occasions = l.record Archive.vault key a occasions ∧
      ∀ r ∈ l.record Memory.vault key m occasions, ∃ d entry,
        r = ⟨⟨r.answer.instant, .ok d⟩, some entry⟩ ∧
          ∀ t, entry.expired t = true → t < Word.last → ∃ decided,
            l.decide (some entry.value) t = .ok decided ∧ l.decide none t = .ok decided := by
  have steady := l.steady valid
  have holds : l.Holds key m 0 (a.kept? (l.slot key)) := by
    rw [absent', ← absent]
    exact l.holds_table key m
  have known : steady.Known 0 (a.kept? (l.slot key)) := by
    rw [absent']
    exact steady.known_none 0
  obtain ⟨same, recorded⟩ :=
    record_eq steady holds known ordered (fun _ _ => Nat.zero_le _) within
  refine ⟨same, fun r hr => ?_⟩
  obtain ⟨d, entry, hr, own⟩ := recorded r hr
  refine ⟨d, entry, hr, fun t lapsed ht => ?_⟩
  obtain ⟨decided, fresh⟩ := l.decides valid none t
  exact ⟨decided, (steady.lapse own lapsed ht).trans fresh, fresh⟩

/-- One request per ten milliseconds: the state of 1 lapses at 11, where a request comes and is admitted.
The archive still has that state, and so has the store inside the process, in which nothing is swept
before 12. The denial at 15 makes the state of 11 last until 25. -/
theorem lapsing_loses_nothing_at_expiry :
    let l : Limiter := ⟨.slidingWindow, ⟨1, .ofMillis 10⟩, 0⟩
    let m : Memory := .bare .manual
    let a : Archive := ⟨fun _ => none⟩
    let occasions : List Occasion :=
      [.request 1, .request 11, .sweep 12, .request 15, .sweep 21, .request 21]
    (l.quota.Valid ∧ Occasion.Chronological occasions ∧
        ∀ t ∈ Occasion.requests occasions, t < Word.last) ∧
      l.record Memory.vault "k" m occasions = l.record Archive.vault "k" a occasions ∧
      (l.record Archive.vault "k" a occasions).map (fun r => r.answer.admitted) =
        [true, true, false, true] ∧
      ∀ r ∈ l.record Memory.vault "k" m occasions, ∃ d entry,
        r = ⟨⟨r.answer.instant, .ok d⟩, some entry⟩ ∧
          ∀ t, entry.expired t = true → t < Word.last → ∃ decided,
            l.decide (some entry.value) t = .ok decided ∧ l.decide none t = .ok decided := by
  intro l m a occasions
  have valid : l.quota.Valid := ⟨by decide, by decide, by decide⟩
  have ordered : Occasion.Chronological occasions := by
    show List.Pairwise _ _
    decide
  have within : ∀ t ∈ Occasion.requests occasions, t < Word.last := by decide
  obtain ⟨same, recorded⟩ :=
    lapsing_loses_nothing l valid "k" (m := m) (a := a) rfl rfl ordered within
  exact ⟨⟨valid, ordered, within⟩, same, by decide +kernel, recorded⟩

end Limiter

end Admission

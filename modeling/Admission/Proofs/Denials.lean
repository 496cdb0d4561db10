/-
# Admission.Proofs.Denials — who is denied leaves no trace

A denied request is written down all the same: its entry lasts a whole window longer than the one before
it, and a log is stored without what has left the window. So a session with a denial and the same session
without it do not have the same entry in the store, and the one may have lapsed while the other has not.

No later request can tell. What matters of an entry is what will be decided on it, at each instant from
now on (`Steady.Alike`); by the two laws of a steady operation an entry after a denial is alike to the
entry before it, and alike entries give the same answers. Hence any denials may be left out of a session,
and what remains of its answers is what the shorter session answers (`Limiter.denials_leave_no_trace`).
-/
import Admission.Proofs.Steady

namespace Admission

/-! ## Leaving denials out -/

/-- Whether the request was denied. -/
def Answer.denied (a : Answer) : Bool :=
  match a.outcome with
  | .ok d => !d.allowed
  | .error _ => false

/-- Some answers, and the same with any of the denials left out. -/
inductive Thinned : List Answer → List Answer → Prop where
  | nil : Thinned [] []
  | keep {answers rest : List Answer} (a : Answer) (thinned : Thinned answers rest) :
    Thinned (a :: answers) (a :: rest)
  | drop {answers rest : List Answer} {a : Answer} (denied : a.denied = true)
    (thinned : Thinned answers rest) : Thinned (a :: answers) rest

/-- Any denials may be left out. -/
theorem thinned_filter {keep : Answer → Bool} {answers : List Answer}
    (h : ∀ a ∈ answers, keep a = false → a.denied = true) :
    Thinned answers (answers.filter keep) := by
  induction answers with
  | nil => exact .nil
  | cons a answers ih =>
    obtain ⟨first, h⟩ := List.forall_mem_cons.mp h
    rw [List.filter_cons]
    split
    · exact .keep a (ih h)
    · next dropped => exact .drop (first (by simpa using dropped)) (ih h)

/-! ## Alike entries -/

namespace Steady

/-- From an instant on, the same is decided on both entries, lapsed or not. -/
def Alike (operation : Update.Operation Decision) (since : Nat) (e e' : Option Entry) : Prop :=
  ∀ t, since ≤ t → t < Word.last →
    operation (e.map Entry.value) t = operation (e'.map Entry.value) t

end Steady

namespace Limiter

/-- **Alike entries give the same answers**, also when denials are left out on the one side. -/
theorem replay_thinned {l : Limiter} (steady : Steady l.decide) {since : Nat} {e e' : Option Entry}
    (known : steady.Known since e) (known' : steady.Known since e')
    (alike : Steady.Alike l.decide since e e') {instants : List Nat}
    (sorted : instants.Pairwise (· ≤ ·)) (after : ∀ t ∈ instants, since ≤ t)
    (within : ∀ t ∈ instants, t < Word.last) {rest : List Answer}
    (thinned : Thinned (l.replay e instants) rest) :
    l.replay e' (rest.map Answer.instant) = rest := by
  induction instants generalizing since e e' rest with
  | nil =>
    cases thinned
    rfl
  | cons now instants ih =>
    obtain ⟨next, sorted⟩ := List.pairwise_cons.mp sorted
    obtain ⟨hsince, -⟩ := List.forall_mem_cons.mp after
    obtain ⟨hlast, within⟩ := List.forall_mem_cons.mp within
    obtain ⟨entry, d, decided, own, denial⟩ := Steady.decided known hsince hlast
    have seen : l.decide (e.bind (·.live? now)) now = .ok (entry, d) := by
      rw [Steady.operation_live? known hlast, decided]
    rw [replay, seen] at thinned
    cases thinned with
    | keep _ thinned =>
      -- both sides decide the same and store the same
      have seen' : l.decide (e'.bind (·.live? now)) now = .ok (entry, d) := by
        rw [Steady.operation_live? known' hlast, ← alike now hsince hlast, decided]
      have stored : steady.Known now (some entry) := Steady.known_some own
      rw [List.map_cons, replay, seen']
      exact congrArg _ (ih stored stored (fun _ _ _ => rfl) sorted next within thinned)
    | drop denied thinned =>
      -- only one side stores an entry, which is alike to the one before
      have denied : d.allowed = false := by simpa [Answer.denied] using denied
      have alike' : Steady.Alike l.decide now (some entry) e' := fun t ht hlast =>
        (denial denied t ht hlast).trans (alike t (Nat.le_trans hsince ht) hlast)
      exact ih (Steady.known_some own) (known'.later hsince) alike' sorted next within thinned

/-- **A denial has no effect on anybody's future.** In every session that begins with a fresh key, every
request is answered with a decision; and if some of the denied requests had never been made, every other
one would have been answered just as it was, with the same standing. In the two sessions lapsed entries
may be swept at different times. -/
theorem denials_leave_no_trace (l : Limiter) (valid : l.quota.Valid) (key : String) {m m' : Memory}
    (absent : m.table.get? (l.slot key) = none) (absent' : m'.table.get? (l.slot key) = none)
    {occasions occasions' : List Occasion} (ordered : Occasion.Chronological occasions)
    (ordered' : Occasion.Chronological occasions')
    (within : ∀ t ∈ Occasion.requests occasions, t < Word.last) :
    (l.serve key m occasions).map Answer.instant = Occasion.requests occasions ∧
      (∀ a ∈ l.serve key m occasions, ∃ d, a.outcome = .ok d) ∧
      ∀ rest, Thinned (l.serve key m occasions) rest →
        Occasion.requests occasions' = rest.map Answer.instant → l.serve key m' occasions' = rest := by
  have steady := l.steady valid
  have known : steady.Known 0 none := steady.known_none 0
  rw [l.serve_eq key m ordered, l.serve_eq key m' ordered', absent, absent']
  refine ⟨l.replay_instants _ _, replay_decides (l.decides valid) _ _, fun rest thinned same => ?_⟩
  rw [same]
  exact replay_thinned steady known known (fun _ _ _ => rfl) ordered.requests
    (fun _ _ => Nat.zero_le _) within thinned

/-- Two requests per ten milliseconds. The denial at 4 makes the bucket last until 14; without it there
is nothing left at 12 to sweep. Either way the two requests at 13 find two tokens. -/
theorem denials_leave_no_trace_of_bucket :
    let l : Limiter := ⟨.tokenBucket, ⟨2, .ofMillis 10⟩, 0⟩
    let m : Memory := .bare (.requests 3)
    let m' : Memory := .bare .manual
    let occasions : List Occasion :=
      [.request 1, .request 1, .request 4, .sweep 12, .request 13, .request 13, .request 13]
    let occasions' : List Occasion := [.request 1, .request 1, .sweep 12, .request 13, .request 13]
    let rest := (l.serve "k" m occasions).filter (!·.denied)
    (l.quota.Valid ∧ Occasion.Chronological occasions ∧ Occasion.Chronological occasions' ∧
        (∀ t ∈ Occasion.requests occasions, t < Word.last) ∧
        Thinned (l.serve "k" m occasions) rest ∧
        Occasion.requests occasions' = rest.map Answer.instant) ∧
      (l.serve "k" m occasions).map Answer.denied = [false, false, true, false, false, true] ∧
      l.serve "k" m' occasions' = rest := by
  intro l m m' occasions occasions' rest
  have valid : l.quota.Valid := ⟨by decide, by decide, by decide⟩
  have ordered : Occasion.Chronological occasions := by
    show List.Pairwise _ _
    decide
  have ordered' : Occasion.Chronological occasions' := by
    show List.Pairwise _ _
    decide
  have within : ∀ t ∈ Occasion.requests occasions, t < Word.last := by decide
  have thinned : Thinned (l.serve "k" m occasions) rest := thinned_filter fun a _ h => by simpa using h
  have same : Occasion.requests occasions' = rest.map Answer.instant := by decide +kernel
  refine ⟨⟨valid, ordered, ordered', within, thinned, same⟩, by decide +kernel, ?_⟩
  obtain ⟨-, -, others⟩ :=
    @denials_leave_no_trace l valid "k" m m' rfl rfl occasions occasions' ordered ordered' within
  exact others rest thinned same

end Limiter

end Admission

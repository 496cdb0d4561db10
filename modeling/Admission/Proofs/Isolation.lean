/-
# Admission.Proofs.Isolation — limiters that share a store do not notice each other

Any number of limiters decide and forget over one store inside the process, for any caller keys. What
a scope sees of that is the outcomes of its own requests.

Of all that the store holds, a request looks at the entry of its own scope and at nothing else, and it
changes that entry and nothing else (`Request.solo`). Since no two scopes share a storage key, the
outcomes of a scope depend on its own entry and on its own requests alone (`plainOutcomes_alone`);
and since nobody can tell when lapsed entries are removed, the same holds of the store inside the
process, whoever triggers a sweep and when (`scopes_isolated`).
-/
import Admission.Proofs.Course
import Admission.Proofs.Scope
import Admission.Proofs.Store.Plain
import Admission.Proofs.Update.Steps

namespace Admission.Isolation

/-! ## Requests -/

/-- What a caller asks of a limiter. -/
inductive Request where
  /-- To decide on a caller key. -/
  | allow (limiter : Limiter) (key : String)
  /-- To forget a caller key. -/
  | reset (limiter : Limiter) (key : String)
deriving DecidableEq

/-- What comes of it: a decision, or nothing to tell of. -/
abbrev Outcome := Except Failure (Option Decision)

namespace Request

/-- Whose state it is about. -/
def scope : Request → Scope
  | allow limiter key => limiter.scope key
  | reset limiter key => limiter.scope key

/-- A store inside the process sees to a request at a moment. -/
def serve (request : Request) (m : Memory) (moment : Moment) : Outcome × Memory :=
  match request with
  | allow limiter key =>
    let (outcome, m, _) := limiter.allow Race.backend key (m, moment)
    (outcome.map some, m)
  | reset limiter key =>
    let (outcome, m, _) := limiter.reset Race.backend key (m, moment)
    (outcome.map fun _ => none, m)

/-- What comes of a request, and of the entry of its scope, when that entry is all there is. -/
def solo (request : Request) (e : Option Entry) (moment : Moment) : Outcome × Option Entry :=
  if moment.cancelled then (.error .cancelled, e)
  else
    match request with
    | allow limiter _ =>
      match limiter.decide (e.bind (·.live? moment.now)) moment.now with
      | .error f => (.error f, e)
      | .ok (entry, decision) => (.ok (some decision), some entry)
    | reset _ _ => (.ok none, none)

/-- A decision that nobody interferes with looks at the entry of its scope, and writes that entry. -/
theorem serve_allow (limiter : Limiter) (key : String) {m : Memory} {p : Plain} {now : Nat}
    (h : m.Holds now p) :
    let e := p (limiter.scope key).slot
    ((allow limiter key).serve m ⟨now, false⟩).1 = ((allow limiter key).solo e ⟨now, false⟩).1 ∧
      ((allow limiter key).serve m ⟨now, false⟩).2.Holds now
        (Function.update p (limiter.scope key).slot ((allow limiter key).solo e ⟨now, false⟩).2) := by
  intro e
  have live : m.live now (limiter.slot key) = e.bind (·.live? now) := by
    rw [limiter.slot_eq]
    exact h.live_eq _
  cases hdecide : limiter.decide (e.bind (·.live? now)) now with
  | error f =>
    have hallow : limiter.allow Race.backend key (m, ⟨now, false⟩) = _ :=
      Update.run_undisturbed_error (live ▸ hdecide)
    simp only [serve, solo, hallow, hdecide, e, Bool.false_eq_true, if_false, Function.update_eq_self]
    exact ⟨rfl, h.kept fun t ht => m.present_get ht _⟩
  | ok decided =>
    obtain ⟨entry, decision⟩ := decided
    obtain ⟨m', hrun, hpresent⟩ :=
      @Update.run_undisturbed _ (limiter.slot key) limiter.maxRetries _ _ _ _ _ (live ▸ hdecide)
    have hallow : limiter.allow Race.backend key (m, ⟨now, false⟩) = _ := hrun
    simp only [serve, solo, hallow, hdecide, Bool.false_eq_true, if_false]
    exact ⟨rfl, h.put hpresent⟩

/-- **A request** looks at the entry of its scope, and changes that entry only. -/
theorem serve_holds (request : Request) {m : Memory} {p : Plain} (moment : Moment)
    (h : m.Holds moment.now p) :
    (request.serve m moment).1 = (request.solo (p request.scope.slot) moment).1 ∧
      (request.serve m moment).2.Holds moment.now
        (Function.update p request.scope.slot (request.solo (p request.scope.slot) moment).2) := by
  obtain ⟨now, cancelled⟩ := moment
  cases cancelled with
  | true =>
    simp only [solo, if_true, Function.update_eq_self]
    cases request with
    | allow limiter key =>
      have hallow : limiter.allow Race.backend key (m, ⟨now, true⟩) = _ := Update.run_cancelled
      simp only [serve, hallow]
      exact ⟨rfl, h⟩
    | reset limiter key => exact ⟨rfl, h⟩
  | false =>
    cases request with
    | allow limiter key => exact serve_allow limiter key h
    | reset limiter key => exact ⟨rfl, h.put fun t _ => m.present_delete t (limiter.slot key)⟩

end Request

/-! ## Courses -/

/-- Something that happens to a store that limiters share. -/
inductive Turn where
  /-- A request is seen to. -/
  | request (request : Request)
  /-- Lapsed entries are swept. -/
  | sweep
deriving DecidableEq

/-- Whose turn it is. -/
def Turn.scope? : Turn → Option Scope
  | .request asked => some asked.scope
  | .sweep => none

/-- What comes of a turn in the store inside the process, with the scope that gets to know. -/
def attend (m : Memory) (moment : Moment) : Turn → Option (Scope × Outcome) × Memory
  | .request request =>
    let (outcome, m) := request.serve m moment
    (some (request.scope, outcome), m)
  | .sweep => (none, m.sweep moment.now)

/-- What comes of it in a plain store. -/
def attendPlain (p : Plain) (moment : Moment) : Turn → Option (Scope × Outcome) × Plain
  | .request request =>
    let slot := request.scope.slot
    let (outcome, e) := request.solo (p slot) moment
    (some (request.scope, outcome), Function.update p slot e)
  | .sweep => (none, p)

/-- What a scope gets to know. -/
def hears (scope : Scope) (told : Option (Scope × Outcome)) : Option Outcome :=
  told.bind fun (whose, outcome) => if whose = scope then some outcome else none

/-- The outcomes of the requests of a scope, over a store inside the process. -/
def outcomes (scope : Scope) (m : Memory) (course : Course Turn) : List Outcome :=
  (course.replies attend m).filterMap (hears scope)

/-- The outcomes of the requests of a scope, over a plain store. -/
def plainOutcomes (scope : Scope) (p : Plain) (course : Course Turn) : List Outcome :=
  (course.replies attendPlain p).filterMap (hears scope)

/-- The requests of a scope at their moments, without anything else. -/
def alone (scope : Scope) (course : Course Turn) : Course Turn :=
  course.filter fun (_, turn) => turn.scope? = some scope

/-- **One turn** is the same in both stores, and leaves the one holding what the other does. -/
theorem attend_holds {m : Memory} {p : Plain} (moment : Moment) (h : m.Holds moment.now p)
    (turn : Turn) :
    (attend m moment turn).1 = (attendPlain p moment turn).1 ∧
      (attend m moment turn).2.Holds moment.now (attendPlain p moment turn).2 := by
  cases turn with
  | request request =>
    obtain ⟨outcome, holds⟩ := request.serve_holds moment h
    exact ⟨congrArg (fun outcome => some (request.scope, outcome)) outcome, holds⟩
  | sweep => exact ⟨rfl, h.kept fun _ ht => m.present_sweep ht⟩

/-- Over every course the outcomes are those over a plain store. -/
theorem outcomes_eq_plain (scope : Scope) (m : Memory) {course : Course Turn}
    (ordered : course.Chronological) :
    outcomes scope m course = plainOutcomes scope m.table.get? course := by
  have same : course.replies attend m = course.replies attendPlain m.table.get? := by
    refine Course.lockstep (fun _ _ => True) (fun now m p => m.Holds now p) ?_ ordered
      (fun _ _ => trivial) (m.holds_get? 0) fun _ _ => Nat.zero_le _
    intro now m p moment turn h le _
    exact attend_holds moment (h.later le) turn
  rw [outcomes, plainOutcomes, same]

/-! ## One scope among others -/

variable {scope : Scope} {p p' : Plain} {moment : Moment} {request : Request}

theorem plainOutcomes_own (h : request.scope = scope) (rest : Course Turn) :
    plainOutcomes scope p ((moment, .request request) :: rest) =
      (request.solo (p scope.slot) moment).1 ::
        plainOutcomes scope
          (Function.update p scope.slot (request.solo (p scope.slot) moment).2) rest := by
  subst h
  simp [plainOutcomes, Course.replies, attendPlain, hears]

theorem plainOutcomes_other (h : request.scope ≠ scope) (rest : Course Turn) :
    plainOutcomes scope p ((moment, .request request) :: rest) =
      plainOutcomes scope
        (Function.update p request.scope.slot
          (request.solo (p request.scope.slot) moment).2) rest := by
  simp [plainOutcomes, Course.replies, attendPlain, hears, h]

theorem plainOutcomes_sweep (rest : Course Turn) :
    plainOutcomes scope p ((moment, .sweep) :: rest) = plainOutcomes scope p rest := rfl

theorem alone_own (h : request.scope = scope) (rest : Course Turn) :
    alone scope ((moment, .request request) :: rest) =
      (moment, .request request) :: alone scope rest := by
  simp [alone, Turn.scope?, h]

theorem alone_other (h : request.scope ≠ scope) (rest : Course Turn) :
    alone scope ((moment, .request request) :: rest) = alone scope rest := by
  simp [alone, Turn.scope?, h]

theorem alone_sweep (rest : Course Turn) :
    alone scope ((moment, .sweep) :: rest) = alone scope rest := rfl

/-- **A scope on its own**: what it sees of a course depends on the entry at its own key and on its own
requests. -/
theorem plainOutcomes_alone (h : p scope.slot = p' scope.slot) (course : Course Turn) :
    plainOutcomes scope p course = plainOutcomes scope p' (alone scope course) := by
  induction course generalizing p p' with
  | nil => rfl
  | cons happening rest ih =>
    obtain ⟨moment, turn⟩ := happening
    cases turn with
    | sweep =>
      rw [plainOutcomes_sweep, alone_sweep]
      exact ih h
    | request request =>
      by_cases own : request.scope = scope
      · rw [alone_own own, plainOutcomes_own own, plainOutcomes_own own, h]
        congr 1
        apply ih
        rw [Function.update_self, Function.update_self]
      · -- another scope writes elsewhere
        rw [alone_other own, plainOutcomes_other own]
        apply ih
        rw [Function.update_of_ne (fun same => own (Scope.slot_injective same).symm)]
        exact h

theorem plainOutcomes_append (before after : Course Turn) :
    plainOutcomes scope p (before ++ after) = plainOutcomes scope p before ++
      plainOutcomes scope (before.leaves attendPlain p) after := by
  rw [plainOutcomes, Course.replies_append, List.filterMap_append]
  rfl

/-- Only the entry at its own key matters to a scope. -/
theorem plainOutcomes_congr (h : p scope.slot = p' scope.slot) (course : Course Turn) :
    plainOutcomes scope p course = plainOutcomes scope p' course := by
  rw [plainOutcomes_alone h, ← plainOutcomes_alone rfl]

/-- The request of another scope makes no difference. -/
theorem plainOutcomes_drop (h : request.scope ≠ scope) (rest : Course Turn) :
    plainOutcomes scope p ((moment, .request request) :: rest) = plainOutcomes scope p rest := by
  rw [plainOutcomes_alone rfl, alone_other h, ← plainOutcomes_alone rfl]

/-- Once its state has been forgotten, a scope sees what it would see of a fresh store. -/
theorem plainOutcomes_reset (own : request.scope = scope)
    (forgets : (request.solo (p scope.slot) moment).2 = none) {fresh : Plain}
    (empty : fresh scope.slot = none) (rest : Course Turn) :
    plainOutcomes scope p ((moment, .request request) :: rest) =
      (request.solo (p scope.slot) moment).1 :: plainOutcomes scope fresh rest := by
  rw [plainOutcomes_own own, forgets]
  congr 1
  apply plainOutcomes_congr
  rw [Function.update_self, empty]

/-! ## The shared store -/

/-- **Limiters and keys are isolated.** Over a store that is empty in the beginning, the outcomes of a
scope are those that its own requests have over a store of their own. An uncancelled reset makes its
scope start over with a fresh store, and to every other scope it makes no difference. -/
theorem scopes_isolated {m m' : Memory} (empty : m.table = .empty) (empty' : m'.table = .empty)
    {course : Course Turn} (ordered : course.Chronological) (scope : Scope) :
    outcomes scope m course = outcomes scope m' (alone scope course) ∧
      ∀ before now limiter key after,
        course = before ++ (⟨now, false⟩, .request (.reset limiter key)) :: after →
        (scope = limiter.scope key →
          outcomes scope m course =
            outcomes scope m before ++ .ok none :: outcomes scope m' after) ∧
        (scope ≠ limiter.scope key →
          outcomes scope m course = outcomes scope m (before ++ after)) := by
  have nothing : ∀ key, m'.table.get? key = none := by
    intro key
    rw [empty', Table.get?_empty]
  have start : m.table.get? scope.slot = m'.table.get? scope.slot := by rw [empty, empty']
  refine ⟨?_, ?_⟩
  · have own : (alone scope course).Chronological := List.Pairwise.filter _ ordered
    rw [outcomes_eq_plain scope m ordered, outcomes_eq_plain scope m' own]
    exact plainOutcomes_alone start course
  · rintro before now limiter key after rfl
    have whose : (Request.reset limiter key).scope = limiter.scope key := rfl
    obtain ⟨front, back, -⟩ := List.pairwise_append.mp ordered
    have back := (List.pairwise_cons.mp back).2
    refine ⟨fun own => ?_, fun other => ?_⟩
    · rw [outcomes_eq_plain scope m ordered, outcomes_eq_plain scope m front,
        outcomes_eq_plain scope m' back, plainOutcomes_append,
        plainOutcomes_reset (whose.trans own.symm) rfl (nothing scope.slot)]
      rfl
    · have without : Course.Chronological (before ++ after) :=
        List.Pairwise.sublist ((List.sublist_cons_self _ _).append_left before) ordered
      rw [outcomes_eq_plain scope m ordered, outcomes_eq_plain scope m without,
        plainOutcomes_append, plainOutcomes_append, plainOutcomes_drop (whose ▸ Ne.symm other)]

/-- A bucket and a log with the same quota, and one caller key: at 6 the bucket is empty, and at 8 it
still is, although the log has forgotten the key at 7. -/
theorem scopes_isolated_from_reset :
    let bucket : Limiter := ⟨.tokenBucket, ⟨1, .ofMillis 10⟩, 0⟩
    let log : Limiter := ⟨.slidingWindow, ⟨1, .ofMillis 10⟩, 0⟩
    let asks (now : Nat) (request : Request) : Moment × Turn := (⟨now, false⟩, .request request)
    let before : Course Turn :=
      [asks 5 (.allow bucket "k"), asks 5 (.allow log "k"), (⟨6, false⟩, .sweep),
        asks 6 (.allow bucket "k")]
    let after : Course Turn := [asks 8 (.allow log "k"), asks 8 (.allow bucket "k")]
    let course : Course Turn := before ++ asks 7 (.reset log "k") :: after
    let m : Memory := .bare (.requests 2)
    let own : Memory := .bare .manual
    course.Chronological ∧ bucket.scope "k" ≠ log.scope "k" ∧
      outcomes (bucket.scope "k") m course =
        outcomes (bucket.scope "k") own (alone (bucket.scope "k") course) ∧
      outcomes (log.scope "k") m course =
        outcomes (log.scope "k") m before ++ .ok none :: outcomes (log.scope "k") own after ∧
      outcomes (bucket.scope "k") m course = outcomes (bucket.scope "k") m (before ++ after) ∧
      (outcomes (bucket.scope "k") m course).map (fun o => o.toOption.join.map (·.allowed)) =
        [some true, some false, some false] := by
  intro bucket log asks before after course m own
  have ordered : course.Chronological := by
    show List.Pairwise _ _
    decide
  have apart : bucket.scope "k" ≠ log.scope "k" := by decide
  have empty : m.table = .empty := rfl
  have empty' : own.table = .empty := rfl
  have ofBucket := scopes_isolated empty empty' ordered (bucket.scope "k")
  have ofLog := scopes_isolated empty empty' ordered (log.scope "k")
  refine ⟨ordered, apart, ofBucket.1, (ofLog.2 before 7 log "k" after rfl).1 rfl,
    (ofBucket.2 before 7 log "k" after rfl).2 apart, ?_⟩
  decide +kernel

end Admission.Isolation

/-
# Admission.Proofs.Race.History — what was done in a race, and in which order

A schedule says who moved; a *history* says what that did. An event of a race is at most one deed: a
call read, looked at the clock or tried to write, or a limiter forgot a key (`Race.deed?`). Sweeps, the
passing of time and callers that give up are no deeds.

`Call.Moves` lists, once and for all, what one step of a call can be, with the guard of each case.
Everything about races is proved by cases on it.

The first result is that the history accounts for the store: at any instant of a race, what the store
holds is what the accepted writes and the deletions of the history, applied one after the other to an
ordinary map, have left there and what has not lapsed (`Race.holds_run`).
-/
import Admission.Proofs.Update.Steps
import Mathlib.Data.List.Induction

namespace Admission

/-- What a step of a call does to the store, or learns from the clock. -/
inductive Act where
  /-- It reads the value under its key. -/
  | read (seen : Option ByteArray)
  /-- It looks at the clock. -/
  | looked (now : Nat)
  /-- It tries to put an entry in the place of a value, and is accepted or not. -/
  | wrote (expected : Option ByteArray) (entry : Entry) (accepted : Bool)

/-- Something that is done in a race. -/
inductive Deed where
  /-- The call at a position acts on its key. -/
  | act (position : Nat) (key : String) (act : Act)
  /-- A key is forgotten. -/
  | deleted (key : String)

/-- The writes that an update has lost so far, while it has not ended. -/
def Update.Phase.lost? {α : Type} : Update.Phase α → Option Nat
  | .reading lost => some lost
  | .deciding lost _ => some lost
  | .writing lost _ _ _ => some lost
  | .done _ => none

/-- Whether a request at a place has been allowed. -/
def Update.Phase.allowed : Update.Phase Decision → Bool
  | .done (.ok d) => d.allowed
  | _ => false

namespace Call

/-- The key under which a call keeps its state. -/
def slot (c : Call) : String := c.limiter.slot c.key

/-- Whether a call has been allowed. -/
def allowed (c : Call) : Bool := c.phase.allowed

/-- The place of a call with an outcome. -/
theorem phase_of_outcome? {c : Call} {outcome : Except Failure Decision}
    (h : c.outcome? = some outcome) : c.phase = .done outcome := by
  rw [Call.outcome?] at h
  split at h
  · next place => rw [place, Option.some.inj h]
  · cases h

/-- A call without an outcome has not ended. -/
theorem lost?_of_outcome? {c : Call} (h : c.outcome? = none) :
    ∃ lost, c.phase.lost? = some lost := by
  rw [Call.outcome?] at h
  cases place : c.phase with
  | done outcome =>
    rw [place] at h
    cases h
  | _ => exact ⟨_, rfl⟩

/-- What the next step of a call does. -/
def act? (c : Call) (now : Nat) (m : Memory) : Option Act :=
  match c.phase with
  | .done _ => none
  | .reading _ => if c.cancelled then none else some (.read (m.get now c.slot).1)
  | .deciding _ _ => some (.looked now)
  | .writing _ seen entry _ =>
    if c.cancelled then none else some (.wrote seen entry (m.swap now c.slot seen entry).1)

/-- **The steps of a call**: the phase it gets to, the store it leaves and what it does. -/
inductive Moves (c : Call) (now : Nat) (m : Memory) :
    Update.Phase Decision → Memory → Option Act → Prop
  /-- It has ended before. -/
  | ended {outcome : Except Failure Decision} (phase : c.phase = .done outcome) :
      Moves c now m (.done outcome) m none
  /-- Its caller has given up. -/
  | gaveUp (cancelled : c.cancelled = true)
      (phase : (∃ lost, c.phase = .reading lost) ∨
        ∃ lost seen entry d, c.phase = .writing lost seen entry d) :
      Moves c now m (.done (.error .cancelled)) m none
  /-- It reads. -/
  | read {lost : Nat} (phase : c.phase = .reading lost) :
      Moves c now m (.deciding lost (m.live now c.slot)) (m.get now c.slot).2
        (some (.read (m.live now c.slot)))
  /-- It looks at the clock and decides. -/
  | decided {lost : Nat} {seen : Option ByteArray} {entry : Entry} {d : Decision}
      (phase : c.phase = .deciding lost seen)
      (decide : c.limiter.decide seen now = .ok (entry, d)) :
      Moves c now m (.writing lost seen entry d) m (some (.looked now))
  /-- It looks at the clock and fails to decide. -/
  | failed {lost : Nat} {seen : Option ByteArray} {f : Failure}
      (phase : c.phase = .deciding lost seen) (decide : c.limiter.decide seen now = .error f) :
      Moves c now m (.done (.error f)) m (some (.looked now))
  /-- It writes over the value it has read. -/
  | accepted {lost : Nat} {seen : Option ByteArray} {entry : Entry} {d : Decision}
      (phase : c.phase = .writing lost seen entry d) (live : m.live now c.slot = seen) :
      Moves c now m (.done (.ok d)) (m.swap now c.slot seen entry).2
        (some (.wrote seen entry true))
  /-- It finds that another value has taken the place of the one it has read. -/
  | refused {lost : Nat} {seen : Option ByteArray} {entry : Entry} {d : Decision}
      (phase : c.phase = .writing lost seen entry d) (live : m.live now c.slot ≠ seen) :
      Moves c now m (.afterLoss c.limiter.maxRetries lost) (m.swap now c.slot seen entry).2
        (some (.wrote seen entry false))

/-- Every step of a call is one of its moves. -/
theorem step_moves (c : Call) (now : Nat) (m : Memory) :
    ∃ phase m', c.step Race.backend (m, ⟨now, c.cancelled⟩) =
      ({ c with phase := phase }, m', ⟨now, c.cancelled⟩) ∧
      c.Moves now m phase m' (c.act? now m) := by
  obtain ⟨limiter, key, phase, cancelled⟩ := c
  -- a caller that has given up is told so before a reading and before a write, but not in between
  cases phase with
  | done outcome => exact ⟨_, _, rfl, .ended rfl⟩
  | reading lost =>
    cases cancelled with
    | true =>
      refine ⟨_, _, ?_, .gaveUp rfl (.inl ⟨lost, rfl⟩)⟩
      simp only [step, Update.step_reading_cancelled]
    | false =>
      refine ⟨_, _, by simp only [step, Update.step_reading]; rfl, ?_⟩
      simp only [act?, Bool.false_eq_true, if_false, Memory.get_fst]
      exact .read rfl
  | deciding lost seen =>
    cases hdecide : limiter.decide seen now with
    | error f =>
      exact ⟨_, _, by simp only [step, Update.step_deciding, hdecide], .failed rfl hdecide⟩
    | ok decided =>
      exact ⟨_, _, by simp only [step, Update.step_deciding, hdecide], .decided rfl hdecide⟩
  | writing lost seen entry d =>
    cases cancelled with
    | true =>
      refine ⟨_, _, ?_, .gaveUp rfl (.inr ⟨lost, seen, entry, d, rfl⟩)⟩
      simp only [step, Update.step_writing_cancelled]
    | false =>
      simp only [act?, Bool.false_eq_true, if_false, Memory.swap_fst, slot]
      by_cases hlive : m.live now (limiter.slot key) = seen
      · refine ⟨_, _, by simp only [step, Update.step_writing hlive]; rfl, ?_⟩
        rw [decide_eq_true hlive]
        exact .accepted rfl hlive
      · refine ⟨_, _, by simp only [step, Update.step_writing_lost hlive]; rfl, ?_⟩
        rw [decide_eq_false hlive]
        exact .refused rfl hlive

/-- A call that has ended does nothing more. -/
theorem Moves.of_done {c : Call} {now : Nat} {m m' : Memory} {phase : Update.Phase Decision}
    {act : Option Act} (moves : c.Moves now m phase m' act) {outcome : Except Failure Decision}
    (ended : c.phase = .done outcome) : phase = .done outcome := by
  cases moves with
  | ended place => exact place.symm.trans ended
  | gaveUp _ place =>
    rcases place with ⟨lost, place⟩ | ⟨lost, seen, entry, d, place⟩ <;> cases place.symm.trans ended
  | read place => cases place.symm.trans ended
  | decided place _ => cases place.symm.trans ended
  | failed place _ => cases place.symm.trans ended
  | accepted place _ => cases place.symm.trans ended
  | refused place _ => cases place.symm.trans ended

/-- Whoever goes on has done something, and had not ended before. -/
theorem Moves.of_lost? {c : Call} {now : Nat} {m m' : Memory} {phase : Update.Phase Decision}
    {act : Option Act} (moves : c.Moves now m phase m' act) {lost : Nat}
    (waiting : phase.lost? = some lost) :
    ∃ a, act = some a ∧ ∃ lost', c.phase.lost? = some lost' := by
  cases moves with
  | ended place => cases waiting
  | gaveUp _ place => cases waiting
  | read place => exact ⟨_, rfl, _, by rw [place]; rfl⟩
  | decided place _ => exact ⟨_, rfl, _, by rw [place]; rfl⟩
  | failed place _ => exact ⟨_, rfl, _, by rw [place]; rfl⟩
  | accepted place _ => exact ⟨_, rfl, _, by rw [place]; rfl⟩
  | refused place _ => exact ⟨_, rfl, _, by rw [place]; rfl⟩

end Call

/-! ## What an event does to a race -/

namespace Race

/-- A step of a call that is not there does nothing. -/
theorem happen_step_none {r : Race} {p : Nat} (h : r.calls[p]? = none) : r.happen (.step p) = r := by
  simp only [happen, advance, h]

/-- A step of a call moves that call, and puts the store it leaves in the place of the store. -/
theorem happen_step {r : Race} {p : Nat} {c : Call} (h : r.calls[p]? = some c) :
    ∃ phase m', r.happen (.step p) =
      { r with memory := m', calls := r.calls.set p { c with phase := phase } } ∧
      c.Moves r.now r.memory phase m' (c.act? r.now r.memory) := by
  obtain ⟨phase, m', step, moves⟩ := c.step_moves r.now r.memory
  refine ⟨phase, m', ?_, moves⟩
  simp only [happen, advance, h, step]

/-- No call comes or goes. -/
theorem length_calls_happen (r : Race) (e : Event) :
    (r.happen e).calls.length = r.calls.length := by
  cases e with
  | step p =>
    cases h : r.calls[p]? with
    | none => rw [happen_step_none h]
    | some c =>
      obtain ⟨_, _, same, -⟩ := happen_step h
      simp only [same, List.length_set]
  | cancel p => exact List.length_modify _ _ _
  | _ => rfl

/-- The clock never runs backwards. -/
theorem le_now_happen (r : Race) (e : Event) : r.now ≤ (r.happen e).now := by
  cases e with
  | step p =>
    cases h : r.calls[p]? with
    | none => exact Nat.le_of_eq (by rw [happen_step_none h])
    | some c =>
      obtain ⟨_, _, same, -⟩ := happen_step h
      exact Nat.le_of_eq (by rw [same])
  | elapse ms => exact Nat.le_add_right _ _
  | _ => exact Nat.le_refl _

/-- **What an event does to one call**: either it is the call's own step and moves it, or the call
stays who and where it is, up to its caller giving up. -/
theorem call_happen {r : Race} {e : Event} {p : Nat} {c' : Call}
    (h : (r.happen e).calls[p]? = some c') :
    ∃ c, r.calls[p]? = some c ∧ c'.limiter = c.limiter ∧ c'.key = c.key ∧
      (e = .step p ∧ c.Moves r.now r.memory c'.phase (r.happen e).memory (c.act? r.now r.memory) ∨
        e ≠ .step p ∧ c'.phase = c.phase) := by
  cases e with
  | step q =>
    cases hq : r.calls[q]? with
    | none =>
      rw [happen_step_none hq] at h
      refine ⟨c', h, rfl, rfl, .inr ⟨?_, rfl⟩⟩
      rintro ⟨⟩
      rw [hq] at h
      cases h
    | some c =>
      obtain ⟨phase, m', same, moves⟩ := happen_step hq
      rw [same] at h ⊢
      -- the call that moved is the one in question, or another one
      have bound : q < r.calls.length := (List.getElem?_eq_some_iff.mp hq).1
      by_cases hp : q = p
      · subst hp
        simp only [List.getElem?_set_self bound, Option.some.injEq] at h
        subst h
        exact ⟨c, hq, rfl, rfl, .inl ⟨rfl, moves⟩⟩
      · simp only [List.getElem?_set_ne hp] at h
        refine ⟨c', h, rfl, rfl, .inr ⟨?_, rfl⟩⟩
        rintro ⟨⟩
        exact hp rfl
  | cancel q =>
    simp only [happen, List.getElem?_modify] at h
    obtain ⟨c, hc, same⟩ := Option.map_eq_some_iff.mp h
    refine ⟨c, hc, ?_⟩
    subst same
    refine ⟨?_, ?_, .inr ⟨nofun, ?_⟩⟩ <;> split <;> rfl
  | _ => exact ⟨c', h, rfl, rfl, .inr ⟨nofun, rfl⟩⟩

/-- A schedule that is done in two parts. -/
theorem run_append (r : Race) (s s' : List Event) : r.run (s ++ s') = (r.run s).run s' :=
  List.foldl_append

/-- The last event of a schedule. -/
theorem run_concat (r : Race) (s : List Event) (e : Event) :
    r.run (s ++ [e]) = (r.run s).happen e := r.run_append s [e]

theorem length_calls_run (r : Race) (s : List Event) : (r.run s).calls.length = r.calls.length := by
  induction s generalizing r with
  | nil => rfl
  | cons e s ih => exact (ih (r.happen e)).trans (r.length_calls_happen e)

/-! ## Histories -/

/-- What is done when an event happens, if anything is. -/
def deed? (r : Race) : Event → Option Deed
  | .step p => r.calls[p]?.bind fun c => (c.act? r.now r.memory).map (.act p c.slot)
  | .reset l key => some (.deleted (l.slot key))
  | _ => none

/-- Everything that is done in the course of a schedule, in order. -/
def history (r : Race) : List Event → List Deed
  | [] => []
  | e :: s => (r.deed? e).toList ++ (r.happen e).history s

theorem history_append (r : Race) (s s' : List Event) :
    r.history (s ++ s') = r.history s ++ (r.run s).history s' := by
  induction s generalizing r with
  | nil => rfl
  | cons e s ih =>
    simp only [List.cons_append, history, ih, List.append_assoc]
    rfl

theorem history_concat (r : Race) (s : List Event) (e : Event) :
    r.history (s ++ [e]) = r.history s ++ ((r.run s).deed? e).toList := by
  rw [history_append]
  simp only [history, List.append_nil]

/-- Whatever is in the history was done at some point of the schedule. -/
theorem split_of_mem_history {r : Race} {s : List Event} {d : Deed} (h : d ∈ r.history s) :
    ∃ before e after, s = before ++ e :: after ∧ (r.run before).deed? e = some d := by
  induction s generalizing r with
  | nil => cases h
  | cons e s ih =>
    rcases List.mem_append.mp h with h | h
    · exact ⟨[], e, s, rfl, Option.mem_toList.mp h⟩
    · obtain ⟨before, e', after, rfl, hd⟩ := ih h
      exact ⟨e :: before, e', after, rfl, hd⟩

end Race

/-! ## The history accounts for the store -/

/-- What a deed does to the entries under the keys. -/
def Deed.effect (f : String → Option Entry) : Deed → String → Option Entry
  | .act _ key (.wrote _ entry true) => Function.update f key (some entry)
  | .act _ _ _ => f
  | .deleted key => Function.update f key none

namespace Race

/-- What an event does is what its deed does: accepted writes and deletions change what is held, and
nothing else does. -/
theorem holds_happen {r : Race} {f : String → Option Entry} (h : r.memory.Holds r.now f)
    (e : Event) :
    (r.happen e).memory.Holds (r.happen e).now ((r.deed? e).toList.foldl Deed.effect f) := by
  cases e with
  | step p =>
    cases hp : r.calls[p]? with
    | none =>
      simp only [happen_step_none hp, deed?, hp]
      exact h
    | some c =>
      obtain ⟨phase, m', same, moves⟩ := happen_step hp
      simp only [same, deed?, hp, Option.bind_some]
      generalize c.act? r.now r.memory = act at moves
      cases moves with
      | accepted phase live => exact h.put fun _ ht => Memory.present_swap live _ ht
      | refused phase live => exact h.kept fun _ ht => Memory.present_swap_refused live _ ht
      | read phase => exact h.kept fun _ ht => Memory.present_get _ ht _
      | _ => exact h
  | reset l k => exact h.put fun t _ => Memory.present_delete _ t _
  | sweep => exact h.kept fun _ ht => Memory.present_sweep _ ht
  -- what is held now is held later on
  | elapse ms => exact h.later (Nat.le_add_right _ _)
  | cancel p => exact h

/-- At any instant of a race, the store holds what the accepted writes and the deletions have left
there, one after the other. -/
theorem holds_run (r : Race) (s : List Event) :
    (r.run s).memory.Holds (r.run s).now ((r.history s).foldl Deed.effect r.memory.table.get?) := by
  induction s using List.reverseRecOn with
  | nil => exact fun t _ key => rfl
  | append_singleton s e ih =>
    rw [run_concat, history_concat, List.foldl_append]
    exact holds_happen ih e

end Race

end Admission

/-
# Admission.Proofs.Race.Finish — every call is decided in the end

A call that has not ended does something in each of its steps, it has lost no more writes than it may
start over, and it takes three steps for each of them. So a call that is given three steps for every
write that it may lose, and three for the last one, has been decided, whatever else happens between its
steps (`decided_of_steps`).

`finish` lets all calls proceed in turn. This is a schedule like any other (`finish_eq_run`), and one in
which each call has as many steps as that (`decided_finish`).
-/
import Admission.Proofs.Race.Commits
import Mathlib.Data.List.Nodup

namespace Admission

/-- A call has started over no more often than it may. -/
def Call.Spare (c : Call) : Prop :=
  ∀ lost, c.phase.lost? = some lost → lost ≤ c.limiter.maxRetries

/-- No step makes it start over more often. -/
theorem Call.Moves.spare {c : Call} {now : Nat} {m m' : Memory} {phase : Update.Phase Decision}
    {act : Option Act} (moves : c.Moves now m phase m' act) (spare : c.Spare) :
    Call.Spare { c with phase := phase } := by
  intro lost waiting
  cases moves with
  | ended => cases waiting
  | gaveUp => cases waiting
  | read place => exact spare lost (by rw [place]; exact waiting)
  | decided place => exact spare lost (by rw [place]; exact waiting)
  | failed => cases waiting
  | accepted => cases waiting
  | refused place =>
    replace waiting : (Update.Phase.afterLoss _ _ : Update.Phase Decision).lost? = some lost := waiting
    rw [Update.Phase.afterLoss] at waiting
    split at waiting
    · cases waiting
    · next more =>
      cases waiting
      exact Nat.le_of_not_lt more

namespace Race

variable {r : Race} {s : List Event} {p : Nat} {c : Call}

/-! ## Three steps for every write -/

/-- No call ever starts over more often than it may. -/
theorem spare_run (fresh : r.Fresh) (s : List Event) (h : (r.run s).calls[p]? = some c) : c.Spare := by
  induction s using List.reverseRecOn generalizing c with
  | nil =>
    intro lost waiting
    rw [fresh c (List.mem_of_getElem? h)] at waiting
    cases waiting
    exact Nat.zero_le _
  | append_singleton s e ih =>
    rw [run_concat] at h
    obtain ⟨c₀, h₀, limiter, -, ⟨-, moves⟩ | ⟨-, phase⟩⟩ := call_happen h
    · intro lost waiting
      rw [limiter]
      exact moves.spare (ih h₀) lost waiting
    · intro lost waiting
      rw [limiter]
      exact ih h₀ lost (phase ▸ waiting)

/-- **A call that has had its steps is decided**: three for each write that it may lose, and three for
the last one. -/
theorem decided_of_steps (fresh : r.Fresh) (h : (r.run s).calls[p]? = some c)
    (steps : 3 * (c.limiter.maxRetries + 1) ≤ s.countP (Event.isStep p)) :
    ∃ outcome, c.outcome? = some outcome := by
  cases undecided : c.outcome? with
  | some outcome => exact ⟨outcome, rfl⟩
  | none =>
    obtain ⟨lost, waiting⟩ := Call.lost?_of_outcome? undecided
    have spare := spare_run fresh s h lost waiting
    have done := ((trace_run fresh s h).of_lost? waiting).2
    rw [length_acts h waiting] at done
    omega

/-- It is decided by the limiter that it came with. -/
theorem limiter_run (s : List Event) (h : (r.run s).calls[p]? = some c) :
    ∃ c₀ ∈ r.calls, c.limiter = c₀.limiter := by
  induction s using List.reverseRecOn generalizing c with
  | nil => exact ⟨c, List.mem_of_getElem? h, rfl⟩
  | append_singleton s e ih =>
    rw [run_concat] at h
    obtain ⟨c₁, h₁, limiter, -⟩ := call_happen h
    obtain ⟨c₀, h₀, limiter₀⟩ := ih h₁
    exact ⟨c₀, h₀, limiter.trans limiter₀⟩

/-! ## In turn -/

/-- The schedule in which so many calls take so many steps each, in turn. -/
def turns (calls n : Nat) : List Event := (List.replicate n ((List.range calls).map .step)).flatten

/-- Rounds are such a schedule. -/
theorem rounds_eq_run (n : Nat) (r : Race) : rounds n r = r.run (turns r.calls.length n) := by
  induction n generalizing r with
  | zero => rfl
  | succ n ih =>
    have round : r.round = r.run ((List.range r.calls.length).map .step) := by
      rw [run, List.foldl_map]
      rfl
    have length : r.round.calls.length = r.calls.length := by rw [round, length_calls_run]
    rw [rounds, ih, length, round, ← run_append]
    rfl

/-- **Finishing a race** is to run it by a schedule. -/
theorem finish_eq_run (r : Race) : r.finish = r.run (turns r.calls.length r.enough) :=
  rounds_eq_run r.enough r

/-- Each call has one step in a round. -/
theorem countP_isStep_turns {calls : Nat} (h : p < calls) (n : Nat) :
    (turns calls n).countP (Event.isStep p) = n := by
  have once : ((List.range calls).map Event.step).countP (Event.isStep p) = 1 := by
    rw [List.countP_map]
    have same : Event.isStep p ∘ Event.step = (· == p) := rfl
    rw [same, ← List.count, List.count_eq_one_of_mem List.nodup_range (List.mem_range.mpr h)]
  rw [turns, List.countP_flatten, List.map_replicate, once, List.sum_replicate_nat, Nat.mul_one]

/-- The rounds are enough for every call. -/
theorem le_enough (h : c ∈ r.calls) : 3 * (c.limiter.maxRetries + 1) ≤ r.enough := by
  have mem := List.mem_map_of_mem (f := fun c : Call => 3 * (c.limiter.maxRetries + 1)) h
  rw [enough, List.foldl_max_eq_max (List.ne_nil_of_mem mem)]
  exact Nat.le_trans (List.le_max_of_mem mem) (Nat.le_max_right _ _)

/-- **When a race is finished**, every call that had not begun before is decided. -/
theorem decided_finish (fresh : r.Fresh) (h : c ∈ r.finish.calls) :
    ∃ outcome, c.outcome? = some outcome := by
  rw [finish_eq_run] at h
  obtain ⟨p, hp⟩ := List.mem_iff_getElem?.mp h
  obtain ⟨c₀, mem, limiter⟩ := limiter_run _ hp
  apply decided_of_steps fresh hp
  rw [limiter, countP_isStep_turns]
  · exact le_enough mem
  · rw [← length_calls_run r (turns r.calls.length r.enough)]
    exact (List.getElem?_eq_some_iff.mp hp).1

end Race

end Admission

/-
# Admission.Proofs.Race.Contention — how many are admitted when all come at once

Any number of calls of one limiter for one fresh key, while the clock stands still. What is stored is
a rung of the limiter's ladder: as many admissions as there are calls that were allowed. A write that
is lost was made on a lower rung than the one that is there, so each lost write of a call is charged
to an admission since it started over, and these were other calls'. So a call loses no more writes than
there are admissions to be had, by the others: `min limit (calls - 1)` (`Climbed.lost_le`). With
retries enough for that every call gets its decision, and as many are allowed as fit
(`Race.crowd_admitted`).
-/
import Admission.Proofs.Race.Commits
import Admission.Proofs.Race.Ladder
import Mathlib.Data.List.Count

namespace Admission

/-- A step of a call, or a sweep: what can happen while the clock stands still and nobody gives up or
forgets anything. -/
def Race.Event.Still (e : Race.Event) : Prop := (∃ p, e = .step p) ∨ e = .sweep

section

variable {l : Limiter} {key : String} {now : Nat} (L : Ladder l.decide now l.quota.limit)

/-- Where a call can be when there have been `a` admissions. What it has read is a rung no higher
than that, and no lower than the number of writes it has lost. -/
def Ladder.Place (a : Nat) : Update.Phase Decision → Prop
  | .reading lost => lost ≤ a
  | .deciding lost seen => ∃ b, lost ≤ b ∧ b ≤ a ∧ seen = rung L.state b
  | .writing lost seen entry d => ∃ b, lost ≤ b ∧ b ≤ a ∧ seen = rung L.state b ∧
      (d.allowed = true ↔ b < l.quota.limit) ∧
      entry.live? now = rung L.state (min (b + 1) l.quota.limit)
  | .done (.ok d) => d.allowed = false → a = l.quota.limit
  | .done (.error _) => False

/-- Another admission moves nobody from their place. -/
theorem Ladder.Place.mono {a a' : Nat} (le : a ≤ a') (top : a' ≤ l.quota.limit)
    {phase : Update.Phase Decision} (h : L.Place a phase) : L.Place a' phase := by
  cases phase with
  | reading lost => exact Nat.le_trans h le
  | deciding lost seen =>
    obtain ⟨b, lost_le, b_le, rest⟩ := h
    exact ⟨b, lost_le, Nat.le_trans b_le le, rest⟩
  | writing lost seen entry d =>
    obtain ⟨b, lost_le, b_le, rest⟩ := h
    exact ⟨b, lost_le, Nat.le_trans b_le le, rest⟩
  | done outcome =>
    cases outcome with
    | ok d =>
      intro denied
      have := h denied
      omega
    | error f => exact h

/-- **One move of a call** takes the store up at most one rung, and just when the call is allowed.
A call that starts over finds that there has been one more admission than it has lost writes. -/
theorem Ladder.Place.moves {a : Nat} {c : Call} {m m' : Memory} {phase : Update.Phase Decision}
    {act : Option Act} (place : L.Place a c.phase) (moves : c.Moves now m phase m' act)
    (limiter : c.limiter = l) (waits : c.cancelled = false)
    (live_eq : m.live now c.slot = rung L.state a) (le_limit : a ≤ l.quota.limit)
    (room : c.allowed = false → a ≤ l.maxRetries) :
    ∃ a', a ≤ a' ∧ a' ≤ l.quota.limit ∧ a' + c.allowed.toNat = a + phase.allowed.toNat ∧
      m'.live now c.slot = rung L.state a' ∧ L.Place a' phase := by
  cases moves with
  | ended stage =>
    rw [stage] at place
    exact ⟨a, Nat.le_refl _, le_limit, by rw [Call.allowed, stage], live_eq, place⟩
  | gaveUp cancelled _ =>
    rw [waits] at cancelled
    cases cancelled
  | read stage =>
    rw [stage] at place
    refine ⟨a, Nat.le_refl _, le_limit, by rw [Call.allowed, stage]; rfl, ?_,
      a, place, Nat.le_refl _, live_eq⟩
    rw [Memory.live, Memory.present_get _ (Nat.le_refl now)]
    exact live_eq
  | decided stage decided =>
    rw [stage] at place
    obtain ⟨b, lost_le, b_le, rfl⟩ := place
    obtain ⟨entry, d, climbs, allowed, live⟩ := L.climbs b (Nat.le_trans b_le le_limit)
    rw [limiter, climbs] at decided
    cases decided
    exact ⟨a, Nat.le_refl _, le_limit, by rw [Call.allowed, stage]; rfl, live_eq,
      b, lost_le, b_le, rfl, allowed, live⟩
  | failed stage decided =>
    rw [stage] at place
    obtain ⟨b, lost_le, b_le, rfl⟩ := place
    obtain ⟨entry, d, climbs, -⟩ := L.climbs b (Nat.le_trans b_le le_limit)
    rw [limiter, climbs] at decided
    cases decided
  | @accepted lost seen entry d stage live =>
    rw [stage] at place
    obtain ⟨b, lost_le, b_le, rfl, allowed, live'⟩ := place
    -- the bytes that were read are still there, so nobody has been admitted since
    obtain rfl : a = b :=
      L.rung_injective le_limit (Nat.le_trans b_le le_limit) (live_eq.symm.trans live)
    have written : (m.swap now c.slot (rung L.state a) entry).2.live now c.slot =
        rung L.state (min (a + 1) l.quota.limit) := by
      rw [Memory.live, Memory.present_swap live entry (Nat.le_refl now), if_pos rfl,
        ← Entry.bind_live?]
      exact live'
    refine ⟨min (a + 1) l.quota.limit, by omega, Nat.min_le_right _ _, ?_, written, ?_⟩
    · rw [Call.allowed, stage]
      show min (a + 1) l.quota.limit + 0 = a + d.allowed.toNat
      cases hd : d.allowed with
      | true =>
        have := allowed.mp hd
        simp only [Bool.toNat_true]
        omega
      | false =>
        have := mt allowed.mpr (by simp [hd])
        simp only [Bool.toNat_false]
        omega
    · intro denied
      have := mt allowed.mpr (by simp [denied])
      omega
  | @refused lost seen entry d stage live =>
    rw [stage] at place
    obtain ⟨b, lost_le, b_le, rfl, -⟩ := place
    -- somebody has been admitted since, for another state is there
    have lower : b < a := by
      apply Nat.lt_of_le_of_ne b_le
      intro same
      apply live
      rw [same]
      exact live_eq
    have retries : ¬ c.limiter.maxRetries < lost + 1 := by
      have := room (by rw [Call.allowed, stage]; rfl)
      rw [limiter]
      omega
    rw [Update.Phase.afterLoss, if_neg retries]
    refine ⟨a, Nat.le_refl _, le_limit, by rw [Call.allowed, stage]; rfl, ?_, ?_⟩
    · rw [Memory.live, Memory.present_swap_refused live entry (Nat.le_refl now)]
      exact live_eq
    · show lost + 1 ≤ a
      omega

/-- A call has lost no more writes than there have been admissions. -/
theorem Ladder.Place.lost_le {a : Nat} {phase : Update.Phase Decision} (h : L.Place a phase)
    {lost : Nat} (waiting : phase.lost? = some lost) : lost ≤ a := by
  cases phase with
  | reading n =>
    cases waiting
    exact h
  | deciding n seen =>
    cases waiting
    obtain ⟨b, lost_le, b_le, -⟩ := h
    exact Nat.le_trans lost_le b_le
  | writing n seen entry d =>
    cases waiting
    obtain ⟨b, lost_le, b_le, -⟩ := h
    exact Nat.le_trans lost_le b_le
  | done outcome => cases waiting

/-- **A race on a ladder**: the store is on the rung of the admissions so far, and every call is in a
place that goes with it. -/
structure Climbed (key : String) (r : Race) : Prop where
  /-- The clock stands still. -/
  now_eq : r.now = now
  /-- The store is on the rung of the admissions so far. -/
  live_eq : r.memory.live now (l.slot key) = rung L.state (r.calls.countP Call.allowed)
  /-- There are no more admissions than the limit. -/
  le_limit : r.calls.countP Call.allowed ≤ l.quota.limit
  /-- Every call is one of the limiter's for the key, and in its place. -/
  places : ∀ c ∈ r.calls, c.limiter = l ∧ c.key = key ∧ c.cancelled = false ∧
    L.Place (r.calls.countP Call.allowed) c.phase

variable {L : Ladder l.decide now l.quota.limit} {r : Race}

namespace Climbed

/-- While a call has not been allowed, no more than the others have. -/
theorem admissions_le (climbed : Climbed L key r) {c : Call} (hc : c ∈ r.calls)
    (waiting : c.allowed = false) :
    r.calls.countP Call.allowed ≤ min l.quota.limit (r.calls.length - 1) := by
  have others : r.calls.countP Call.allowed < r.calls.length :=
    List.countP_lt_length_iff.mpr ⟨c, hc, by simp [waiting]⟩
  have := climbed.le_limit
  omega

/-- A call moves to a place that goes with the rung that the store is on then. -/
theorem set (climbed : Climbed L key r) {p : Nat} {c : Call} (hc : r.calls[p]? = some c)
    (c' : Call) (same : c'.limiter = c.limiter ∧ c'.key = c.key ∧ c'.cancelled = c.cancelled)
    {m' : Memory} {a : Nat} (le : r.calls.countP Call.allowed ≤ a) (top : a ≤ l.quota.limit)
    (count : a + c.allowed.toNat = r.calls.countP Call.allowed + c'.allowed.toNat)
    (live : m'.live now (l.slot key) = rung L.state a) (place : L.Place a c'.phase) :
    Climbed L key { r with memory := m', calls := r.calls.set p c' } := by
  obtain ⟨bound, rfl⟩ := List.getElem?_eq_some_iff.mp hc
  have counted : (r.calls.set p c').countP Call.allowed = a := by
    have := List.boole_getElem_le_countP (p := Call.allowed) bound
    rw [List.countP_set bound]
    cases hbefore : r.calls[p].allowed <;> cases hafter : c'.allowed <;>
      simp only [hbefore, hafter, Bool.toNat_true, Bool.toNat_false, Bool.false_eq_true,
        if_true, if_false] at count this ⊢ <;>
      omega
  refine ⟨climbed.now_eq, ?_, ?_, ?_⟩
  · rw [counted]
    exact live
  · rw [counted]
    exact top
  · intro c'' hc''
    rw [counted]
    rcases List.mem_or_eq_of_mem_set hc'' with hc'' | rfl
    · obtain ⟨limiter, key, cancelled, place'⟩ := climbed.places c'' hc''
      exact ⟨limiter, key, cancelled, place'.mono L le top⟩
    · obtain ⟨limiter, key, cancelled, -⟩ := climbed.places _ (List.mem_of_getElem? hc)
      exact ⟨same.1.trans limiter, same.2.1.trans key, same.2.2.trans cancelled, place⟩

/-- **One event** keeps a race on its ladder. -/
theorem happen (climbed : Climbed L key r)
    (retries : min l.quota.limit (r.calls.length - 1) ≤ l.maxRetries) {e : Race.Event}
    (still : e.Still) : Climbed L key (r.happen e) := by
  have live_eq := climbed.live_eq
  rcases still with ⟨p, rfl⟩ | rfl
  · cases hp : r.calls[p]? with
    | none =>
      rw [Race.happen_step_none hp]
      exact climbed
    | some c =>
      have hc := List.mem_of_getElem? hp
      obtain ⟨limiter, hkey, waits, place⟩ := climbed.places c hc
      have slot : c.slot = l.slot key := by rw [Call.slot, limiter, hkey]
      obtain ⟨phase, m', same, moves⟩ := Race.happen_step hp
      rw [climbed.now_eq] at moves
      obtain ⟨a, le, top, count, live, place⟩ := place.moves L moves limiter waits
        (slot ▸ live_eq) climbed.le_limit fun waiting =>
          Nat.le_trans (climbed.admissions_le hc waiting) retries
      rw [same]
      exact climbed.set hp { c with phase := phase } ⟨rfl, rfl, rfl⟩ le top count (slot ▸ live) place
  · have swept : (r.memory.sweep now).live now (l.slot key) = r.memory.live now (l.slot key) :=
      congrArg _ (r.memory.present_sweep (Nat.le_refl now) _)
    refine ⟨climbed.now_eq, ?_, climbed.le_limit, climbed.places⟩
    rw [Race.happen, climbed.now_eq, swept]
    exact live_eq

/-- **A whole schedule** keeps it there. -/
theorem run (climbed : Climbed L key r)
    (retries : min l.quota.limit (r.calls.length - 1) ≤ l.maxRetries) {s : List Race.Event}
    (still : ∀ e ∈ s, e.Still) : Climbed L key (r.run s) := by
  induction s generalizing r with
  | nil => exact climbed
  | cons e s ih =>
    obtain ⟨first, rest⟩ := List.forall_mem_cons.mp still
    refine ih (climbed.happen retries first) ?_ rest
    rw [Race.length_calls_happen]
    exact retries

/-- Nobody fails. -/
theorem outcome_ne_error (climbed : Climbed L key r) {c : Call} (hc : c ∈ r.calls) (f : Failure) :
    c.outcome? ≠ some (.error f) := by
  intro failed
  obtain ⟨-, -, -, place⟩ := climbed.places c hc
  rw [Call.phase_of_outcome? failed] at place
  exact place

/-- When all have ended, as many have been allowed as fit. -/
theorem admissions_eq (climbed : Climbed L key r) (ended : ∀ c ∈ r.calls, c.outcome? ≠ none) :
    r.calls.countP Call.allowed = min l.quota.limit r.calls.length := by
  have le_limit := climbed.le_limit
  -- a denial is only ever made on the top rung
  by_cases all : ∀ c ∈ r.calls, c.allowed = true
  · have everyone := List.countP_eq_length.mpr all
    omega
  · push Not at all
    obtain ⟨c, hc, denied⟩ := all
    obtain ⟨-, -, -, place⟩ := climbed.places c hc
    have le_length : r.calls.countP Call.allowed ≤ r.calls.length := List.countP_le_length
    obtain ⟨outcome, houtcome⟩ := Option.ne_none_iff_exists'.mp (ended c hc)
    rw [Call.allowed] at denied
    rw [Call.phase_of_outcome? houtcome] at place denied
    cases outcome with
    | error f => exact place.elim
    | ok d =>
      have full := place (by simpa [Update.Phase.allowed] using denied)
      omega

/-- When all have ended, the tally is as many allowed as fit, the rest denied, and nobody left. -/
theorem tally_eq (climbed : Climbed L key r) (ended : ∀ c ∈ r.calls, c.outcome? ≠ none) :
    r.tally key = (min l.quota.limit r.calls.length,
      r.calls.length - min l.quota.limit r.calls.length, 0) := by
  have decided : ∀ c ∈ r.calls, ∃ d, c.outcome? = some (.ok d) ∧ c.allowed = d.allowed := by
    intro c hc
    obtain ⟨outcome, houtcome⟩ := Option.ne_none_iff_exists'.mp (ended c hc)
    cases outcome with
    | error f => exact absurd houtcome (climbed.outcome_ne_error hc f)
    | ok d =>
      refine ⟨d, houtcome, ?_⟩
      rw [Call.allowed, Call.phase_of_outcome? houtcome, Update.Phase.allowed]
  have all : r.calls.filter (·.key = key) = r.calls :=
    List.filter_eq_self.mpr fun c hc => decide_eq_true (climbed.places c hc).2.1
  have split := List.length_eq_countP_add_countP Call.allowed (l := r.calls)
  have admissions := climbed.admissions_eq ended
  simp only [Race.tally, all, List.countP_map, Prod.mk.injEq]
  refine ⟨?_, ?_, ?_⟩
  · rw [← admissions]
    apply List.countP_congr
    intro c hc
    obtain ⟨d, houtcome, allowed⟩ := decided c hc
    simp only [Function.comp, houtcome, allowed]
  · rw [← admissions]
    have denied : r.calls.countP (fun c => ¬c.allowed = true) =
        r.calls.length - r.calls.countP Call.allowed := by omega
    rw [← denied]
    apply List.countP_congr
    intro c hc
    obtain ⟨d, houtcome, allowed⟩ := decided c hc
    simp [Function.comp, houtcome, allowed]
  · apply List.countP_eq_zero.mpr
    intro c hc
    obtain ⟨d, houtcome, -⟩ := decided c hc
    simp [Function.comp, houtcome]

/-- A call that has not ended has lost no more writes than the others were admitted. -/
theorem lost_le (climbed : Climbed L key r) {c : Call} (hc : c ∈ r.calls) {lost : Nat}
    (waiting : c.phase.lost? = some lost) : lost ≤ min l.quota.limit (r.calls.length - 1) := by
  obtain ⟨-, -, -, place⟩ := climbed.places c hc
  refine Nat.le_trans (place.lost_le L waiting) (climbed.admissions_le hc ?_)
  rw [Call.allowed]
  generalize c.phase = phase at waiting
  cases phase with
  | done outcome => cases waiting
  | _ => rfl

end Climbed

end

/-! ## Counting steps and lost writes -/

namespace Race

/-- So many calls for one key at one instant, before the first step of each. -/
def crowd (l : Limiter) (key : String) (m : Memory) (now callers : Nat) : Race :=
  ⟨m, now, List.replicate callers (.fresh l key)⟩

variable {l : Limiter} {key : String} {m : Memory} {now callers : Nat}

theorem crowd_fresh : (crowd l key m now callers).Fresh := by
  intro c hc
  rw [List.eq_of_mem_replicate hc]
  rfl

/-- A crowd for a fresh key stands on the ground. -/
theorem crowd_climbed (L : Ladder l.decide now l.quota.limit)
    (fresh : m.live now (l.slot key) = none) : Climbed L key (crowd l key m now callers) := by
  have nobody : (crowd l key m now callers).calls.countP Call.allowed = 0 := by
    rw [List.countP_eq_zero]
    intro c hc
    rw [List.eq_of_mem_replicate hc]
    exact Bool.false_ne_true
  refine ⟨rfl, ?_, ?_, ?_⟩
  · rw [nobody]
    exact fresh
  · rw [nobody]
    exact Nat.zero_le _
  · intro c hc
    rw [List.eq_of_mem_replicate hc]
    exact ⟨rfl, rfl, rfl, Nat.zero_le _⟩

/-- A crowd stays on its ladder. -/
theorem run_crowd_climbed (L : Ladder l.decide now l.quota.limit)
    (fresh : m.live now (l.slot key) = none)
    (retries : min l.quota.limit (callers - 1) ≤ l.maxRetries) {s : List Event}
    (still : ∀ e ∈ s, e.Still) : Climbed L key ((crowd l key m now callers).run s) := by
  refine (crowd_climbed L fresh).run ?_ still
  rw [crowd, List.length_replicate]
  exact retries

theorem length_calls_crowd (s : List Event) :
    ((crowd l key m now callers).run s).calls.length = callers := by
  rw [length_calls_run, crowd, List.length_replicate]

/-- No call ever loses more writes than the others can be admitted. -/
theorem countP_loses_le (L : Ladder l.decide now l.quota.limit)
    (fresh : m.live now (l.slot key) = none)
    (retries : min l.quota.limit (callers - 1) ≤ l.maxRetries) {s : List Event}
    (still : ∀ e ∈ s, e.Still) {p : Nat} {c : Call}
    (hc : ((crowd l key m now callers).run s).calls[p]? = some c) :
    (acts p ((crowd l key m now callers).history s)).countP Act.loses ≤
      min l.quota.limit (callers - 1) := by
  induction s using List.reverseRecOn generalizing c with
  | nil => exact Nat.zero_le _
  | append_singleton s e ih =>
    have climbed := run_crowd_climbed L fresh retries still
    obtain ⟨before, -⟩ := List.forall_mem_append.mp still
    cases houtcome : c.outcome? with
    | none =>
      obtain ⟨lost, waiting⟩ := Call.lost?_of_outcome? houtcome
      rw [((trace_run crowd_fresh _ hc).of_lost? waiting).1]
      have lost_le := climbed.lost_le (List.mem_of_getElem? hc) waiting
      rwa [length_calls_crowd] at lost_le
    | some outcome =>
      cases outcome with
      | error f => exact absurd houtcome (climbed.outcome_ne_error (List.mem_of_getElem? hc) f)
      | ok d =>
        rw [run_concat] at hc
        obtain ⟨c₀, h₀, -, -, ⟨rfl, moves⟩ | ⟨other, -⟩⟩ := call_happen hc
        · -- the step that decides a call is no lost write
          rw [acts_step h₀, List.countP_append,
            moves.countP_loses (Call.phase_of_outcome? houtcome)]
          exact ih before h₀
        · rw [acts_other other]
          exact ih before h₀

/-- **Exactly as many as fit.** Any number of callers ask a limiter for one fresh key at one instant,
in any order of their steps and with sweeps in between. If the limiter starts over often enough, each
call loses at most as many writes as the others can be admitted, never fails, and has its decision
after so many steps; and when all have theirs, as many were allowed as fit, and the others denied. -/
theorem crowd_admitted (valid : l.quota.Valid) (key : String) (m : Memory) (callers : Nat)
    (within : 1 ≤ now ∧ now < Word.last) (fresh : m.live now (l.slot key) = none)
    (retries : min l.quota.limit (callers - 1) ≤ l.maxRetries) {s : List Event}
    (still : ∀ e ∈ s, e.Still) :
    (∀ p < callers, ∃ c, ((crowd l key m now callers).run s).calls[p]? = some c ∧
      (acts p ((crowd l key m now callers).history s)).countP Act.loses ≤
        min l.quota.limit (callers - 1) ∧
      (∀ f, c.outcome? ≠ some (.error f)) ∧
      (3 * (min l.quota.limit (callers - 1) + 1) ≤ s.countP (Event.isStep p) →
        ∃ d, c.outcome? = some (.ok d))) ∧
    ((∀ c ∈ ((crowd l key m now callers).run s).calls, c.outcome? ≠ none) →
      ((crowd l key m now callers).run s).tally key =
        (min l.quota.limit callers, callers - min l.quota.limit callers, 0)) := by
  have L := l.ladder valid within.1 within.2
  have climbed := run_crowd_climbed L fresh retries still
  have length : ((crowd l key m now callers).run s).calls.length = callers := length_calls_crowd s
  refine ⟨fun p hp => ?_, fun ended => ?_⟩
  · -- while a call has not ended, it has done something in every step, three at most for each loss
    rw [← length] at hp
    have hc := List.getElem?_eq_getElem hp
    have hmem := List.mem_of_getElem? hc
    refine ⟨_, hc, countP_loses_le L fresh retries still hc, climbed.outcome_ne_error hmem, ?_⟩
    intro enough
    cases houtcome : ((crowd l key m now callers).run s).calls[p].outcome? with
    | none =>
      obtain ⟨lost, waiting⟩ := Call.lost?_of_outcome? houtcome
      have lost_le := climbed.lost_le hmem waiting
      rw [length] at lost_le
      have steps := ((trace_run crowd_fresh s hc).of_lost? waiting).2
      rw [length_acts hc waiting] at steps
      omega
    | some outcome =>
      cases outcome with
      | error f => exact absurd houtcome (climbed.outcome_ne_error hmem f)
      | ok d => exact ⟨d, rfl⟩
  · have tally := climbed.tally_eq ended
    rwa [length] at tally

/-- Three callers in turn, and a sweep: two tokens, so two are allowed and one is denied. -/
theorem crowd_admitted_in_turn :
    let l : Limiter := ⟨.tokenBucket, ⟨2, .ofMillis 10⟩, 2⟩
    let r : Race := crowd l "k" (.bare .manual) 7 3
    let s : List Event := .sweep :: (List.replicate 9 [.step 0, .step 1, .step 2]).flatten
    (l.quota.Valid ∧ (∀ e ∈ s, e.Still)) ∧
      (∀ c ∈ (r.run s).calls, ∃ d, c.outcome? = some (.ok d)) ∧ (r.run s).tally "k" = (2, 1, 0) := by
  intro l r s
  have valid : l.quota.Valid := ⟨by decide, by decide, by decide⟩
  have still : ∀ e ∈ s, e.Still := by
    intro e he
    rcases List.mem_cons.mp he with rfl | he
    · exact .inr rfl
    · obtain ⟨turn, hturn, he⟩ := List.mem_flatten.mp he
      rw [List.eq_of_mem_replicate hturn] at he
      simp only [List.mem_cons, List.not_mem_nil, or_false] at he
      rcases he with rfl | rfl | rfl <;> exact .inl ⟨_, rfl⟩
  have within : 1 ≤ 7 ∧ 7 < Word.last := by decide
  have admitted := crowd_admitted valid "k" (.bare .manual) 3 within rfl (by decide) still
  have enough : ∀ p < 3, 9 ≤ s.countP (Event.isStep p) := by decide
  have decided : ∀ c ∈ (r.run s).calls, ∃ d, c.outcome? = some (.ok d) := by
    intro c hc
    obtain ⟨p, hp, rfl⟩ := List.getElem_of_mem hc
    have bound : p < 3 := by
      rw [length_calls_crowd] at hp
      exact hp
    obtain ⟨c, hc, -, -, ends⟩ := admitted.1 p bound
    rw [List.getElem?_eq_getElem hp, Option.some.injEq] at hc
    rw [hc]
    exact ends (enough p bound)
  refine ⟨⟨valid, still⟩, decided, admitted.2 fun c hc => ?_⟩
  obtain ⟨d, houtcome⟩ := decided c hc
  rw [houtcome]
  exact Option.some_ne_none _

end Race

end Admission

/-
# Admission.Proofs.Store.Gliding — long stretches of time in one go

Time passes in milliseconds. To let many of them pass, one after the other, takes long (`trickle`), so there
is a short cut that goes to the last waking of the background sweep and from there to the end
(`Memory.glide`), once more if the wall clock starts over in between (`Memory.advance`). The short cut leads
to the same store and the same clocks (`glide_eq_trickle`, `advance_eq_trickle`).

Until the sweeper wakes nothing happens (`trickle_eq_elapse`). When it has woken, its next deadline is a beat
later, so that all its wakings are known beforehand (`Sweeper.skip`). Of their sweeps the last one is as good
as all of them, as long as the wall clock does not go back: what had lapsed at an earlier one has lapsed
still (`sweep_sweep`, `trickle_skip`).
-/
import Admission.Proofs.Store.Background

namespace Admission

/-! ## The clocks -/

namespace Clock

@[simp] theorem elapse_zero (clock : Clock) : clock.elapse 0 = clock := by
  simp only [elapse, Int.natCast_zero, Int.add_zero, Nat.add_zero]

theorem elapse_elapse (clock : Clock) (ms ms' : Nat) :
    (clock.elapse ms).elapse ms' = clock.elapse (ms + ms') := by
  simp only [elapse, mk.injEq]
  omega

/-- From the next millisecond on, the reading does not go back for so many of them. -/
def Forward (clock : Clock) (ms : Nat) : Prop :=
  ∀ j k, 0 < j → j ≤ k → k ≤ ms → (clock.elapse j).reading ≤ (clock.elapse k).reading

theorem Forward.later {clock : Clock} {ms ms' : Nat} (forward : clock.Forward (ms + ms')) :
    (clock.elapse ms).Forward ms' := by
  intro j k some le within
  rw [elapse_elapse, elapse_elapse]
  exact forward _ _ (Nat.add_pos_right ms some) (Nat.add_le_add_left le ms)
    (Nat.add_le_add_left within ms)

theorem Forward.mono {clock : Clock} {ms ms' : Nat} (forward : clock.Forward ms') (le : ms ≤ ms') :
    clock.Forward ms := fun j k some between within => forward j k some between (Nat.le_trans within le)

/-- Up to the last instant it does not. -/
theorem forward_of_le {clock : Clock} {ms : Nat} (h : ms ≤ Word.last - clock.reading) :
    clock.Forward ms := by
  intro j k _ le within
  simp only [reading, readingAt, elapse, Word.last] at h ⊢
  omega

/-- After the last instant it starts over, and does not for as long again. -/
theorem forward_of_last {clock : Clock} {ms : Nat} (last : clock.reading = Word.last)
    (h : ms ≤ Word.last) : clock.Forward ms := by
  intro j k some le within
  simp only [reading, readingAt, elapse, Word.last] at last h ⊢
  omega

/-- The last instant is read when the milliseconds before it have passed. -/
theorem reading_elapse_eq_last {clock : Clock} {ms : Nat} (beyond : Word.last - clock.reading < ms)
    (h : ms ≤ Word.last) : (clock.elapse (Word.last - clock.reading)).reading = Word.last := by
  simp only [reading, readingAt, elapse, Word.last] at beyond h ⊢
  omega

end Clock

/-! ## The rhythm of a sweeper -/

namespace Sweeper

variable {s : Sweeper} {beat uptime : Nat}

/-- A sweeper keeps the rhythm of its ticker, and its next deadline lies ahead. -/
structure Paced (s : Sweeper) (beat uptime : Nat) : Prop where
  /-- It wakes from its deadline on. -/
  documented : s.ticker.Documented
  /-- Its deadlines are a beat apart. -/
  steady : s.ticker.Steady s.period beat
  /-- The next one lies ahead. -/
  ahead : instant uptime < s.deadline

/-- The sweeper after so many wakings in time. -/
def skip (s : Sweeper) (beat wakings : Nat) : Sweeper := { s with deadline := s.deadline + wakings * beat }

/-- The waking lies ahead as long as the deadline does. -/
theorem lt_waking_iff : uptime < s.waking ↔ instant uptime < s.deadline := by
  rw [waking, instant]
  omega

/-- A waking in time is not late by a millisecond. -/
theorem deadline_le_waking (s : Sweeper) :
    s.deadline ≤ instant s.waking ∧ instant s.waking < s.deadline + 1000000 := by
  rw [waking, instant]
  omega

/-- A sweeper is due then. -/
theorem due_waking (documented : s.ticker.Documented) : s.due s.waking = true :=
  (due_iff documented).mpr s.deadline_le_waking.1

theorem skip_zero (s : Sweeper) (beat : Nat) : s.skip beat 0 = s := by
  simp only [skip, Nat.zero_mul, Nat.add_zero]

theorem skip_skip (s : Sweeper) (beat wakings wakings' : Nat) :
    (s.skip beat wakings).skip beat wakings' = s.skip beat (wakings + wakings') := by
  simp only [skip, Nat.add_mul, Nat.add_assoc]

/-- Wakings come one after the other. -/
theorem waking_le_skip (s : Sweeper) (beat wakings : Nat) : s.waking ≤ (s.skip beat wakings).waking :=
  Nat.div_le_div_right (Nat.add_le_add_right (Nat.le_add_right _ _) _)

namespace Paced

/-- The beat is what it is found to be. -/
theorem beat_eq (paced : s.Paced beat uptime) : s.beat = beat := by
  rw [Sweeper.beat, paced.steady.next_eq _ _ s.deadline_le_waking.1 s.deadline_le_waking.2,
    Nat.add_sub_cancel_left]

/-- After a waking in time one beat is over. -/
theorem woken_eq (paced : s.Paced beat uptime) : s.woken s.waking = s.skip beat 1 := by
  rw [woken, paced.steady.next_eq _ _ s.deadline_le_waking.1 s.deadline_le_waking.2, skip, Nat.one_mul]

/-- A sweeper stays in its rhythm, whichever deadline it waits for. -/
theorem skip (paced : s.Paced beat uptime) {wakings uptime' : Nat}
    (ahead : instant uptime' < (s.skip beat wakings).deadline) :
    (s.skip beat wakings).Paced beat uptime' :=
  ⟨paced.documented, paced.steady, ahead⟩

/-- When it has woken in time, the next deadline lies ahead. -/
theorem skip_one (paced : s.Paced beat uptime) {uptime' : Nat} (wakes : uptime' = s.waking) :
    (s.skip beat 1).Paced beat uptime' := by
  have millisecond_le := paced.steady.millisecond_le
  have late := s.deadline_le_waking.2
  rw [wakes]
  exact paced.skip (show instant s.waking < s.deadline + 1 * beat by omega)

/-- The wakings take some time to come. -/
theorem exists_lead (paced : s.Paced beat uptime) (wakings : Nat) :
    ∃ lead, 0 < lead ∧ uptime + lead = (s.skip beat wakings).waking := by
  have ahead : uptime < s.waking := lt_waking_iff.mpr paced.ahead
  have first := s.waking_le_skip beat wakings
  exact ⟨(s.skip beat wakings).waking - uptime, by omega, by omega⟩

/-- So it does when it has woken at any other instant. -/
theorem woken (paced : s.Paced beat uptime) {uptime' : Nat} (due : s.due uptime' = true) :
    (s.woken uptime').Paced beat uptime' :=
  ⟨paced.documented, paced.steady, (timely_woken paced.documented due).ahead⟩

/-- And so it does until the sweeper is due. -/
theorem later (paced : s.Paced beat uptime) {uptime' : Nat} (sleeps : s.due uptime' = false) :
    s.Paced beat uptime' :=
  ⟨paced.documented, paced.steady, (due_eq_false_iff paced.documented).mp sleeps⟩

/-- What is taken for the last waking up to an instant is the last one. -/
theorem beforeLast (paced : s.Paced beat uptime) {uptime' : Nat} (due : s.due uptime' = true) :
    ∃ wakings, s.beforeLast uptime' = s.skip beat wakings ∧ (s.skip beat wakings).waking ≤ uptime' ∧
      uptime' < (s.skip beat (wakings + 1)).waking := by
  have positive : 0 < beat := Nat.lt_of_lt_of_le (by decide) paced.steady.millisecond_le
  have passed := (due_iff paced.documented).mp due
  obtain ⟨last, next⟩ := Ticker.between_deadlines positive passed
  refine ⟨(instant uptime' - s.deadline) / beat, ?_, ?_, lt_waking_iff.mpr next⟩
  · rw [Sweeper.beforeLast, paced.beat_eq, Sweeper.skip]
  · rw [← Nat.not_lt, lt_waking_iff, Nat.not_lt]
    exact last

end Paced

end Sweeper

namespace Memory

variable {m : Memory} {clock : Clock} {s : Sweeper} {beat : Nat}

/-- The sweeper of a store keeps a rhythm, if there is one. -/
def Paced (m : Memory) (clock : Clock) : Prop :=
  ∀ s, m.sweeper = some s → ∃ beat, s.Paced beat clock.uptime

/-- It does from the beginning, if the ticker does so at every period. -/
theorem paced_make {ticker : Ticker} (documented : ticker.Documented)
    (steady : ∀ period ≥ 1000000, ∃ beat, ticker.Steady period beat) (policy : SweepPolicy)
    (clock : Clock) : (make ticker policy clock.uptime).Paced clock := by
  intro s runs
  cases policy with
  | every interval =>
    cases runs
    obtain ⟨beat, steady⟩ := steady _ (Sweeper.start ticker interval clock.uptime).millisecond_le
    exact ⟨beat, documented, steady, (Sweeper.timely_start documented interval clock.uptime).ahead⟩
  | requests count => cases runs
  | manual => cases runs

/-- It goes on doing so, whatever happens next. -/
theorem Paced.turn {s : Memory × Clock} (paced : s.1.Paced s.2) (t : Turn) :
    (Memory.turn s t).1.Paced (Memory.turn s t).2 := by
  cases t with
  | event cancelled e =>
    intro sweeper runs
    by_cases closes : e = .close
    · subst closes
      cases runs
    · exact paced sweeper ((sweeper_happen closes).symm.trans runs)
  | elapse ms =>
    intro sweeper runs
    replace runs : (s.1.elapse s.2 ms).1.sweeper = some sweeper := runs
    show ∃ beat, sweeper.Paced beat (s.2.uptime + ms)
    cases before : s.1.sweeper with
    | none =>
      simp only [elapse, wake, before] at runs
      cases runs
    | some sweeper' =>
      obtain ⟨beat, paced⟩ := paced sweeper' before
      rw [elapse_eq before] at runs
      cases due : sweeper'.due (s.2.uptime + ms) with
      | true =>
        rw [due] at runs
        cases runs
        exact ⟨beat, paced.woken due⟩
      | false =>
        rw [due] at runs
        cases before.symm.trans runs
        exact ⟨beat, paced.later due⟩

/-- So it does after any run. -/
theorem Paced.turns {s : Memory × Clock} (paced : s.1.Paced s.2) (run : List Turn) :
    (Memory.turns s run).1.Paced (Memory.turns s run).2 := by
  induction run generalizing s with
  | nil => exact paced
  | cons t rest ih => exact ih (paced.turn t)

/-! ## Millisecond by millisecond -/

/-- So many milliseconds pass, one after the other. -/
def trickle : Nat → Memory × Clock → Memory × Clock
  | 0, s => s
  | ms + 1, s => trickle ms (s.1.elapse s.2 1)

theorem trickle_add (ms ms' : Nat) (s : Memory × Clock) :
    trickle (ms + ms') s = trickle ms' (trickle ms s) := by
  induction ms generalizing s with
  | zero => rw [Nat.zero_add, trickle]
  | succ ms ih => rw [Nat.succ_add, trickle, trickle, ih]

theorem trickle_succ (ms : Nat) (s : Memory × Clock) :
    trickle (ms + 1) s = (trickle ms s).1.elapse (trickle ms s).2 1 := trickle_add ms 1 s

theorem trickle_clock (ms : Nat) (s : Memory × Clock) : (trickle ms s).2 = s.2.elapse ms := by
  induction ms with
  | zero => exact s.2.elapse_zero.symm
  | succ ms ih =>
    rw [trickle_succ, ← Clock.elapse_elapse, ← ih]
    rfl

/-- A sweeper stays in its rhythm all the time. -/
theorem Paced.trickle {s : Memory × Clock} (paced : s.1.Paced s.2) (ms : Nat) :
    (Memory.trickle ms s).1.Paced (Memory.trickle ms s).2 := by
  induction ms generalizing s with
  | zero => exact paced
  | succ ms ih => exact ih (paced.turn (.elapse 1))

/-! ## Nothing happens -/

/-- What happens at the end of a step depends on nothing but the end. -/
theorem elapse_elapse (m : Memory) (clock : Clock) (ms ms' : Nat) :
    m.elapse (clock.elapse ms) ms' = m.elapse clock (ms + ms') := by
  simp only [elapse, Clock.elapse_elapse]

/-- Without a sweeper nothing ever happens. -/
theorem elapse_of_none (stopped : m.sweeper = none) (ms : Nat) :
    m.elapse clock ms = (m, clock.elapse ms) := by
  simp only [elapse, wake, stopped]

/-- Nothing happens until the sweeper wakes. -/
theorem elapse_of_lt (runs : m.sweeper = some s) (documented : s.ticker.Documented) {ms : Nat}
    (sleeps : clock.uptime + ms < s.waking) : m.elapse clock ms = (m, clock.elapse ms) := by
  have sleeps : s.due (clock.uptime + ms) = false :=
    (Sweeper.due_eq_false_iff documented).mpr (Sweeper.lt_waking_iff.mp sleeps)
  refine Prod.ext ?_ rfl
  rw [elapse_eq runs, sleeps]
  rfl

/-- Without a sweeper, milliseconds are as good as one step. -/
theorem trickle_of_none (stopped : m.sweeper = none) (ms : Nat) :
    trickle ms (m, clock) = m.elapse clock ms := by
  induction ms with
  | zero => rw [elapse_of_none stopped, Clock.elapse_zero, trickle]
  | succ ms ih => rw [trickle_succ, ih, elapse_of_none stopped ms, elapse_elapse]

/-- So they are up to the next waking. -/
theorem trickle_eq_elapse (runs : m.sweeper = some s) (paced : s.Paced beat clock.uptime) {ms : Nat}
    (sleeps : clock.uptime + ms ≤ s.waking) : trickle ms (m, clock) = m.elapse clock ms := by
  induction ms with
  | zero =>
    have ahead : clock.uptime + 0 < s.waking := Sweeper.lt_waking_iff.mpr paced.ahead
    rw [elapse_of_lt runs paced.documented ahead, Clock.elapse_zero, trickle]
  | succ ms ih =>
    rw [trickle_succ, ih (Nat.le_of_succ_le sleeps),
      elapse_of_lt runs paced.documented (Nat.lt_of_succ_le sleeps), elapse_elapse]

/-! ## The last waking -/

/-- Of two sweeps the later one is as good as both. -/
theorem sweep_sweep (m : Memory) {now now' : Nat} (le : now ≤ now') :
    (m.sweep now).sweep now' = m.sweep now' := by
  rw [sweep_eq, sweep_eq, sweep_eq, Table.select_select]
  refine congrArg (fun table => { m with table := table }) (Table.select_congr fun row _ => ?_)
  cases lapsed : row.2.expired now with
  | false => rfl
  | true => rw [Entry.expired_mono lapsed le]; rfl

/-- A sweep need not be waited for if the sweeper wakes once more. -/
theorem sweep_elapse (m : Memory) {lead rest : Nat} (due : s.due (clock.uptime + (lead + rest)) = true)
    (le : (clock.elapse lead).reading ≤ (clock.elapse (lead + rest)).reading) :
    Memory.elapse { m.sweep (clock.elapse lead).reading with sweeper := some s } (clock.elapse lead) rest =
      Memory.elapse { m with sweeper := some s } clock (lead + rest) := by
  let waits : Memory := { m with sweeper := some s }
  have swept : { m.sweep (clock.elapse lead).reading with sweeper := some s } =
      waits.sweep (clock.elapse lead).reading := by
    rw [sweep_eq, sweep_eq]
  have runs : (waits.sweep (clock.elapse lead).reading).sweeper = some s := waits.sweeper_sweep _
  rw [elapse_elapse, swept]
  refine Prod.ext ?_ rfl
  show _ = (waits.elapse clock (lead + rest)).1
  rw [elapse_eq runs, elapse_eq (m := waits) rfl, if_pos due, if_pos due, sweep_sweep waits le]

/-- A waking in time. -/
theorem elapse_waking (runs : m.sweeper = some s) (paced : s.Paced beat clock.uptime) {ms : Nat}
    (wakes : clock.uptime + ms = s.waking) : m.elapse clock ms =
      ({ m.sweep (clock.elapse ms).reading with sweeper := some (s.skip beat 1) }, clock.elapse ms) := by
  refine Prod.ext ?_ rfl
  have due : s.due (clock.uptime + ms) = true := by
    rw [wakes]
    exact Sweeper.due_waking paced.documented
  rw [elapse_eq runs, if_pos due, wakes, paced.woken_eq]

/-- **All wakings but the last can be left out**: the sweeper waits for that one from the beginning. -/
theorem trickle_skip (runs : m.sweeper = some s) (paced : s.Paced beat clock.uptime) (wakings : Nat)
    {ms : Nat} (wakes : clock.uptime + ms = (s.skip beat wakings).waking) (forward : clock.Forward ms) :
    trickle ms (m, clock) =
      { m with sweeper := some (s.skip beat wakings) }.elapse clock ms := by
  induction wakings generalizing m clock s ms with
  | zero =>
    have kept : { m with sweeper := some s } = m := by rw [← runs]
    rw [s.skip_zero] at wakes ⊢
    rw [kept, trickle_eq_elapse runs paced (Nat.le_of_eq wakes)]
  | succ wakings ih =>
    -- the first waking, and the time from there to the last one
    obtain ⟨lead, lasts, first⟩ := paced.exists_lead 0
    rw [s.skip_zero] at first
    have before := s.waking_le_skip beat (wakings + 1)
    obtain ⟨rest, rfl⟩ : ∃ rest, ms = lead + rest := ⟨ms - lead, by omega⟩
    have skipped : (s.skip beat 1).skip beat wakings = s.skip beat (wakings + 1) := by
      rw [Sweeper.skip_skip, Nat.add_comm]
    have wakes' : (clock.elapse lead).uptime + rest = ((s.skip beat 1).skip beat wakings).waking := by
      rw [skipped, ← wakes]
      exact Nat.add_assoc _ _ _
    have due : (s.skip beat (wakings + 1)).due (clock.uptime + (lead + rest)) = true := by
      rw [wakes]
      exact Sweeper.due_waking paced.documented
    rw [trickle_add, trickle_eq_elapse runs paced (Nat.le_of_eq first), elapse_waking runs paced first,
      ih rfl (paced.skip_one first) wakes' forward.later, skipped]
    exact sweep_elapse m due (forward _ _ lasts (Nat.le_add_right _ _) (Nat.le_refl _))

/-- After the last waking nothing happens. -/
theorem trickle_last (runs : m.sweeper = some s) (paced : s.Paced beat clock.uptime) {wakings lead rest : Nat}
    (wakes : clock.uptime + lead = (s.skip beat wakings).waking)
    (sleeps : clock.uptime + (lead + rest) < (s.skip beat (wakings + 1)).waking)
    (forward : clock.Forward (lead + rest)) :
    let woken := Memory.elapse { m with sweeper := some (s.skip beat wakings) } clock lead
    trickle (lead + rest) (m, clock) = woken.1.elapse woken.2 rest := by
  have ahead : clock.uptime < (s.skip beat wakings).waking :=
    Nat.lt_of_lt_of_le (Sweeper.lt_waking_iff.mpr paced.ahead) (s.waking_le_skip beat wakings)
  have paced' : (s.skip beat wakings).Paced beat clock.uptime :=
    paced.skip (Sweeper.lt_waking_iff.mp ahead)
  have sleeps' : (clock.elapse lead).uptime + rest ≤ ((s.skip beat wakings).skip beat 1).waking := by
    rw [Sweeper.skip_skip]
    show clock.uptime + lead + rest ≤ _
    omega
  intro woken
  rw [trickle_add, trickle_skip runs paced wakings wakes (forward.mono (Nat.le_add_right _ _))]
  show trickle rest woken = _
  have reached : woken = _ := elapse_waking rfl paced' wakes
  rw [reached, trickle_eq_elapse rfl (paced'.skip_one wakes) sleeps']

/-! ## The short cut -/

/-- **A long stretch of time** may be taken in one go, if the wall clock does not go back meanwhile. -/
theorem glide_eq_trickle (paced : m.Paced clock) {ms : Nat} (forward : clock.Forward ms) :
    m.glide clock ms = trickle ms (m, clock) := by
  cases runs : m.sweeper with
  | none =>
    rw [trickle_of_none runs]
    simp only [glide, runs]
  | some s =>
    obtain ⟨beat, paced⟩ := paced s runs
    simp only [glide, runs]
    split
    · next due =>
      obtain ⟨wakings, last, reached, next⟩ := paced.beforeLast due
      -- the time to the last waking, and from there to the end
      obtain ⟨lead, -, wakes⟩ := paced.exists_lead wakings
      obtain ⟨rest, rfl⟩ : ∃ rest, ms = lead + rest := ⟨ms - lead, by omega⟩
      have lead_eq : (s.skip beat wakings).waking - clock.uptime = lead := by omega
      rw [trickle_last runs paced wakes next forward, last, lead_eq, Nat.add_sub_cancel_left]
    · next sleeps =>
      have sleeps : clock.uptime + ms < s.waking := by
        rw [Sweeper.lt_waking_iff, ← Sweeper.due_eq_false_iff paced.documented]
        simpa using sleeps
      rw [trickle_eq_elapse runs paced (Nat.le_of_lt sleeps)]

/-- **Any stretch of time** in which the wall clock starts over once at most may be taken in one go. -/
theorem advance_eq_trickle (paced : m.Paced clock) {ms : Nat} (h : ms ≤ Word.last) :
    m.advance clock ms = trickle ms (m, clock) := by
  rw [advance]
  split
  · next within => exact glide_eq_trickle paced (Clock.forward_of_le within)
  · next beyond =>
    obtain ⟨rest, rfl⟩ : ∃ rest, ms = Word.last - clock.reading + rest :=
      ⟨ms - (Word.last - clock.reading), by omega⟩
    have last := Clock.reading_elapse_eq_last (Nat.lt_of_not_le beyond) h
    have forward : (clock.elapse (Word.last - clock.reading)).Forward rest :=
      Clock.forward_of_last last (by omega)
    have first := glide_eq_trickle paced (Clock.forward_of_le (Nat.le_refl _))
    have paced' := Paced.trickle (s := (m, clock)) paced (Word.last - clock.reading)
    rw [← trickle_clock _ (m, clock)] at forward
    have second := glide_eq_trickle paced' forward
    rw [trickle_add, Nat.add_sub_cancel_left, first]
    exact second

/-- So it is after any run of a store that was made with the ticker that does not catch up. -/
theorem advance_turns (policy : SweepPolicy) (clock : Clock) (run : List Turn) {ms : Nat}
    (h : ms ≤ Word.last) :
    let s := turns (make .delaying policy clock.uptime, clock) run
    s.1.advance s.2 ms = trickle ms s := by
  have steady : ∀ period ≥ 1000000, ∃ beat, Ticker.delaying.Steady period beat :=
    fun period millisecond_le => ⟨period, Ticker.delaying_steady millisecond_le⟩
  have made := paced_make Ticker.delaying_documented steady policy clock
  exact advance_eq_trickle (made.turns (s := (make .delaying policy clock.uptime, clock)) run) h

end Memory

end Admission

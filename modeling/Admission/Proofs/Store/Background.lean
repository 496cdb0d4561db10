/-
# Admission.Proofs.Store.Background — sweeping in the background

A store may be told to sweep in the background, at an interval. Its sweeper does not wake at fixed instants:
time may pass in steps of any size, a step may leap over several deadlines, and what comes after a late
waking is up to the ticker. What does stay, with any ticker that does what is documented, is that after
every step the next deadline lies ahead, and no further than a period (`Sweeper.Timely`).

So whatever has lapsed has not long to stay. Take an entry that has lapsed already. Until the store is swept
nothing moves the deadline, which lies within a period; when the step comes that reaches the end of that
period the sweep has happened, or happens then (`Memory.Leaving.turns`). And nothing but what has lapsed is
ever swept. A sweep looks at each entry twice, once to pick it and once more before it removes it, since
others may have written in between (`Memory.sweep_eq_foldl_discard`, `Memory.get?_discard`).
-/
import Admission.Proofs.Store.Rhythm
import Admission.Proofs.Store.Ticker

namespace Admission

namespace Sweeper

/-- The period that an interval asks for, in whole milliseconds: a part of one counts as a whole one. -/
def wholePeriod (interval : Duration) : Nat := (max interval.nanoseconds 1000000 + 999999) / 1000000

/-- In so many milliseconds a period has passed. -/
theorem instant_add_periodOf_le (interval : Duration) (uptime : Nat) :
    instant uptime + periodOf interval ≤ instant (uptime + wholePeriod interval) := by
  have whole : max interval.nanoseconds 1000000 ≤ wholePeriod interval * 1000000 := by
    rw [wholePeriod]
    omega
  rw [instant, instant, Nat.add_mul, periodOf]
  omega

end Sweeper

namespace Memory

/-! ## A sweep, one entry after the other -/

/-- A key that is discarded loses what has lapsed, and no other key loses anything. -/
theorem get?_discard (m : Memory) (now : Nat) (key other : String) :
    (m.discard now key).2.table.get? other =
      if other = key then Entry.unlapsed now (m.table.get? other) else m.table.get? other := by
  rw [discard_snd, Table.get?_select]
  by_cases own : other = key
  · simp [own, Entry.unlapsed]
  · cases m.table.get? other <;> simp [own]

/-- **A sweep** picks the keys whose entries have lapsed, and then discards them one by one. -/
theorem sweep_eq_foldl_discard (m : Memory) (now : Nat) :
    m.sweep now = (m.lapsedKeys now).foldl (fun m key => (m.discard now key).2) m :=
  (List.foldl_hom Prod.snd fun _ _ => rfl).symm

/-! ## Turns -/

/-- What happens next to a store that is swept in the background. -/
inductive Turn where
  /-- Something is asked or made of it, maybe by a caller who has given up. -/
  | event (cancelled : Bool) (event : Event)
  /-- Both clocks move on, in one step. -/
  | elapse (ms : Nat)
deriving DecidableEq

/-- What the clocks show after it. -/
def Turn.clock (clock : Clock) : Turn → Clock
  | event _ _ => clock
  | elapse ms => clock.elapse ms

/-- Whether the store is closed. -/
def Turn.closes : Turn → Bool
  | event _ .close => true
  | _ => false

/-- What comes of a turn. -/
def turn (s : Memory × Clock) : Turn → Memory × Clock
  | .event cancelled e => ((s.1.happen ⟨s.2.reading, cancelled⟩ e).2, s.2)
  | .elapse ms => s.1.elapse s.2 ms

/-- What comes of one turn after another. -/
def turns (s : Memory × Clock) (run : List Turn) : Memory × Clock := run.foldl turn s

/-- The key whose entry is written, if one is. -/
def Turn.written? (s : Memory × Clock) : Turn → Option String
  | event cancelled e => Memory.written? e (s.1.happen ⟨s.2.reading, cancelled⟩ e).1
  | elapse _ => none

/-- No turn of a run writes the entry of a key. -/
def Unwritten (key : String) : Memory × Clock → List Turn → Prop
  | _, [] => True
  | s, t :: rest => t.written? s ≠ some key ∧ Unwritten key (turn s t) rest

/-- The wall clock never reads less than before. -/
def NeverBack (clock : Clock) : List Turn → Prop
  | [] => True
  | t :: rest => clock.reading ≤ (t.clock clock).reading ∧ NeverBack (t.clock clock) rest

theorem turn_clock (s : Memory × Clock) (t : Turn) : (turn s t).2 = t.clock s.2 := by
  cases t <;> rfl

/-! ## The watch -/

variable {m : Memory} {clock : Clock} {key : String} {interval : Duration} {s : Memory × Clock} {t : Turn}
  {run : List Turn}

/-- A sweep does not wake the sweeper. -/
theorem sweeper_sweep (m : Memory) (now : Nat) : (m.sweep now).sweeper = m.sweeper := by
  rw [sweep_table]

/-- Counting a request does not do so either. -/
theorem sweeper_count (m : Memory) (now : Nat) : (m.count now).sweeper = m.sweeper := by
  have swept : (if m.sweepsNext then m.sweep now else m).sweeper = m.sweeper := by
    split
    · exact m.sweeper_sweep now
    · rfl
  rw [← swept]
  unfold count
  cases m.policy <;> rfl

/-- Nothing but the passing of time does, and only closing the store stops it. -/
theorem sweeper_happen {moment : Moment} {e : Event} (stays : e ≠ .close) :
    (m.happen moment e).2.sweeper = m.sweeper := by
  cases counted : counts (moment, e) with
  | true =>
    obtain ⟨d, rfl⟩ := exists_demand_of_counts counted
    obtain ⟨table, after, -⟩ := @perform_counted m moment d counted
    show (m.perform moment d).2.sweeper = _
    rw [after]
    exact m.sweeper_count moment.now
  | false =>
    cases e with
    | demand d =>
      obtain ⟨now, cancelled⟩ := moment
      show (m.perform ⟨now, cancelled⟩ d).2.sweeper = _
      cases cancelled with
      | true => rw [perform_cancelled]
      | false =>
        cases d with
        | delete key => rfl
        | get | set | swap => cases counted
    | clear => rfl
    | collect => exact m.sweeper_sweep moment.now
    | sweep => exact m.sweeper_sweep moment.now
    | close => exact absurd rfl stays

/-- A step of the clocks wakes the sweeper if its deadline has come, and does nothing otherwise. -/
theorem elapse_eq {sweeper : Sweeper} (runs : m.sweeper = some sweeper) (ms : Nat) :
    (m.elapse clock ms).1 =
      if sweeper.due (clock.uptime + ms) then
        { m.sweep (clock.elapse ms).reading with sweeper := some (sweeper.woken (clock.uptime + ms)) }
      else m := by
  simp only [elapse, wake, runs]
  rfl

/-- All that such a step does to an entry is to sweep it. -/
theorem get?_elapse (m : Memory) (clock : Clock) (ms : Nat) (key : String) :
    (m.elapse clock ms).1.table.get? key = m.table.get? key ∨
      (m.elapse clock ms).1.table.get? key =
        Entry.unlapsed (clock.elapse ms).reading (m.table.get? key) := by
  cases runs : m.sweeper with
  | none =>
    left
    simp only [elapse, wake, runs]
  | some sweeper =>
    rw [elapse_eq runs]
    split
    · exact .inr (m.get?_sweep _ key)
    · exact .inl rfl

/-- An entry that is there after it was there before. -/
theorem elapse_was {entry : Entry} {ms : Nat}
    (there : (m.elapse clock ms).1.table.get? key = some entry) : m.table.get? key = some entry := by
  rcases m.get?_elapse clock ms key with same | swept
  · rw [← same, there]
  · exact (Option.filter_eq_some_iff.mp (swept.symm.trans there)).1

/-- An entry that has not lapsed is still there after it. -/
theorem elapse_keeps {entry : Entry} {ms : Nat} (there : m.table.get? key = some entry)
    (unexpired : entry.expired (clock.elapse ms).reading = false) :
    (m.elapse clock ms).1.table.get? key = some entry := by
  rcases m.get?_elapse clock ms key with same | swept
  · rw [same, there]
  · rw [swept, there, Entry.unlapsed, Option.filter_some, unexpired]
    rfl

/-- A step that is long enough sweeps, and none that has lapsed is there after it. -/
theorem elapse_swept {sweeper : Sweeper} (runs : m.sweeper = some sweeper) {ms : Nat}
    (due : sweeper.due (clock.uptime + ms) = true) {entry : Entry}
    (there : (m.elapse clock ms).1.table.get? key = some entry) :
    entry.expired (clock.elapse ms).reading = false := by
  rw [elapse_eq runs, if_pos due] at there
  have swept : Entry.unlapsed (clock.elapse ms).reading (m.table.get? key) = some entry :=
    (m.get?_sweep _ key).symm.trans there
  have kept := (Option.filter_eq_some_iff.mp swept).2
  simpa using kept

/-- The store is being swept, and is swept again within a period of `interval`. -/
def Watched (interval : Duration) (s : Memory × Clock) : Prop :=
  ∃ sweeper, s.1.sweeper = some sweeper ∧ sweeper.ticker.Documented ∧
    sweeper.period = Sweeper.periodOf interval ∧ sweeper.Timely s.2.uptime

/-- So it is after the next turn. -/
theorem Watched.turn (watched : Watched interval s) (stays : t.closes = false) :
    Watched interval (turn s t) := by
  obtain ⟨sweeper, runs, documented, period, timely⟩ := watched
  cases t with
  | event cancelled e =>
    refine ⟨sweeper, ?_, documented, period, timely⟩
    rw [← runs]
    exact sweeper_happen (by rintro rfl; cases stays)
  | elapse ms =>
    show Watched interval ((s.1.elapse s.2 ms).1, s.2.elapse ms)
    rw [elapse_eq runs]
    cases due : sweeper.due (s.2.uptime + ms) with
    | true => exact ⟨_, rfl, documented, period, Sweeper.timely_woken documented due⟩
    | false => exact ⟨sweeper, runs, documented, period, timely.later documented due⟩

/-- So it is after any run. -/
theorem Watched.turns (watched : Watched interval s) (stays : ∀ t ∈ run, t.closes = false) :
    Watched interval (turns s run) := by
  induction run generalizing s with
  | nil => exact watched
  | cons t rest ih =>
    obtain ⟨first, stays⟩ := List.forall_mem_cons.mp stays
    exact ih (watched.turn first) stays

/-! ## What has lapsed -/

/-- The sweeper wakes at `limit` at the latest, and has not done so yet. -/
def Awaited (limit : Nat) (s : Memory × Clock) : Prop :=
  ∃ sweeper, s.1.sweeper = some sweeper ∧ sweeper.ticker.Documented ∧
    Sweeper.instant s.2.uptime < sweeper.deadline ∧ sweeper.deadline ≤ limit

/-- If there is still an entry under a key, it has lapsed and the sweeper is awaited. -/
def Leaving (key : String) (limit : Nat) (s : Memory × Clock) : Prop :=
  ∀ entry, s.1.table.get? key = some entry → entry.expired s.2.reading = true ∧ Awaited limit s

/-- An entry that is there, and was not written, was there before. -/
theorem happen_was {moment : Moment} {e : Event} {entry : Entry}
    (unwritten : Memory.written? e (m.happen moment e).1 ≠ some key)
    (there : (m.happen moment e).2.table.get? key = some entry) : m.table.get? key = some entry := by
  rcases happen_unwritten unwritten with gone | kept
  · rw [gone] at there
    cases there
  · rw [kept] at there
    split at there
    · exact (Option.filter_eq_some_iff.mp there).1
    · exact there

/-- **What is leaving goes on leaving.** Only a sweep moves the deadline, and it takes what has lapsed. -/
theorem Leaving.turn {limit : Nat} (leaving : Leaving key limit s) (stays : t.closes = false)
    (forward : s.2.reading ≤ (t.clock s.2).reading) (unwritten : t.written? s ≠ some key) :
    Leaving key limit (turn s t) := by
  intro entry there
  cases t with
  | event cancelled e =>
    obtain ⟨lapsed, sweeper, runs, awaited⟩ := leaving entry (happen_was unwritten there)
    refine ⟨lapsed, sweeper, ?_, awaited⟩
    rw [← runs]
    exact sweeper_happen (by rintro rfl; cases stays)
  | elapse ms =>
    obtain ⟨lapsed, sweeper, runs, documented, -, near⟩ := leaving entry (elapse_was there)
    have still : entry.expired (s.2.elapse ms).reading = true := Entry.expired_mono lapsed forward
    -- had the deadline come, the entry would not be there
    have sleeps : sweeper.due (s.2.uptime + ms) = false := by
      rw [← Bool.not_eq_true]
      intro due
      rw [elapse_swept runs due there] at still
      cases still
    refine ⟨still, sweeper, ?_, documented, (Sweeper.due_eq_false_iff documented).mp sleeps, near⟩
    show (s.1.elapse s.2 ms).1.sweeper = some sweeper
    rw [elapse_eq runs, sleeps]
    exact runs

/-- Over a whole run. -/
theorem Leaving.turns {limit : Nat} (leaving : Leaving key limit s)
    (stays : ∀ t ∈ run, t.closes = false) (forward : NeverBack s.2 run)
    (unwritten : Unwritten key s run) : Leaving key limit (turns s run) := by
  induction run generalizing s with
  | nil => exact leaving
  | cons t rest ih =>
    obtain ⟨first, stays⟩ := List.forall_mem_cons.mp stays
    obtain ⟨now, forward⟩ := forward
    obtain ⟨now', unwritten⟩ := unwritten
    rw [← turn_clock] at forward
    exact ih (leaving.turn first now now') stays forward unwritten

/-! ## Within a period -/

/-- The clocks of a run. -/
theorem NeverBack.after {before after : List Turn} (forward : NeverBack s.2 (before ++ after)) :
    NeverBack (Memory.turns s before).2 after := by
  induction before generalizing s with
  | nil => exact forward
  | cons t rest ih =>
    have later := forward.2
    rw [← turn_clock] at later
    exact ih later

/-- What has lapsed in a store that is watched is leaving, for no longer than a period. -/
theorem Watched.leaving (watched : Watched interval s)
    (lapsed : ∀ entry, s.1.table.get? key = some entry → entry.expired s.2.reading = true) :
    Leaving key (Sweeper.instant (s.2.uptime + Sweeper.wholePeriod interval)) s := by
  obtain ⟨sweeper, runs, documented, period, timely⟩ := watched
  intro entry there
  refine ⟨lapsed entry there, sweeper, runs, documented, timely.ahead, Nat.le_trans timely.near ?_⟩
  rw [period]
  exact Sweeper.instant_add_periodOf_le interval _

/-- When the time is up, what was leaving is gone. -/
theorem Leaving.gone {uptime : Nat} (leaving : Leaving key (Sweeper.instant uptime) s)
    (up : uptime ≤ s.2.uptime) : s.1.table.get? key = none := by
  rw [Option.eq_none_iff_forall_not_mem]
  intro entry there
  obtain ⟨-, sweeper, -, -, ahead, near⟩ := leaving entry there
  have passed : Sweeper.instant uptime ≤ Sweeper.instant s.2.uptime := Nat.mul_le_mul_right _ up
  omega

/-- **Sweeping in the background.** In a store that is swept at an interval, by any ticker that does what is
documented, an entry that is found to have lapsed, and is not written again, is gone when as many milliseconds
have passed as a period takes. No step of the clocks takes an entry that has not lapsed then, nor does any
sweep, whatever it has picked: each entry is looked at once more before it is removed. -/
theorem swept_within_period {ticker : Ticker} (documented : ticker.Documented) (interval : Duration)
    {m : Memory} {clock : Clock}
    (started : m.sweeper = some (.start ticker interval clock.uptime)) {before after : List Turn}
    (stays : ∀ t ∈ before ++ after, t.closes = false) (forward : NeverBack clock (before ++ after)) :
    let found := turns (m, clock) before
    let left := turns found after
    (∀ key entry, found.1.table.get? key = some entry → entry.expired found.2.reading = true →
        Unwritten key found after → found.2.uptime + Sweeper.wholePeriod interval ≤ left.2.uptime →
        left.1.table.get? key = none) ∧
      (∀ ms key entry, left.1.table.get? key = some entry →
        entry.expired (left.2.elapse ms).reading = false →
        (left.1.elapse left.2 ms).1.table.get? key = some entry) ∧
      ∀ (m' : Memory) now,
        m'.sweep now = (m'.lapsedKeys now).foldl (fun m key => (m.discard now key).2) m' ∧
          ∀ key other entry, m'.table.get? other = some entry → entry.expired now = false →
            (m'.discard now key).2.table.get? other = some entry := by
  intro found left
  obtain ⟨staysBefore, staysAfter⟩ := List.forall_mem_append.mp stays
  -- the deadline is near at the instant when the entry is found, whatever the run was before it
  have watched : Watched interval found :=
    Watched.turns ⟨_, started, documented, rfl, Sweeper.timely_start documented interval clock.uptime⟩
      staysBefore
  refine ⟨?_, ?_, ?_⟩
  · intro key entry there lapsed unwritten up
    have leaving : Leaving key _ found := watched.leaving fun entry' there' => by
      rw [there] at there'
      cases there'
      exact lapsed
    exact (leaving.turns staysAfter (NeverBack.after (s := (m, clock)) forward) unwritten).gone up
  · intro ms key entry there unexpired
    exact elapse_keeps there unexpired
  · intro m' now
    refine ⟨m'.sweep_eq_foldl_discard now, ?_⟩
    intro key other entry there unexpired
    rw [get?_discard, there, Entry.unlapsed, Option.filter_some, unexpired]
    split <;> rfl

/-- A sweep every 2.5 ms, which makes three whole ones. A step of 20 ms leaps over eight deadlines, so that a
new rhythm starts there. An entry is stored at that instant that has lapsed before. It is still there 2 ms
later, and gone 3 ms later. -/
theorem swept_within_period_of_late_sweep :
    let interval : Duration := ⟨2500000⟩
    let clock : Clock := ⟨100, 0⟩
    let m := make .delaying (.every interval) 0
    let old : Entry := .make "a".toUTF8 (some 110)
    let fresh : Entry := .make "b".toUTF8 (some 124)
    let before : List Turn := [.event false (.demand (.set "l" fresh)), .elapse 20,
      .event false (.demand (.set "k" old))]
    let after : List Turn := [.elapse 2, .event true (.demand (.set "k" fresh)), .elapse 1]
    let found := turns (m, clock) before
    let left := turns found after
    (Ticker.delaying.Documented ∧ m.sweeper = some (.start .delaying interval clock.uptime) ∧
        (∀ t ∈ before ++ after, t.closes = false) ∧ NeverBack clock (before ++ after) ∧
        found.1.table.get? "k" = some old ∧ old.expired found.2.reading = true ∧ Unwritten "k" found after ∧
        found.2.uptime + Sweeper.wholePeriod interval = left.2.uptime) ∧
      (turns found [.elapse 2]).1.table.get? "k" = some old ∧ left.1.table.get? "k" = none ∧
      (left.1.elapse left.2 0).1.table.get? "l" = some fresh := by
  intro interval clock m old fresh before after found left
  have stays : ∀ t ∈ before ++ after, t.closes = false := by decide
  have forward : NeverBack clock (before ++ after) := by
    refine ⟨?_, ?_, ?_, ?_, ?_, ?_, trivial⟩ <;> decide
  have there : found.1.table.get? "k" = some old := by decide +kernel
  have unwritten : Unwritten "k" found after := by
    refine ⟨?_, ?_, ?_, trivial⟩ <;> decide +kernel
  have up : found.2.uptime + Sweeper.wholePeriod interval = left.2.uptime := by decide
  have documented := Ticker.delaying_documented
  have started : m.sweeper = some (.start .delaying interval clock.uptime) := rfl
  obtain ⟨gone, kept, -⟩ := swept_within_period documented interval started stays forward
  have other : left.1.table.get? "l" = some fresh := by decide +kernel
  refine ⟨⟨documented, started, stays, forward, there, by decide, unwritten, up⟩, by decide +kernel, ?_, ?_⟩
  · exact gone "k" old there (by decide) unwritten (Nat.le_of_eq up)
  · exact kept 0 "l" fresh other (by decide)

end Memory

end Admission

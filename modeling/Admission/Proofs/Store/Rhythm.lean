/-
# Admission.Proofs.Store.Rhythm — sweeping every so many requests

A store may be told to sweep every so many requests. It counts the readings and writings whose callers
still wait, and nothing else; a request sweeps if as many were counted before it as make up a multiple of
that number, but the very first one does not.

So it does not matter where one begins to look. Among as many requests in a row as make up the number, one
sweeps and no other (`sweepings_block`), which is a matter of quotients: every request that sweeps is one
where the quotient of the count grows. Whatever has lapsed when one begins to look is found by that request
at the latest, and is gone at the end, unless it was written anew (`leaves_swept`). The requests that do not
sweep leave all keys but their own as they are (`get?_happen`).
-/
import Admission.Proofs.Store.Plain

namespace Admission

namespace Memory

variable {m : Memory} {n : Nat} {key : String} {moment : Moment} {e : Event}
  {happening : Moment × Event} {block : Course Event}

/-! ## What is counted, and what sweeps -/

/-- The events that are requests. -/
def Event.requests : Event → Bool
  | .demand (.get _) => true
  | .demand (.set _ _) => true
  | .demand (.swap _ _ _) => true
  | _ => false

/-- Whether a request is counted: its caller has not given up. -/
def counts (happening : Moment × Event) : Bool := !happening.1.cancelled && happening.2.requests

/-- Whether a request that comes next would be counted, and sweep. -/
def sweeps (m : Memory) (happening : Moment × Event) : Bool := counts happening && m.sweepsNext

/-- How many of the requests of a course sweep. -/
def sweepings : Memory → Course Event → Nat
  | _, [] => 0
  | m, (moment, e) :: rest =>
    (if m.sweeps (moment, e) then 1 else 0) + sweepings (m.happen moment e).2 rest

/-- The key whose entry was written, by an event and what was replied to it. -/
def written? : Event → Except Failure Reply → Option String
  | .demand (.set key _), .ok _ => some key
  | .demand (.swap key _ _), .ok (.swapped true) => some key
  | _, _ => none

/-! ## One request -/

/-- What is counted was asked of the store. -/
theorem exists_demand_of_counts (counted : counts (moment, e) = true) : ∃ d, e = .demand d := by
  rw [counts, Bool.and_eq_true] at counted
  cases e with
  | demand d => exact ⟨d, rfl⟩
  | _ => cases counted.2

/-- What is counted sweeps if it is its turn. -/
theorem sweeps_of_counts (counted : counts happening = true) : m.sweeps happening = m.sweepsNext := by
  rw [sweeps, counted, Bool.true_and]

theorem get?_sweep (m : Memory) (now : Nat) (key : String) :
    (m.sweep now).table.get? key = Entry.unlapsed now (m.table.get? key) := by
  rw [sweep_eq]
  exact Table.get?_select _ _ key

/-- Counting a request sweeps if it is its turn. -/
theorem get?_count (m : Memory) (now : Nat) (key : String) :
    (m.count now).table.get? key =
      if m.sweepsNext then Entry.unlapsed now (m.table.get? key) else m.table.get? key := by
  have table : (m.count now).table = if m.sweepsNext then (m.sweep now).table else m.table := by
    unfold count
    cases m.policy <;> cases m.sweepsNext <;> rfl
  rw [table, ← get?_sweep]
  split <;> rfl

/-- Counting a request counts it. -/
theorem counted_count (policy : m.policy = .requests n) (now : Nat) :
    (m.count now).policy = .requests n ∧ (m.count now).counted = (m.counted + 1) % (Word.last + 1) := by
  unfold count
  rw [policy, sweep_table]
  cases m.sweepsNext <;> exact ⟨policy, rfl⟩

/-- A row that is removed leaves the others as they are. -/
theorem get?_erase_or {t : Table Entry} (other : String) :
    (t.erase key).get? other = t.get? other ∨
      (other = key ∧ (t.erase key).get? other = none) := by
  rw [Table.get?_erase]
  by_cases own : other = key
  · exact .inr ⟨own, if_pos own⟩
  · exact .inl (if_neg own)

/-- A row that is written leaves the others as they are. -/
theorem get?_insert_or {t : Table Entry} {entry : Entry} (other : String) :
    (t.insert key entry).get? other = t.get? other ∨ other = key := by
  rw [Table.get?_insert]
  by_cases own : other = key
  · exact .inr own
  · exact .inl (if_neg own)

/-- **A request that is counted** is counted first. After that it leaves every entry as it is, but for the
one of its own key, which it may remove or write. -/
theorem perform_counted {d : Demand} (counted : counts (moment, .demand d) = true) : ∃ table,
    (m.perform moment d).2 = { m.count moment.now with table := table } ∧
      ∀ key, table.get? key = (m.count moment.now).table.get? key ∨
        (key = d.key ∧
          (table.get? key = none ∨ written? (.demand d) (m.perform moment d).1 = some key)) := by
  obtain ⟨now, cancelled⟩ := moment
  cases cancelled with
  | true => cases counted
  | false =>
    cases d with
    | get key =>
      rw [perform_get]
      simp only [get]
      split
      · exact ⟨(m.count now).table, rfl, fun other => .inl rfl⟩
      · split
        · refine ⟨_, rfl, fun other => ?_⟩
          exact (get?_erase_or other).imp_right (And.imp_right .inl)
        · exact ⟨(m.count now).table, rfl, fun other => .inl rfl⟩
    | set key entry =>
      refine ⟨_, rfl, fun other => ?_⟩
      exact (get?_insert_or other).imp_right fun own => ⟨own, .inr (congrArg some own.symm)⟩
    | delete key => cases counted
    | swap key expected entry =>
      rw [perform_swap, ← swap_fst m now key expected entry]
      simp only [swap]
      split
      · refine ⟨_, rfl, fun other => ?_⟩
        exact (get?_insert_or other).imp_right fun own => ⟨own, .inr (congrArg some own.symm)⟩
      · exact ⟨(m.count now).table, rfl, fun other => .inl rfl⟩

/-! ## Everything that happens -/

/-- What is swept was there before, or is gone. -/
theorem get?_sweep_or (m : Memory) (now : Nat) (key : String) :
    (m.sweep now).table.get? key = m.table.get? key ∨ (m.sweep now).table.get? key = none := by
  rw [get?_sweep]
  cases m.table.get? key with
  | none => exact .inl rfl
  | some entry => cases lapsed : entry.expired now <;> simp [Entry.unlapsed, Option.filter, lapsed]

/-- **What is not counted** does not touch the count. It may remove entries, but it writes none. -/
theorem happen_uncounted (uncounted : counts (moment, e) = false) : ∃ table sweeper,
    (m.happen moment e).2 = { m with table := table, sweeper := sweeper } ∧
      ∀ key, table.get? key = m.table.get? key ∨ table.get? key = none := by
  have same : ∀ key, m.table.get? key = m.table.get? key ∨ m.table.get? key = none := fun _ => .inl rfl
  cases e with
  | demand d =>
    obtain ⟨now, cancelled⟩ := moment
    cases cancelled with
    | true =>
      show ∃ table sweeper, (m.perform ⟨now, true⟩ d).2 = _ ∧ _
      rw [perform_cancelled]
      exact ⟨m.table, m.sweeper, rfl, same⟩
    | false =>
      cases d with
      | get => cases uncounted
      | set => cases uncounted
      | swap => cases uncounted
      | delete key =>
        exact ⟨m.table.erase key, m.sweeper, rfl, fun other => (get?_erase_or other).imp_right And.right⟩
  | clear => exact ⟨.empty, m.sweeper, rfl, fun _ => .inr rfl⟩
  | collect => exact ⟨_, _, m.sweep_table moment.now, m.get?_sweep_or moment.now⟩
  | sweep => exact ⟨_, _, m.sweep_table moment.now, m.get?_sweep_or moment.now⟩
  | close => exact ⟨m.table, none, rfl, same⟩

/-- The policy stays, and the count goes up with the requests that are counted. -/
theorem counted_happen (policy : m.policy = .requests n) (moment : Moment) (e : Event) :
    (m.happen moment e).2.policy = .requests n ∧
      (m.happen moment e).2.counted =
        if counts (moment, e) then (m.counted + 1) % (Word.last + 1) else m.counted := by
  cases counted : counts (moment, e) with
  | false =>
    obtain ⟨table, sweeper, after, -⟩ := @happen_uncounted m moment e counted
    rw [after]
    exact ⟨policy, rfl⟩
  | true =>
    obtain ⟨d, rfl⟩ := exists_demand_of_counts counted
    obtain ⟨table, after, -⟩ := @perform_counted m moment d counted
    show (m.perform moment d).2.policy = _ ∧ (m.perform moment d).2.counted = _
    rw [after]
    exact counted_count policy moment.now

/-- **What is not written** is as it was, or gone; and what has lapsed is gone after a request that
sweeps. -/
theorem happen_unwritten (unwritten : written? e (m.happen moment e).1 ≠ some key) :
    (m.happen moment e).2.table.get? key = none ∨
      (m.happen moment e).2.table.get? key =
        if m.sweeps (moment, e) then Entry.unlapsed moment.now (m.table.get? key)
        else m.table.get? key := by
  cases counted : counts (moment, e) with
  | false =>
    obtain ⟨table, sweeper, after, rows⟩ := @happen_uncounted m moment e counted
    have still : m.sweeps (moment, e) = false := by rw [sweeps, counted, Bool.false_and]
    rw [after, still]
    exact (rows key).symm
  | true =>
    obtain ⟨d, rfl⟩ := exists_demand_of_counts counted
    obtain ⟨table, after, rows⟩ := @perform_counted m moment d counted
    show (m.perform moment d).2.table.get? key = none ∨ (m.perform moment d).2.table.get? key = _
    rw [after, sweeps_of_counts counted, ← get?_count]
    rcases rows key with kept | ⟨-, gone | written⟩
    · exact .inr kept
    · exact .inl gone
    · exact absurd written unwritten

/-- **A request leaves the entries of other keys** as they are, unless it sweeps: then it removes those
that have lapsed. -/
theorem get?_happen {d : Demand} (counted : counts (moment, .demand d) = true) (other : key ≠ d.key) :
    (m.happen moment (.demand d)).2.table.get? key =
      if m.sweeps (moment, .demand d) then Entry.unlapsed moment.now (m.table.get? key)
      else m.table.get? key := by
  obtain ⟨table, after, rows⟩ := @perform_counted m moment d counted
  show (m.perform moment d).2.table.get? key = _
  rw [after, sweeps_of_counts counted, ← get?_count]
  exact (rows key).resolve_right fun own => other own.1

/-! ## Blocks of requests -/

/-- The count after a course, as long as it does not start over. -/
theorem counted_leaves (policy : m.policy = .requests n)
    (few : m.counted + block.countP counts ≤ Word.last) :
    (block.leaves happen m).policy = .requests n ∧
      (block.leaves happen m).counted = m.counted + block.countP counts := by
  induction block generalizing m with
  | nil => exact ⟨policy, rfl⟩
  | cons happening rest ih =>
    obtain ⟨moment, e⟩ := happening
    obtain ⟨policy', counted⟩ := counted_happen policy moment e
    show (Course.leaves happen (m.happen moment e).2 rest).policy = _ ∧
      (Course.leaves happen (m.happen moment e).2 rest).counted = _
    cases counts_e : counts (moment, e) with
    | false =>
      rw [List.countP_cons_of_neg (by simp [counts_e])] at few ⊢
      rw [counts_e, if_neg Bool.false_ne_true] at counted
      rw [← counted] at few ⊢
      exact ih policy' few
    | true =>
      rw [List.countP_cons_of_pos counts_e] at few ⊢
      rw [counts_e, if_pos rfl, Nat.mod_eq_of_lt (by omega)] at counted
      obtain ⟨policy'', sum⟩ := ih policy' (by omega)
      exact ⟨policy'', by omega⟩

/-- Whether it is the turn of the next request, by the count of those before it. -/
theorem sweepsNext_eq {c : Nat} (policy : m.policy = .requests n) (counted : m.counted = c + 1) :
    m.sweepsNext = decide (max n 1 ∣ c + 1) := by
  simp only [sweepsNext, policy, counted, Nat.dvd_iff_mod_eq_zero, Nat.zero_lt_succ, decide_true,
    Bool.true_and]

/-- **The sweeps of a course**: as many as the quotient of the count grows by. -/
theorem sweepings_add {c : Nat} (policy : m.policy = .requests n) (counted : m.counted = c + 1)
    (few : c + 1 + block.countP counts ≤ Word.last) :
    m.sweepings block + c / max n 1 = (c + block.countP counts) / max n 1 := by
  induction block generalizing m c with
  | nil => rw [sweepings, Nat.zero_add]; rfl
  | cons happening rest ih =>
    obtain ⟨moment, e⟩ := happening
    obtain ⟨policy', count⟩ := counted_happen policy moment e
    rw [sweepings, sweeps]
    cases counts_e : counts (moment, e) with
    | false =>
      rw [List.countP_cons_of_neg (by simp [counts_e])] at few ⊢
      rw [counts_e, if_neg Bool.false_ne_true] at count
      rw [Bool.false_and, if_neg Bool.false_ne_true, Nat.zero_add]
      exact ih policy' (count.trans counted) few
    | true =>
      rw [List.countP_cons_of_pos counts_e] at few ⊢
      rw [counts_e, if_pos rfl, counted, Nat.mod_eq_of_lt (by omega)] at count
      have grows := Nat.succ_div (a := c) (b := max n 1)
      have rest_sweeps := ih policy' count (by omega)
      rw [Bool.true_and, sweepsNext_eq policy counted, Nat.add_comm (List.countP _ _) 1, ← Nat.add_assoc,
        ← rest_sweeps, grows]
      by_cases turn : max n 1 ∣ c + 1
      · rw [decide_eq_true turn, if_pos turn, if_pos rfl]
        omega
      · rw [decide_eq_false turn, if_neg turn, if_neg Bool.false_ne_true]
        omega

/-- As many requests as make up the number, and not the very first, have **one sweep** among them. -/
theorem sweepings_block {c : Nat} (policy : m.policy = .requests n) (counted : m.counted = c + 1)
    (whole : block.countP counts = max n 1)
    (few : c + 1 + block.countP counts ≤ Word.last) : m.sweepings block = 1 := by
  have sweeps := sweepings_add policy counted few
  have quotient : (c + max n 1) / max n 1 = c / max n 1 + 1 := Nat.add_div_right c (by omega)
  rw [whole, quotient] at sweeps
  omega

/-- **What has lapsed is swept**: if there is a sweep in a course, an entry that had lapsed before is gone
after it, unless it was written in the meantime. What is gone already stays so. -/
theorem leaves_swept
    (going : m.table.get? key = none ∨
      0 < m.sweepings block ∧
        ∀ entry ∈ m.table.get? key, ∀ happening ∈ block, entry.expired happening.1.now = true)
    (unwritten : ∀ replied ∈ block.zip (block.replies happen m),
      written? replied.1.2 replied.2 ≠ some key) :
    (block.leaves happen m).table.get? key = none := by
  induction block generalizing m with
  | nil =>
    rcases going with gone | ⟨sweeps, -⟩
    · exact gone
    · exact absurd sweeps (Nat.lt_irrefl 0)
  | cons happening rest ih =>
    obtain ⟨moment, e⟩ := happening
    obtain ⟨first, unwritten⟩ := List.forall_mem_cons.mp unwritten
    refine ih ?_ unwritten
    rcases happen_unwritten first with gone | after
    · exact .inl gone
    · rw [after]
      rcases going with gone | ⟨sweeps, lapsed⟩
      · left
        rw [gone]
        split <;> rfl
      · cases turn : m.sweeps (moment, e) with
        | true =>
          -- this is the request that sweeps, and the entry has lapsed by now
          left
          rw [if_pos rfl, Entry.unlapsed, Option.filter_eq_none_iff]
          intro entry there
          simp [lapsed entry there (moment, e) List.mem_cons_self]
        | false =>
          right
          rw [sweepings, turn, if_neg Bool.false_ne_true, Nat.zero_add] at sweeps
          rw [if_neg Bool.false_ne_true]
          exact ⟨sweeps, fun entry there h mem => lapsed entry there h (List.mem_cons_of_mem _ mem)⟩

/-- **A store that sweeps every so many requests**, in any course with fewer requests than the counter can
hold. Wherever one begins to look, but for the very first request, as many requests as make up the number
have exactly one among them that sweeps. Hence an entry that is there and has lapsed when one begins to look
is gone at the end, unless it was written in the meantime. A request that sweeps removes what has lapsed, and
no other request removes an entry but that of its own key. -/
theorem sweeps_once_in_every_block (ticker : Ticker) (n uptime : Nat) {course : Course Event}
    (ordered : course.Chronological) (few : course.countP counts ≤ Word.last) :
    let start := make ticker (.requests n) uptime
    (∀ before block after : Course Event, course = before ++ (block ++ after) →
        0 < before.countP counts → block.countP counts = max n 1 →
        let found := before.leaves happen start
        found.sweepings block = 1 ∧
          ∀ first ∈ block.head?, ∀ key entry,
            found.table.get? key = some entry → entry.expired first.1.now = true →
            (∀ replied ∈ block.zip (block.replies happen found),
              written? replied.1.2 replied.2 ≠ some key) →
            (block.leaves happen found).table.get? key = none) ∧
      ∀ (m : Memory) moment d, counts (moment, .demand d) = true → ∀ key ≠ d.key,
        (m.happen moment (.demand d)).2.table.get? key =
          if m.sweeps (moment, .demand d) then Entry.unlapsed moment.now (m.table.get? key)
          else m.table.get? key := by
  intro start
  refine ⟨?_, fun m moment d counted key other => get?_happen counted other⟩
  intro before block after split later whole found
  have sum : course.countP counts = before.countP counts + (block.countP counts + after.countP counts) := by
    rw [split, List.countP_append, List.countP_append]
  have empty : start.counted = 0 := rfl
  have told : start.policy = .requests n := rfl
  have few' : start.counted + before.countP counts ≤ Word.last := by omega
  obtain ⟨policy, counted⟩ := counted_leaves told few'
  obtain ⟨c, hc⟩ := Nat.exists_eq_succ_of_ne_zero (Nat.ne_of_gt later)
  have one : found.sweepings block = 1 := by
    refine sweepings_block (c := c) policy ?_ whole (by omega)
    rw [counted, empty, Nat.zero_add, hc]
  refine ⟨one, fun first head key entry there lapsed unwritten => ?_⟩
  refine leaves_swept (.inr ⟨by omega, ?_⟩) unwritten
  have chronological : block.Chronological := by
    rw [split] at ordered
    exact (List.pairwise_append.mp (List.pairwise_append.mp ordered).2.1).1
  -- the clock does not go back within the block, so the entry stays lapsed
  intro entry' there' happening mem
  rw [there] at there'
  cases there'
  exact Entry.expired_mono lapsed (chronological.head_le head happening mem)

/-- Every other request sweeps. The entry of 1 has lapsed at 6, where a block begins with a request that does
not sweep; one whose caller has given up and a removal come in between, and the next request that is counted
sweeps. -/
theorem sweeps_once_in_every_block_of_two :
    let old : Entry := .make "a".toUTF8 (some 5)
    let stamp (now : Nat) (cancelled : Bool) (d : Demand) : Moment × Event := (⟨now, cancelled⟩, .demand d)
    let before : Course Event := [stamp 1 false (.set "old" old)]
    let block : Course Event :=
      [stamp 6 false (.get "k"), stamp 6 true (.get "old"), stamp 7 false (.delete "k"),
        stamp 8 false (.set "k" (.persistent "b".toUTF8))]
    let course : Course Event := before ++ (block ++ [stamp 9 false (.get "k")])
    let found := before.leaves happen (make .delaying (.requests 2) 0)
    (course.Chronological ∧ course.countP counts ≤ Word.last ∧ 0 < before.countP counts ∧
        block.countP counts = max 2 1 ∧ found.table.get? "old" = some old ∧ old.expired 6 = true) ∧
      found.sweepings block = 1 ∧ (block.leaves happen found).table.get? "old" = none ∧
      (found.happen ⟨6, false⟩ (.demand (.get "k"))).2.table.get? "old" = some old := by
  intro old stamp before block course found
  have ordered : course.Chronological := by
    show List.Pairwise _ _
    decide
  have few : course.countP counts ≤ Word.last := by decide
  have there : found.table.get? "old" = some old := by decide +kernel
  have unwritten : ∀ replied ∈ block.zip (block.replies happen found),
      written? replied.1.2 replied.2 ≠ some "old" := by decide +kernel
  obtain ⟨blocks, others⟩ := sweeps_once_in_every_block .delaying 2 0 ordered few
  obtain ⟨one, gone⟩ := blocks before block _ rfl (by decide) (by decide)
  have quiet := others found ⟨6, false⟩ (.get "k") rfl "old" (by decide)
  have turn : found.sweeps (⟨6, false⟩, .demand (.get "k")) = false := by decide +kernel
  rw [turn, if_neg Bool.false_ne_true, there] at quiet
  exact ⟨⟨ordered, few, by decide, by decide, there, by decide⟩, one,
    gone _ rfl "old" old there (by decide) unwritten, quiet⟩

end Memory

end Admission

/-
# Admission.Proofs.Store.Sweep — what a sweep removes, and how much

A sweep picks the keys whose entries have lapsed, and then looks at each of them once more before it
removes its entry. What that comes to is said here, and nothing after this module follows a sweep from key
to key again. The table has lost the entries that have lapsed, and no other (`Memory.sweep_eq`). No key
occurs twice, so every removal that is counted takes one row; hence the table has lost as many rows as the
sweep reports (`Memory.collect_size`).
-/
import Admission.Store.Memory

namespace Admission

/-! ## Rows -/

namespace Table

variable {α : Type} {t : Table α} {key : String} {value : α}

/-- A key that is there has one row. -/
theorem rows_of_get? (there : t.get? key = some value) : ∃ before after,
    t.rows = before ++ (key, value) :: after ∧ (∀ row ∈ before, row.1 ≠ key) ∧
      ∀ row ∈ after, row.1 ≠ key := by
  obtain ⟨before, after, rows, first⟩ := List.lookup_eq_some_iff.mp there
  have distinct := t.distinct
  rw [rows, List.map_append, List.map_cons, List.nodup_append] at distinct
  refine ⟨before, after, rows, fun row mem own => ?_, fun row mem own => ?_⟩
  · have other := first row mem
    simp [own] at other
  · exact (List.nodup_cons.mp distinct.2.1).1 (List.mem_map.mpr ⟨row, mem, own⟩)

/-- A row is found under its key. -/
theorem get?_of_mem (there : (key, value) ∈ t.rows) : t.get? key = some value := by
  obtain ⟨before, after, rows⟩ := List.append_of_mem there
  have distinct := t.distinct
  rw [rows, List.map_append, List.map_cons, List.nodup_append] at distinct
  refine List.lookup_eq_some_iff.mpr ⟨before, after, rows, fun row mem => ?_⟩
  have other := distinct.2.2 row.1 (List.mem_map_of_mem mem) key List.mem_cons_self
  simpa using other.symm

/-- Rows that are kept in two goes. -/
theorem select_select (t : Table α) (keep keep' : String → α → Bool) :
    (t.select keep).select keep' = t.select fun k v => keep k v && keep' k v := by
  simp only [select, List.filter_filter, Bool.and_comm]

/-- Only the rows that are there matter. -/
theorem select_congr {keep keep' : String → α → Bool}
    (same : ∀ row ∈ t.rows, keep row.1 row.2 = keep' row.1 row.2) : t.select keep = t.select keep' := by
  simp only [select, mk.injEq]
  exact List.filter_congr same

/-- If all rows are kept, the table is the same. -/
theorem select_eq_self {keep : String → α → Bool} (all : ∀ row ∈ t.rows, keep row.1 row.2 = true) :
    t.select keep = t := by
  obtain ⟨rows, distinct⟩ := t
  simp only [select, mk.injEq]
  exact List.filter_eq_self.mpr all

/-- Erasing a key that is there takes one row. -/
theorem size_erase (there : t.get? key = some value) : (t.erase key).size + 1 = t.size := by
  obtain ⟨before, after, rows, earlier, later⟩ := rows_of_get? there
  have kept : (t.erase key).rows = before ++ after := by
    simp only [erase, select, rows, List.filter_append, List.filter_cons]
    rw [List.filter_eq_self.mpr fun row mem => decide_eq_true (earlier row mem),
      List.filter_eq_self.mpr fun row mem => decide_eq_true (later row mem)]
    simp
  simp only [size, kept, rows, List.length_append, List.length_cons]
  omega

end Table

namespace Memory

/-! ## One key -/

/-- Discarding a key removes its entry if it has lapsed, and nothing else. -/
theorem discard_snd (m : Memory) (now : Nat) (key : String) :
    (m.discard now key).2 =
      { m with table := m.table.select fun k e => !(k = key && e.expired now) } := by
  rw [discard]
  split
  · next lapsed =>
    obtain ⟨e, there, expired⟩ := (Option.any_eq_true _ _).mp lapsed
    refine congrArg (fun table => { m with table := table }) (Table.select_congr fun row mem => ?_)
    by_cases own : row.1 = key
    · have same : m.table.get? key = some row.2 := Table.get?_of_mem (own ▸ mem)
      rw [there] at same
      cases same
      simp [own, expired]
    · simp [own]
  · next stays =>
    have same : (m.table.select fun k e => !(k = key && e.expired now)) = m.table := by
      refine Table.select_eq_self fun row mem => ?_
      by_cases own : row.1 = key
      · have there : m.table.get? key = some row.2 := Table.get?_of_mem (own ▸ mem)
        rw [there] at stays
        simpa [own] using stays
      · simp [own]
    rw [same]

/-- If it is counted, one row is gone. -/
theorem weed_size (now : Nat) (swept : Nat × Memory) (key : String) :
    (weed now swept key).1 + (weed now swept key).2.size = swept.1 + swept.2.size := by
  by_cases lapsed : (swept.2.table.get? key).any (·.expired now)
  · obtain ⟨e, there, -⟩ := (Option.any_eq_true _ _).mp lapsed
    have size := Table.size_erase there
    rw [weed, discard, if_pos lapsed]
    show swept.1 + 1 + (swept.2.table.erase key).size = swept.1 + swept.2.table.size
    omega
  · rw [weed, discard, if_neg lapsed]
    rfl

/-! ## One key after the other -/

/-- After so many keys, what has lapsed under one of them is gone. -/
theorem foldl_weed_snd (now : Nat) (keys : List String) (swept : Nat × Memory) :
    (keys.foldl (weed now) swept).2 =
      { swept.2 with
        table := swept.2.table.select fun k e => !(keys.contains k && e.expired now) } := by
  induction keys generalizing swept with
  | nil =>
    rw [Table.select_eq_self fun row mem => by simp]
    rfl
  | cons key rest ih =>
    rw [List.foldl_cons, ih, weed, discard_snd, Table.select_select]
    refine congrArg (fun table => { swept.2 with table := table }) (Table.select_congr fun row _ => ?_)
    simp only [List.contains_cons]
    cases row.2.expired now <;> by_cases own : row.1 = key <;> simp [own]

/-- What was counted and what is left is all that was there. -/
theorem foldl_weed_size (now : Nat) (keys : List String) (swept : Nat × Memory) :
    (keys.foldl (weed now) swept).1 + (keys.foldl (weed now) swept).2.size =
      swept.1 + swept.2.size := by
  induction keys generalizing swept with
  | nil => rfl
  | cons key rest ih => rw [List.foldl_cons, ih, weed_size]

/-! ## A sweep -/

/-- **A sweep keeps what has not lapsed**, and nothing else. -/
theorem sweep_eq (m : Memory) (now : Nat) :
    m.sweep now = { m with table := m.table.select fun _ e => !e.expired now } := by
  rw [sweep, collect, foldl_weed_snd]
  refine congrArg (fun table => { m with table := table }) (Table.select_congr fun row there => ?_)
  cases lapsed : row.2.expired now with
  | false => simp
  | true =>
    have picked : row.1 ∈ m.lapsedKeys now :=
      List.mem_map.mpr ⟨row, List.mem_filter.mpr ⟨there, lapsed⟩, rfl⟩
    simp [picked]

/-- A sweep changes nothing but the table. -/
theorem sweep_table (m : Memory) (now : Nat) : m.sweep now = { m with table := (m.sweep now).table } := by
  rw [sweep_eq]

/-- **A sweep takes as many entries as it reports.** -/
theorem collect_size (m : Memory) (now : Nat) :
    (m.collect now).1 + (m.collect now).2.size = m.size := by
  rw [collect, foldl_weed_size]
  exact Nat.zero_add _

end Memory

end Admission

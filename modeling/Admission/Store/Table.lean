/-
# Admission.Store.Table — a finite map with text keys

A table is a list of rows in which no key occurs twice. `get?` is the view that everything else is
stated in: each operation has one lemma that says what it does to `get?`, and `size` counts the keys
that `get?` knows.
-/

namespace Admission

/-- A finite map with text keys. -/
structure Table (α : Type) where
  /-- The keys and their values. -/
  rows : List (String × α)
  /-- No key occurs twice. -/
  distinct : (rows.map Prod.fst).Nodup

namespace Table

variable {α : Type}

/-- The table without rows. -/
def empty : Table α := ⟨[], List.nodup_nil⟩

/-- The value of a key. -/
def get? (t : Table α) (key : String) : Option α := t.rows.lookup key

/-- The number of keys. -/
def size (t : Table α) : Nat := t.rows.length

/-- The rows whose key and value satisfy `keep`. -/
def select (t : Table α) (keep : String → α → Bool) : Table α where
  rows := t.rows.filter fun row => keep row.1 row.2
  distinct := t.distinct.sublist (List.filter_sublist.map _)

/-- The table without a key. -/
def erase (t : Table α) (key : String) : Table α := t.select fun k _ => k ≠ key

theorem not_mem_erase (t : Table α) (key : String) : key ∉ (t.erase key).rows.map Prod.fst := by
  simp [erase, select]

/-- The table with a value under a key, in place of the one it may have had. -/
def insert (t : Table α) (key : String) (value : α) : Table α where
  rows := (key, value) :: (t.erase key).rows
  distinct := List.nodup_cons.mpr ⟨t.not_mem_erase key, (t.erase key).distinct⟩

/-! ## What the operations do to `get?` -/

@[simp]
theorem get?_empty (key : String) : (empty : Table α).get? key = none := rfl

/-- A key's value is kept exactly if it satisfies the condition. -/
theorem get?_select (t : Table α) (keep : String → α → Bool) (key : String) :
    (t.select keep).get? key = (t.get? key).filter (keep key) := by
  obtain ⟨rows, distinct⟩ := t
  simp only [select, get?]
  induction rows with
  | nil => rfl
  | cons row rest ih =>
    obtain ⟨k, v⟩ := row
    simp only [List.map_cons, List.nodup_cons] at distinct
    obtain ⟨hnot, hrest⟩ := distinct
    by_cases hk : key = k
    · subst hk
      have hnone : rest.lookup key = none := by
        rw [List.lookup_eq_none_iff]
        intro p hp
        simp only [ne_eq, bne_iff_ne]
        intro he
        exact hnot (List.mem_map.mpr ⟨p, hp, he.symm⟩)
      by_cases hv : keep key v
      · simp [Option.filter, hv]
      · simp [Option.filter, hv, ih hrest, hnone]
    · have hne : (key == k) = false := by simpa using hk
      by_cases hv : keep k v
      · simp [List.lookup_cons, hv, hne, ih hrest]
      · simp [List.lookup_cons, hv, hne, ih hrest]

theorem get?_erase (t : Table α) (key other : String) :
    (t.erase key).get? other = if other = key then none else t.get? other := by
  rw [erase, get?_select]
  by_cases h : other = key
  · cases hv : t.get? other <;> simp [h, Option.filter]
  · cases hv : t.get? other <;> simp [h, Option.filter]

theorem get?_insert (t : Table α) (key other : String) (value : α) :
    (t.insert key value).get? other = if other = key then some value else t.get? other := by
  by_cases h : other = key
  · subst h
    simp [insert, get?]
  · have hne : (other == key) = false := by simpa using h
    have herase := get?_erase t key other
    simp only [get?, h, if_false] at herase
    simp only [insert, get?, List.lookup_cons, hne, h, if_false, herase]

end Table

end Admission

/-
# Admission.Proofs.Store.Present — the entries that have not lapsed

A lapsed entry counts as absent, whether or not it is still in the table. So what a store holds *at an
instant* is its table without the lapsed entries: `Memory.present`. Every operation of the store is
characterised by what it returns and by what it does to `present` at its own instant and at every
later one. In these terms sweeping, counting requests and reading do nothing at all.

The instants matter: before the instant of an operation nothing is said, since a sweep may have
removed what an earlier reader would still have seen.
-/
import Admission.Proofs.Store.Sweep
import Mathlib.Logic.Function.Basic

namespace Admission

namespace Entry

/-- An entry, unless it has lapsed. -/
def unlapsed (now : Nat) (e : Option Entry) : Option Entry := e.filter fun e => !e.expired now

/-- What has lapsed stays lapsed. -/
theorem unlapsed_unlapsed {t u : Nat} (h : t ≤ u) (e : Option Entry) :
    unlapsed u (unlapsed t e) = unlapsed u e := by
  cases e with
  | none => rfl
  | some e =>
    cases ht : e.expired t with
    | false => simp [unlapsed, Option.filter, ht]
    | true => simp [unlapsed, Option.filter, ht, expired_mono ht h]

/-- A reader sees the value of an entry that has not lapsed. -/
theorem bind_live? (now : Nat) (e : Option Entry) :
    e.bind (·.live? now) = (unlapsed now e).map Entry.value := by
  cases e with
  | none => rfl
  | some e => cases h : e.expired now <;> simp [unlapsed, Option.filter, live?, h]

end Entry

namespace Memory

/-- The entry under a key, unless it has lapsed. -/
def present (m : Memory) (now : Nat) (key : String) : Option Entry :=
  Entry.unlapsed now (m.table.get? key)

/-- The value that a reader finds under a key. -/
def live (m : Memory) (now : Nat) (key : String) : Option ByteArray :=
  (m.present now key).map Entry.value

/-- What is present later is what is present now and does not lapse in between. -/
theorem present_later (m : Memory) {t u : Nat} (h : t ≤ u) (key : String) :
    m.present u key = Entry.unlapsed u (m.present t key) :=
  (Entry.unlapsed_unlapsed h _).symm

/-- A value that a reader finds now is found later too, or it has lapsed. -/
theorem live_later (m : Memory) {t u : Nat} (h : t ≤ u) (key : String) :
    m.live u key = m.live t key ∨ m.live u key = none := by
  rw [live, live, m.present_later h]
  cases m.present t key with
  | none => exact .inl rfl
  | some e => cases lapsed : e.expired u <;> simp [Entry.unlapsed, Option.filter, lapsed]

/-- A store holds what `f` says, up to what has lapsed. -/
def Holds (m : Memory) (now : Nat) (f : String → Option Entry) : Prop :=
  ∀ t, now ≤ t → ∀ key, m.present t key = Entry.unlapsed t (f key)

/-- Any store holds what its table says. -/
theorem holds_get? (m : Memory) (now : Nat) : m.Holds now m.table.get? := fun _ _ _ => rfl

/-- What is held is held later on. -/
theorem Holds.later {m : Memory} {now t : Nat} {f : String → Option Entry} (h : m.Holds now f)
    (le : now ≤ t) : m.Holds t f := fun u hu => h u (Nat.le_trans le hu)

/-- A reader finds what is held. -/
theorem Holds.live_eq {m : Memory} {now : Nat} {f : String → Option Entry} (h : m.Holds now f)
    (key : String) : m.live now key = (f key).bind (·.live? now) := by
  rw [live, h now (Nat.le_refl now), Entry.bind_live?]

/-- What leaves everything as it was changes nothing about what is held. -/
theorem Holds.kept {m m' : Memory} {now : Nat} {f : String → Option Entry} (h : m.Holds now f)
    (kept : ∀ t, now ≤ t → ∀ key, m'.present t key = m.present t key) : m'.Holds now f :=
  fun t ht key => (kept t ht key).trans (h t ht key)

/-- What is put under one key is held there. -/
theorem Holds.put {m m' : Memory} {now : Nat} {f : String → Option Entry} (h : m.Holds now f)
    {key : String} {e : Option Entry}
    (put : ∀ t, now ≤ t → ∀ other,
      m'.present t other = if other = key then Entry.unlapsed t e else m.present t other) :
    m'.Holds now (Function.update f key e) := by
  intro t ht other
  rw [put t ht, Function.update_apply]
  split
  · rfl
  · exact h t ht other

/-! ## Operations that nobody notices -/

theorem present_sweep (m : Memory) {now t : Nat} (h : now ≤ t) (key : String) :
    (m.sweep now).present t key = m.present t key := by
  rw [present, sweep_eq, Table.get?_select]
  exact Entry.unlapsed_unlapsed h _

theorem present_count (m : Memory) {now t : Nat} (h : now ≤ t) (key : String) :
    (m.count now).present t key = m.present t key := by
  have swept : (if m.sweepsNext then m.sweep now else m).present t key = m.present t key := by
    split
    · exact m.present_sweep h key
    · rfl
  rw [← swept]
  simp only [count]
  cases m.policy <;> rfl

/-! ## Reading -/

/-- **Reading** finds the live value. -/
theorem get_fst (m : Memory) (now : Nat) (key : String) : (m.get now key).1 = m.live now key := by
  rw [live, ← m.present_count (Nat.le_refl now)]
  simp only [get, present]
  cases h : (m.count now).table.get? key with
  | none => rfl
  | some e => cases he : e.expired now <;> simp [Entry.unlapsed, Option.filter, he]

/-- Reading leaves everything as it was. -/
theorem present_get (m : Memory) {now t : Nat} (h : now ≤ t) (key other : String) :
    (m.get now key).2.present t other = m.present t other := by
  rw [← m.present_count h]
  simp only [get]
  split
  · rfl
  · next e hk =>
    split
    · next lapsed =>
      -- the entry is removed, but it counted as absent before
      simp only [present, Table.get?_erase]
      by_cases hother : other = key
      · subst hother
        simp [hk, Entry.unlapsed, Option.filter, Entry.expired_mono lapsed h]
      · simp [hother]
    · rfl

/-! ## Writing -/

/-- **A conditional write** is accepted exactly if the live value is the expected one. -/
theorem swap_fst (m : Memory) (now : Nat) (key : String) (expected : Option ByteArray)
    (entry : Entry) : (m.swap now key expected entry).1 = decide (m.live now key = expected) := by
  rw [live, ← m.present_count (Nat.le_refl now)]
  simp only [swap, present, Entry.bind_live?]
  split <;> simp_all

/-- An accepted write puts its entry under its key, and leaves the other keys as they were. -/
theorem present_swap {m : Memory} {now : Nat} {key : String} {expected : Option ByteArray}
    (live : m.live now key = expected) (entry : Entry) {t : Nat} (h : now ≤ t) (other : String) :
    (m.swap now key expected entry).2.present t other =
      if other = key then Entry.unlapsed t (some entry) else m.present t other := by
  have accepted : ((m.count now).table.get? key).bind (·.live? now) = expected := by
    rw [Entry.bind_live?, ← live, Memory.live, ← m.present_count (Nat.le_refl now)]
    rfl
  rw [← m.present_count h]
  simp only [swap, accepted, if_true, present, Table.get?_insert]
  split <;> rfl

/-- A refused write leaves everything as it was. -/
theorem present_swap_refused {m : Memory} {now : Nat} {key : String}
    {expected : Option ByteArray} (live : m.live now key ≠ expected) (entry : Entry) {t : Nat}
    (h : now ≤ t) (other : String) :
    (m.swap now key expected entry).2.present t other = m.present t other := by
  have refused : ((m.count now).table.get? key).bind (·.live? now) ≠ expected := by
    rw [Entry.bind_live?]
    intro accepted
    apply live
    rw [← accepted, Memory.live, ← m.present_count (Nat.le_refl now)]
    rfl
  rw [← m.present_count h]
  simp only [swap, refused, if_false]

/-- Storing puts an entry under its key, and leaves the other keys as they were. -/
theorem present_set (m : Memory) {now t : Nat} (h : now ≤ t) (key other : String) (entry : Entry) :
    (m.set now key entry).present t other =
      if other = key then Entry.unlapsed t (some entry) else m.present t other := by
  rw [← m.present_count h]
  simp only [set, present, Table.get?_insert]
  split <;> rfl

/-- Deleting removes the entry of its key. -/
theorem present_delete (m : Memory) (t : Nat) (key other : String) :
    (m.delete key).present t other =
      if other = key then Entry.unlapsed t none else m.present t other := by
  simp only [delete, present, Table.get?_erase]
  split <;> rfl

end Memory

end Admission

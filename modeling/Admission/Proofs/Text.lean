/-
# Admission.Proofs.Text — white space and digits

Trimming leaves nothing exactly of a blank text (`trim_eq_nil_iff`), and leaves a text alone that begins
and ends with something to see (`trim_eq_self`). What it takes away is white space (`padded_trim`), and
all of it (`Padded.trim_eq`).

A number is written with digits and nothing else, with at least one of them (`isDigit_toString`,
`toString_ne_nil`), and they say which number it is (`ofDigitChars_toString`).
-/
import Admission.Text.Blank
import Mathlib.Data.List.TakeWhile

namespace Admission.Text

/-! ## White space -/

variable {cs : List Char}

theorem dropWhile_isBlank_eq_self (head : ∀ c ∈ cs.head?, isBlank c = false) :
    cs.dropWhile isBlank = cs := by
  cases cs with
  | nil => rfl
  | cons c cs => rw [List.dropWhile_cons_of_neg (by simp [head c rfl])]

/-- **A text that begins and ends with something to see** is left alone. -/
theorem trim_eq_self (head : ∀ c ∈ cs.head?, isBlank c = false)
    (last : ∀ c ∈ cs.getLast?, isBlank c = false) : trim cs = cs := by
  have back : ∀ c ∈ cs.reverse.head?, isBlank c = false := by
    rw [List.head?_reverse]
    exact last
  rw [trim, dropWhile_isBlank_eq_self head, dropWhile_isBlank_eq_self back, List.reverse_reverse]

/-- **Nothing is left** of a text exactly if all of it is white space. -/
theorem trim_eq_nil_iff : trim cs = [] ↔ ∀ c ∈ cs, isBlank c = true := by
  rw [trim, List.reverse_eq_nil_iff, List.dropWhile_eq_nil_iff]
  constructor
  · intro h c hc
    by_contra seen
    -- a character that is seen stops the dropping, and is not dropped from the other end
    have stays : c ∈ cs.dropWhile isBlank := by
      rw [← List.takeWhile_append_dropWhile (p := isBlank) (l := cs), List.mem_append] at hc
      exact hc.resolve_left fun front => seen (List.mem_takeWhile_imp front)
    exact seen (h c (List.mem_reverse.mpr stays))
  · intro h c hc
    exact h c ((List.dropWhile_sublist isBlank).subset (List.mem_reverse.mp hc))

/-- A text with white space around it, or without any. -/
def Padded (core cs : List Char) : Prop :=
  ∃ front back, cs = front ++ (core ++ back) ∧ (∀ c ∈ front, isBlank c = true) ∧
    ∀ c ∈ back, isBlank c = true

/-- **Trimming takes away white space** at the ends, and nothing else. -/
theorem padded_trim (cs : List Char) : Padded (trim cs) cs := by
  have front := List.takeWhile_append_dropWhile (p := isBlank) (l := cs)
  have back := List.takeWhile_append_dropWhile (p := isBlank) (l := (cs.dropWhile isBlank).reverse)
  refine ⟨cs.takeWhile isBlank, ((cs.dropWhile isBlank).reverse.takeWhile isBlank).reverse, ?_, ?_, ?_⟩
  · rw [trim, ← List.reverse_append, back, List.reverse_reverse, front]
  · intro c hc
    exact List.mem_takeWhile_imp hc
  · intro c hc
    exact List.mem_takeWhile_imp (List.mem_reverse.mp hc)

/-- **It takes away all of it**: what is left is what begins and ends with something to see. -/
theorem Padded.trim_eq {core : List Char} (padded : Padded core cs) (some : core ≠ [])
    (head : ∀ c ∈ core.head?, isBlank c = false) (last : ∀ c ∈ core.getLast?, isBlank c = false) :
    trim cs = core := by
  obtain ⟨front, back, rfl, hfront, hback⟩ := padded
  have first : ∀ c ∈ (core ++ back).head?, isBlank c = false := by
    obtain ⟨d, core, rfl⟩ := List.exists_cons_of_ne_nil some
    exact head
  have end_seen : ∀ c ∈ core.reverse.head?, isBlank c = false := by
    rw [List.head?_reverse]
    exact last
  have blank : ∀ c ∈ back.reverse, isBlank c = true := by
    intro c hc
    exact hback c (List.mem_reverse.mp hc)
  rw [trim, List.dropWhile_append_of_pos hfront, dropWhile_isBlank_eq_self first, List.reverse_append,
    List.dropWhile_append_of_pos blank, dropWhile_isBlank_eq_self end_seen, List.reverse_reverse]

/-- A text is blank exactly if trimming leaves nothing of it. -/
theorem blank_iff_trim (s : String) : blank s = true ↔ trim s.toList = [] := by
  rw [trim_eq_nil_iff, blank, List.all_eq_true]

/-! ## Digits -/

theorem toNat_le_of_isDigit {c : Char} (h : c.isDigit) : 0x30 ≤ c.toNat ∧ c.toNat ≤ 0x39 := by
  simp only [Char.isDigit, Bool.and_eq_true, decide_eq_true_eq, ge_iff_le,
    UInt32.le_iff_toNat_le] at h
  exact h

/-- A digit is no white space. -/
theorem isBlank_of_isDigit {c : Char} (digit : c.isDigit) : isBlank c = false := by
  have table : ∀ n ≤ 0x39, 0x30 ≤ n → inRanges blankRanges n = false := by decide
  obtain ⟨first, last⟩ := toNat_le_of_isDigit digit
  exact table c.toNat last first

theorem isDigit_toDigits {n : Nat} : ∀ c ∈ Nat.toDigits 10 n, c.isDigit :=
  fun _ h => Nat.isDigit_of_mem_toDigits (by decide) (by decide) h

theorem toList_toString (n : Nat) : (toString n).toList = Nat.toDigits 10 n := by
  rw [Nat.toString_eq_repr, Nat.toList_repr]

/-- A number is written with digits only. -/
theorem isDigit_toString (n : Nat) : ∀ c ∈ (toString n).toList, c.isDigit := by
  rw [toList_toString]
  exact isDigit_toDigits

/-- There is at least one of them. -/
theorem toString_ne_nil (n : Nat) : (toString n).toList ≠ [] := by
  rw [toList_toString]
  exact Nat.toDigits_ne_nil

/-- **The digits of a number** can be read back. -/
theorem ofDigitChars_toString (n : Nat) : Nat.ofDigitChars 10 (toString n).toList 0 = n := by
  rw [toList_toString]
  exact Nat.ofDigitChars_toDigits (by decide) (by decide)

end Admission.Text

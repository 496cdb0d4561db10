/-
# Admission.Text.Delimited — texts that a delimiter takes apart

A delimiter takes a text apart in three ways: at the first place it stands (`cut`), at the last
(`cutLast?`), or at every one (`pieces`). The delimiter itself belongs to no part.
-/

namespace Admission.Text

/-- What stands before the first delimiter, and what follows it if there is one. -/
def cut (delimiter : Char) : List Char → List Char × Option (List Char)
  | [] => ([], none)
  | c :: rest =>
    if c = delimiter then ([], some rest)
    else
      let (front, back) := cut delimiter rest
      (c :: front, back)

/-- What stands before the last delimiter if there is one, and what follows it. -/
def cutLast? (delimiter : Char) (cs : List Char) : Option (List Char) × List Char :=
  let (back, front) := cut delimiter cs.reverse
  (front.map List.reverse, back.reverse)

/-- What stands between the delimiters: one more piece than there are delimiters. -/
def pieces (delimiter : Char) : List Char → List (List Char)
  | [] => [[]]
  | c :: rest =>
    if c = delimiter then [] :: pieces delimiter rest
    else
      match pieces delimiter rest with
      | [] => [[c]]
      | first :: others => (c :: first) :: others

/-- A text without the delimiter is its own front. -/
theorem cut_eq_self {delimiter : Char} {cs : List Char} (h : delimiter ∉ cs) :
    cut delimiter cs = (cs, none) := by
  induction cs with
  | nil => rfl
  | cons c rest ih =>
    obtain ⟨hc, hrest⟩ := List.ne_and_not_mem_of_not_mem_cons h
    rw [cut, if_neg (Ne.symm hc), ih hrest]

/-- The first delimiter ends the front. -/
theorem cut_append {delimiter : Char} {front : List Char} (h : delimiter ∉ front)
    (back : List Char) : cut delimiter (front ++ delimiter :: back) = (front, some back) := by
  induction front with
  | nil => simp [cut]
  | cons c rest ih =>
    obtain ⟨hc, hrest⟩ := List.ne_and_not_mem_of_not_mem_cons h
    rw [List.cons_append, cut, if_neg (Ne.symm hc), ih hrest]

/-- The first delimiter tells what stands before it from what follows it. -/
theorem append_delimiter_inj {delimiter : Char} {front front' back back' : List Char}
    (h : delimiter ∉ front) (h' : delimiter ∉ front') :
    front ++ delimiter :: back = front' ++ delimiter :: back' ↔ front = front' ∧ back = back' := by
  constructor
  · intro same
    have parts := congrArg (cut delimiter) same
    rw [cut_append h, cut_append h', Prod.mk.injEq, Option.some.injEq] at parts
    exact parts
  · rintro ⟨rfl, rfl⟩
    rfl

/-- A text has one piece more than it has delimiters. -/
theorem length_pieces (delimiter : Char) (cs : List Char) :
    (pieces delimiter cs).length = cs.count delimiter + 1 := by
  induction cs with
  | nil => rfl
  | cons c rest ih =>
    by_cases h : c = delimiter
    · simp [pieces, h, ih]
    · rw [pieces, if_neg h, List.count_cons_of_ne h, ← ih]
      cases hp : pieces delimiter rest with
      | nil => simp [hp] at ih
      | cons first others => rfl

end Admission.Text

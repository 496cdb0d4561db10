/-
# Admission.Proofs.Duration.Text — a written duration is read back

A duration is written group by group, and a reader takes one group at a time from the front: the digits
up to the first letter, and the letters up to the next digit. So what a group does can be said of one
group alone, whatever follows it, as long as that begins with a digit or is nothing (`addGroups_group`).

The groups of a written duration count its hours, minutes, seconds and milliseconds, parts that are zero
left out, and they add up to its milliseconds (`addGroups_formatMillis`). Hence a written duration is
read back without what is shorter than a millisecond (`parse_format`), as long as an instant can hold its
milliseconds; otherwise it is refused (`parse_formatMillis`).
-/
import Admission.Duration.Text
import Admission.Proofs.Text

namespace Admission.Duration

/-! ## One group -/

/-- What may follow a group: nothing, or the number of the next one. -/
def Opens (cs : List Char) : Prop := ∀ c ∈ cs.head?, c.isDigit = true

theorem opens_nil : Opens [] := by simp [Opens]

/-- The name of a unit is made of letters, and there is at least one. -/
theorem unitMillis_letters {unit : List Char} {scale : Nat} (named : unitMillis unit = some scale) :
    unit ≠ [] ∧ (∀ c ∈ unit, c.isDigit = false ∧ Text.isBlank c = false) ∧ 0 < scale := by
  -- as a test, which is decided letter by letter
  suffices tested : unit ≠ [] ∧ (unit.all fun c => !c.isDigit && !Text.isBlank c) = true ∧ 0 < scale by
    simpa using tested
  simp only [unitMillis] at named
  split at named <;> cases named <;> decide

/-- What two texts begin with is in the first one, unless that is empty. -/
theorem mem_of_mem_head?_append {cs ds : List Char} (h : cs ≠ []) {c : Char}
    (hc : c ∈ (cs ++ ds).head?) : c ∈ cs := by
  obtain ⟨d, cs, rfl⟩ := List.exists_cons_of_ne_nil h
  obtain rfl : d = c := Option.some.inj hc
  exact List.mem_cons_self

/-- A run of characters of one kind ends where one of another kind follows. -/
theorem takeWhile_run {p : Char → Bool} {run rest : List Char} (all : ∀ c ∈ run, p c = true)
    (other : ∀ c ∈ rest.head?, p c = false) :
    (run ++ rest).takeWhile p = run ∧ (run ++ rest).dropWhile p = rest := by
  rw [List.takeWhile_append_of_pos all, List.dropWhile_append_of_pos all]
  cases rest with
  | nil => exact ⟨List.append_nil run, rfl⟩
  | cons c rest =>
    have stops : ¬ p c = true := by simp [other c rfl]
    rw [List.takeWhile_cons_of_neg stops, List.dropWhile_cons_of_neg stops, List.append_nil]
    exact ⟨rfl, rfl⟩

/-- **One group** in front of others, or of nothing: its number is read, and so many units are added,
unless either is too large. -/
theorem addGroups_group {digits unit rest : List Char} {scale : Nat} (total : Nat)
    (number : digits ≠ []) (all : ∀ c ∈ digits, c.isDigit = true)
    (named : unitMillis unit = some scale) (opens : Opens rest) :
    addGroups total (digits ++ (unit ++ rest)) =
      if widest < Nat.ofDigitChars 10 digits 0 then .error .numberTooLarge
      else if widest < total + Nat.ofDigitChars 10 digits 0 * scale then .error .overflow
      else addGroups (total + Nat.ofDigitChars 10 digits 0 * scale) rest := by
  obtain ⟨c, digits, rfl⟩ := List.exists_cons_of_ne_nil number
  obtain ⟨first, all⟩ := List.forall_mem_cons.mp all
  obtain ⟨unit_ne, letters, -⟩ := unitMillis_letters named
  -- the number ends where the unit begins, and the unit where the next number does
  have letter : ∀ c ∈ (unit ++ rest).head?, c.isDigit = false := by
    intro c hc
    exact (letters c (mem_of_mem_head?_append unit_ne hc)).1
  obtain ⟨amount, tail⟩ := takeWhile_run all letter
  have spelled : ∀ c ∈ unit, (!c.isDigit) = true := by
    intro c hc
    rw [(letters c hc).1]
    rfl
  have digit : ∀ c ∈ rest.head?, (!c.isDigit) = false := by
    intro c hc
    rw [opens c hc]
    rfl
  obtain ⟨name, next⟩ := takeWhile_run spelled digit
  rw [List.cons_append, addGroups]
  simp only [first, amount, tail, name, next, named, if_true]

/-! ## The groups of a written duration -/

/-- Where a group may begin, a part may be put in front. -/
theorem opens_part (amount : Nat) (unit : String) {rest : List Char} (opens : Opens rest) :
    Opens ((part amount unit).toList ++ rest) := by
  rw [part]
  split
  · exact opens
  · intro c hc
    rw [String.toList_append, List.append_assoc] at hc
    exact Text.isDigit_toString amount c (mem_of_mem_head?_append (Text.toString_ne_nil amount) hc)

/-- **One part** adds so many of its units; one that is left out adds none. -/
theorem addGroups_part {unit : String} {scale : Nat} (named : unitMillis unit.toList = some scale)
    {total amount : Nat} (fits : total + amount * scale ≤ widest) {rest : List Char}
    (opens : Opens rest) :
    addGroups total ((part amount unit).toList ++ rest) = addGroups (total + amount * scale) rest := by
  rw [part]
  split
  · next zero => rw [zero, Nat.zero_mul]; rfl
  · obtain ⟨-, -, positive⟩ := unitMillis_letters named
    have small : amount ≤ amount * scale := Nat.le_mul_of_pos_right amount positive
    rw [String.toList_append, List.append_assoc,
      addGroups_group total (Text.toString_ne_nil amount) (Text.isDigit_toString amount) named opens,
      Text.ofDigitChars_toString, if_neg (by omega), if_neg (by omega)]

/-- The four parts of a duration. -/
theorem toList_formatMillis {ms : Nat} (h : ms ≠ 0) :
    (formatMillis ms).toList = (part (ms / 3600000) "h").toList ++
      ((part (ms % 3600000 / 60000) "m").toList ++
        ((part (ms % 60000 / 1000) "s").toList ++ ((part (ms % 1000) "ms").toList ++ []))) := by
  rw [formatMillis, if_neg h]
  simp only [String.toList_append, List.append_assoc, List.append_nil]

/-- **The groups add up** to the milliseconds that were written. -/
theorem addGroups_formatMillis {ms : Nat} (fits : ms ≤ widest) :
    addGroups 0 (formatMillis ms).toList = .ok ms := by
  by_cases zero : ms = 0
  · subst zero
    have text : (formatMillis 0).toList = (toString 0).toList ++ ("s".toList ++ []) := rfl
    rw [text, addGroups_group 0 (Text.toString_ne_nil 0) (Text.isDigit_toString 0) rfl opens_nil,
      Text.ofDigitChars_toString, if_neg (by omega), if_neg (by omega), addGroups]
  · have s := opens_part (ms % 1000) "ms" opens_nil
    have m := opens_part (ms % 60000 / 1000) "s" s
    have h := opens_part (ms % 3600000 / 60000) "m" m
    rw [toList_formatMillis zero, addGroups_part rfl (by omega) h, addGroups_part rfl (by omega) m,
      addGroups_part rfl (by omega) s, addGroups_part rfl (by omega) opens_nil, addGroups,
      Except.ok.injEq]
    omega

/-! ## Reading a written duration -/

theorem part_seen {amount : Nat} {unit : String} {scale : Nat}
    (named : unitMillis unit.toList = some scale) :
    ∀ c ∈ (part amount unit).toList, Text.isBlank c = false := by
  rw [part]
  split
  · simp
  · intro c hc
    rw [String.toList_append, List.mem_append] at hc
    rcases hc with digit | letter
    · exact Text.isBlank_of_isDigit (Text.isDigit_toString amount c digit)
    · exact ((unitMillis_letters named).2.1 c letter).2

/-- There is no white space in a written duration. -/
theorem formatMillis_seen (ms : Nat) : ∀ c ∈ (formatMillis ms).toList, Text.isBlank c = false := by
  by_cases zero : ms = 0
  · have spelled : (formatMillis ms).toList = ['0', 's'] := by
      subst zero
      decide
    rw [spelled, List.forall_mem_cons, List.forall_mem_cons]
    exact ⟨by decide, by decide, List.forall_mem_nil _⟩
  · intro c hc
    rw [toList_formatMillis zero, List.append_nil] at hc
    simp only [List.mem_append] at hc
    rcases hc with h | m | s | ms
    · exact part_seen rfl c h
    · exact part_seen rfl c m
    · exact part_seen rfl c s
    · exact part_seen rfl c ms

/-- **A written number of milliseconds** is read back, if an instant can hold it, and refused if not. -/
theorem parse_formatMillis {ms : Nat} (fits : ms ≤ widest) :
    parse (formatMillis ms) =
      if Word.last < ms then .error (.flawed .overflow (formatMillis ms)) else .ok (ofMillis ms) := by
  have groups := addGroups_formatMillis fits
  have seen := formatMillis_seen ms
  have trimmed : Text.trim (formatMillis ms).toList = (formatMillis ms).toList :=
    Text.trim_eq_self (fun c hc => seen c (List.mem_of_mem_head? hc))
      fun c hc => seen c (List.mem_of_mem_getLast? hc)
  -- nothing at all would count as zero, and zero is written with a unit
  have something : (formatMillis ms).toList ≠ [] := by
    intro nothing
    rw [nothing, addGroups, Except.ok.injEq] at groups
    rw [← groups] at nothing
    cases nothing
  have unit : (formatMillis ms).toList ≠ ['0'] := by
    intro bare
    have unfinished : addGroups 0 ['0'] = .error .unitMissing := by
      rw [addGroups]
      rfl
    rw [bare, unfinished] at groups
    cases groups
  have total : readMillis (formatMillis ms).toList =
      if Word.last < ms then .error .overflow else .ok ms := by
    rw [readMillis, groups]
    rfl
  simp only [parse, trimmed, something, unit, if_false, total]
  by_cases beyond : Word.last < ms
  · simp only [beyond, if_true]
  · simp only [beyond, if_false]

/-- A duration without what it has beyond whole milliseconds. -/
def whole (d : Duration) : Duration := ofMillis d.millis

@[simp] theorem millis_whole (d : Duration) : d.whole.millis = d.millis := millis_ofMillis d.millis

@[simp] theorem format_whole (d : Duration) : d.whole.format = d.format :=
  congrArg formatMillis d.millis_whole

/-- **A written duration** is read back, but for what it has beyond whole milliseconds. -/
theorem parse_format {d : Duration} (fits : d.millis ≤ Word.last) : parse d.format = .ok d.whole := by
  have wide : d.millis ≤ widest := Nat.le_trans fits (by decide)
  rw [format, parse_formatMillis wide, if_neg (by omega)]
  rfl

/-- No duration is written as nothing. -/
theorem format_ne_empty {d : Duration} (fits : d.millis ≤ Word.last) : d.format ≠ "" := by
  intro empty
  have read := parse_format fits
  rw [empty] at read
  cases read

end Admission.Duration

/-
# Admission.Proofs.Duration.Grammar — which texts are durations, and which durations they are

What people may write is given here by a grammar, without regard to how it is read: a duration is a bare
zero, or one group after another, each of them a whole number and a unit (`Denotes`). Its length is the sum
of what the groups say, in numbers without bound, and white space around it does not count (`Written`).

A reader that takes one group after another from the front accepts exactly that
(`readMillis_eq_ok_iff`): the number ends where the unit begins, and the unit where the next number does, so
there is only one way to cut a text into groups. It gives up on the way when a number or a sum is too
large, and that is no loss, since sums only grow. Hence a text is a duration exactly if it is written as
one that an instant can hold (`parse_exact`); every other text is refused.

A duration that has been read can be written and read again. One that cannot be held is written all the
same, and refused when it is read: it never comes back as another one (`parse_format_exact`).
-/
import Admission.Proofs.Duration.Text
import Admission.Service

namespace Admission.Duration

/-! ## The grammar -/

/-- The units that a duration may be written in. -/
inductive TimeUnit where
  | millisecond
  | second
  | minute
  | hour
  | day
deriving DecidableEq, Repr

namespace TimeUnit

/-- How a unit is written. -/
def name : TimeUnit → String
  | millisecond => "ms"
  | second => "s"
  | minute => "m"
  | hour => "h"
  | day => "d"

/-- Its milliseconds. -/
def millis : TimeUnit → Nat
  | millisecond => 1
  | second => 1000
  | minute => 60 * 1000
  | hour => 60 * 60 * 1000
  | day => 24 * 60 * 60 * 1000

end TimeUnit

/-- A whole number and a unit. -/
structure Group where
  /-- The digits of the number. It may begin with zeros. -/
  digits : List Char
  /-- The unit. -/
  unit : TimeUnit
  /-- There is a digit. -/
  digits_ne_nil : digits ≠ []
  /-- There is nothing but digits. -/
  isDigit : ∀ c ∈ digits, c.isDigit = true

namespace Group

/-- How a group is written. -/
def text (g : Group) : List Char := g.digits ++ g.unit.name.toList

/-- Its number of units, in milliseconds. -/
def millis (g : Group) : Nat := Nat.ofDigitChars 10 g.digits 0 * g.unit.millis

/-- How several groups are written. -/
def texts (gs : List Group) : List Char := gs.flatMap text

/-- What they add up to. -/
def total : List Group → Nat
  | [] => 0
  | g :: gs => g.millis + total gs

end Group

/-- The texts of durations, and their milliseconds. -/
inductive Denotes : List Char → Nat → Prop
  /-- A bare zero needs no unit. -/
  | zero : Denotes ['0'] 0
  /-- There is at least one group. -/
  | groups {gs : List Group} (some : gs ≠ []) : Denotes (Group.texts gs) (Group.total gs)

/-- So many milliseconds are written, perhaps with white space around them. -/
def Written (s : String) (ms : Nat) : Prop := ∃ core, Text.Padded core s.toList ∧ Denotes core ms

/-! ## Groups are read as they are written -/

/-- The names that are looked up are those of the units. -/
theorem unitMillis_eq_some_iff {cs : List Char} {scale : Nat} :
    unitMillis cs = some scale ↔ ∃ u : TimeUnit, u.name.toList = cs ∧ u.millis = scale := by
  constructor
  · intro h
    unfold unitMillis at h
    split at h
    · exact ⟨.millisecond, rfl, Option.some.inj h⟩
    · exact ⟨.second, rfl, Option.some.inj h⟩
    · exact ⟨.minute, rfl, Option.some.inj h⟩
    · exact ⟨.hour, rfl, Option.some.inj h⟩
    · exact ⟨.day, rfl, Option.some.inj h⟩
    · cases h
  · rintro ⟨u, rfl, rfl⟩
    cases u <;> rfl

theorem unitMillis_name (u : TimeUnit) : unitMillis u.name.toList = some u.millis :=
  unitMillis_eq_some_iff.mpr ⟨u, rfl, rfl⟩

theorem Group.texts_cons (g : Group) (gs : List Group) :
    texts (g :: gs) = g.digits ++ (g.unit.name.toList ++ texts gs) := by
  show g.digits ++ g.unit.name.toList ++ texts gs = _
  rw [List.append_assoc]

theorem Group.total_cons (g : Group) (gs : List Group) : total (g :: gs) = g.millis + total gs :=
  rfl

/-- A group may follow another one. -/
theorem opens_texts (gs : List Group) : Opens (Group.texts gs) := by
  cases gs with
  | nil => exact opens_nil
  | cons g gs =>
    intro c hc
    rw [Group.texts_cons] at hc
    exact g.isDigit c (mem_of_mem_head?_append g.digits_ne_nil hc)

/-- **Groups that are written** are read one after the other, unless they add up to too much. -/
theorem addGroups_texts {gs : List Group} {total : Nat} (fits : total + Group.total gs ≤ widest) :
    addGroups total (Group.texts gs) = .ok (total + Group.total gs) := by
  induction gs generalizing total with
  | nil =>
    show addGroups total [] = _
    rw [addGroups]
    rfl
  | cons g gs ih =>
    rw [Group.total_cons] at fits ⊢
    obtain ⟨-, -, positive⟩ := unitMillis_letters (unitMillis_name g.unit)
    have small : Nat.ofDigitChars 10 g.digits 0 ≤ g.millis := Nat.le_mul_of_pos_right _ positive
    have amount : Nat.ofDigitChars 10 g.digits 0 * g.unit.millis = g.millis := rfl
    rw [Group.texts_cons,
      addGroups_group total g.digits_ne_nil g.isDigit (unitMillis_name g.unit) (opens_texts gs), amount,
      if_neg (by omega), if_neg (by omega), ih (by omega), Nat.add_assoc]

/-- **What is read are groups**: nothing of the text is left over, and nothing is read twice. -/
theorem exists_groups {cs : List Char} {total n : Nat} (read : addGroups total cs = .ok n) :
    ∃ gs, cs = Group.texts gs ∧ n = total + Group.total gs := by
  fun_induction addGroups total cs with
  | case1 total =>
    cases read
    exact ⟨[], rfl, rfl⟩
  | case2 => cases read
  | case3 => cases read
  | case4 => cases read
  | case5 total c rest digit amount tail small scale named fits ih =>
    obtain ⟨gs, hrest, hn⟩ := ih read
    obtain ⟨u, hu, rfl⟩ := unitMillis_eq_some_iff.mp named
    have digits : ∀ d ∈ c :: rest.takeWhile Char.isDigit, d.isDigit = true :=
      List.forall_mem_cons.mpr ⟨digit, fun d hd => List.mem_takeWhile_imp hd⟩
    let g : Group := ⟨c :: rest.takeWhile Char.isDigit, u, List.cons_ne_nil _ _, digits⟩
    refine ⟨g :: gs, ?_, ?_⟩
    · have number := List.takeWhile_append_dropWhile (p := Char.isDigit) (l := rest)
      have unit := List.takeWhile_append_dropWhile (p := (!·.isDigit)) (l := tail)
      show c :: rest = Group.texts (g :: gs)
      rw [Group.texts_cons, hu, ← hrest, unit]
      show c :: rest = c :: (rest.takeWhile Char.isDigit ++ tail)
      rw [number]
    · rw [Group.total_cons, hn, Nat.add_assoc]
      rfl
  | case6 => cases read

/-- A reader with room for the groups accepts exactly what is written in groups. -/
theorem readMillis_eq_ok_iff {cs : List Char} {ms : Nat} :
    readMillis cs = .ok ms ↔ ∃ gs, cs = Group.texts gs ∧ ms = Group.total gs ∧ ms ≤ Word.last := by
  constructor
  · intro read
    unfold readMillis at read
    cases groups : addGroups 0 cs with
    | error flaw =>
      rw [groups] at read
      cases read
    | ok total =>
      obtain ⟨gs, written, sum⟩ := exists_groups groups
      rw [Nat.zero_add] at sum
      have within : (if Word.last < total then .error .overflow else .ok total : Except Flaw Nat) =
          .ok ms := by
        rw [groups] at read
        exact read
      split at within
      · cases within
      · cases within
        exact ⟨gs, written, sum, by omega⟩
  · rintro ⟨gs, rfl, rfl, within⟩
    have wide : 0 + Group.total gs ≤ widest := by
      have : Word.last ≤ widest := by decide
      omega
    have groups := addGroups_texts wide
    rw [Nat.zero_add] at groups
    unfold readMillis
    rw [groups]
    show (if Word.last < Group.total gs then _ else _ : Except Flaw Nat) = _
    rw [if_neg (by omega)]

/-! ## Texts -/

/-- There is something in a group, and no white space. -/
theorem Group.text_seen (g : Group) : g.text ≠ [] ∧ ∀ c ∈ g.text, Text.isBlank c = false := by
  obtain ⟨-, letters, -⟩ := unitMillis_letters (unitMillis_name g.unit)
  refine ⟨List.append_ne_nil_of_left_ne_nil g.digits_ne_nil _, fun c hc => ?_⟩
  rcases List.mem_append.mp hc with digit | letter
  · exact Text.isBlank_of_isDigit (g.isDigit c digit)
  · exact (letters c letter).2

/-- There is something in a duration, and no white space. -/
theorem Denotes.seen {core : List Char} {ms : Nat} (denotes : Denotes core ms) :
    core ≠ [] ∧ ∀ c ∈ core, Text.isBlank c = false := by
  cases denotes with
  | zero => exact ⟨by decide, List.forall_mem_singleton.mpr (by decide)⟩
  | @groups gs some =>
    obtain ⟨g, gs, rfl⟩ := List.exists_cons_of_ne_nil some
    refine ⟨List.append_ne_nil_of_left_ne_nil g.text_seen.1 _, fun c hc => ?_⟩
    obtain ⟨g, -, hc⟩ := List.mem_flatMap.mp hc
    exact g.text_seen.2 c hc

/-- Trimming leaves the duration of a text. -/
theorem Denotes.trim_eq {core cs : List Char} {ms : Nat} (denotes : Denotes core ms)
    (padded : Text.Padded core cs) : Text.trim cs = core := by
  obtain ⟨some, seen⟩ := denotes.seen
  exact padded.trim_eq some (fun c hc => seen c (List.mem_of_mem_head? hc))
    fun c hc => seen c (List.mem_of_mem_getLast? hc)

/-- A bare zero is no group: it lacks a unit. -/
theorem texts_ne_zero (gs : List Group) : Group.texts gs ≠ ['0'] := by
  intro bare
  cases gs with
  | nil => cases bare
  | cons g gs =>
    rw [Group.texts_cons] at bare
    obtain ⟨unit_ne, letters, -⟩ := unitMillis_letters (unitMillis_name g.unit)
    obtain ⟨d, digits, hd⟩ := List.exists_cons_of_ne_nil g.digits_ne_nil
    rw [hd, List.cons_append, List.cons.injEq, List.append_eq_nil_iff, List.append_eq_nil_iff] at bare
    exact unit_ne bare.2.2.1

/-- **A text is read** as the duration that is written there, and not at all if there is none or if it is
too long. -/
theorem parse_eq_ok_iff {s : String} {d : Duration} :
    parse s = .ok d ↔ ∃ ms, Written s ms ∧ ms ≤ Word.last ∧ d = ofMillis ms := by
  constructor
  · intro read
    simp only [parse] at read
    have padded := Text.padded_trim s.toList
    split at read
    · cases read
    · next something =>
      split at read
      · next bare =>
        cases read
        rw [bare] at padded
        exact ⟨0, ⟨_, padded, .zero⟩, Nat.zero_le _, rfl⟩
      · split at read
        · next ms groups =>
          cases read
          obtain ⟨gs, written, rfl, within⟩ := readMillis_eq_ok_iff.mp groups
          rw [written] at padded something
          refine ⟨_, ⟨_, padded, .groups ?_⟩, within, rfl⟩
          rintro rfl
          exact something rfl
        · cases read
  · rintro ⟨ms, ⟨core, padded, denotes⟩, within, rfl⟩
    have trimmed := denotes.trim_eq padded
    obtain ⟨some, -⟩ := denotes.seen
    unfold parse
    rw [trimmed]
    cases denotes with
    | zero => rfl
    | @groups gs _ =>
      have read := readMillis_eq_ok_iff.mpr ⟨gs, rfl, rfl, within⟩
      show (if _ then _ else if _ then _ else _) = _
      rw [if_neg some, if_neg (texts_ne_zero gs), read]

/-- Whoever asks for a window that is no duration is told so. -/
theorem window_malformed {text : String} {malformed : Malformed} (read : parse text = .error malformed)
    (d : Defaults) {r : Request} (given : Service.given r.window = some text) :
    Service.window d r = .error (.config (.invalidDuration malformed.message)) := by
  simp only [Service.window, given, read]

/-- What has been read has no parts of a millisecond. -/
theorem whole_of_parse {s : String} {d : Duration} (read : parse s = .ok d) :
    d.millis ≤ Word.last ∧ d.whole = d := by
  obtain ⟨ms, -, within, rfl⟩ := parse_eq_ok_iff.mp read
  rw [whole, millis_ofMillis]
  exact ⟨within, rfl⟩

/-- The milliseconds of a duration whose seconds an instant can hold fit into a sum. -/
theorem millis_le_widest {d : Duration} (fits : d.seconds ≤ Word.last) : d.millis ≤ widest := by
  have wide : (Word.last + 1) * 1000 ≤ widest := by decide
  simp only [seconds, millis] at fits ⊢
  omega

/-- **A duration that is written and read again** is the same but for its parts of a millisecond, or it is
refused: it is never another one. What has been read is the same altogether when it is written and read
again. -/
theorem parse_format_exact {d : Duration} (fits : d.seconds ≤ Word.last) :
    (parse d.format =
        if d.millis ≤ Word.last then .ok (ofMillis d.millis) else .error (.flawed .overflow d.format)) ∧
      ∀ s d', parse s = .ok d' → parse d'.format = .ok d' := by
  refine ⟨?_, fun s d' read => ?_⟩
  · rw [format, parse_formatMillis (millis_le_widest fits)]
    by_cases within : d.millis ≤ Word.last
    · rw [if_neg (by omega), if_pos within]
    · rw [if_pos (by omega), if_neg within]
  · obtain ⟨within, same⟩ := whole_of_parse read
    rw [parse_format within, same]

/-- The longest duration of all, which is refused; and a day, which is written in hours. -/
theorem parse_format_exact_of_longest :
    let longest := ofParts Word.last 999999999
    let day := ofMillis 86400000
    longest.seconds ≤ Word.last ∧ longest.format = "5124095576030431h15s999ms" ∧
      parse longest.format = .error (.flawed .overflow longest.format) ∧
      parse " 01d" = .ok day ∧ day.format = "24h" ∧ parse day.format = .ok day := by
  intro longest day
  have fits : longest.seconds ≤ Word.last := by decide
  obtain ⟨refused, again⟩ := parse_format_exact fits
  rw [if_neg (by decide)] at refused
  let g : Group := ⟨['0', '1'], .day, List.cons_ne_nil _ _,
    List.forall_mem_cons.mpr ⟨rfl, List.forall_mem_singleton.mpr rfl⟩⟩
  have written : Denotes ['0', '1', 'd'] 86400000 := by
    have text : Group.texts [g] = ['0', '1', 'd'] := by decide +kernel
    have total : Group.total [g] = 86400000 := by decide +kernel
    rw [← text, ← total]
    exact .groups (List.cons_ne_nil g [])
  have padded : Text.Padded ['0', '1', 'd'] " 01d".toList :=
    ⟨[' '], [], rfl, List.forall_mem_singleton.mpr rfl, nofun⟩
  have read : parse " 01d" = .ok day :=
    parse_eq_ok_iff.mpr ⟨86400000, ⟨_, padded, written⟩, by decide, rfl⟩
  exact ⟨fits, by cbv, refused, read, by cbv, again _ _ read⟩

end Admission.Duration

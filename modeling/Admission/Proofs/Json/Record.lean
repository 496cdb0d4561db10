/-
# Admission.Proofs.Json.Record — the fields of a written record

A record is written as an object that has its fields by name, and leaves out those that have no value
(`Value.record`). Whoever asks for the fields of the written record, by the same names, gets each of them
with its value, and none for those that were left out (`fields?_record`): every name occurs once, so no
field hides another.

What a field's value is read as is then a matter of the value alone (`optional_tree`), and of the whole
text there is nothing left to say but what its tree is read as (`reread_eq`).
-/
import Admission.Proofs.Json.Reading
import Mathlib.Data.List.Nodup

namespace Admission.Json

/-! ## Members under their names -/

/-- A record: the fields that have a value, each under its name. -/
def Value.record (names : List String) (values : List (Option Value)) : Value :=
  .members (List.zipWith (fun name value => value.map (name, ·)) names values)

/-- The fields of a record as a reader finds them. -/
def Value.found (names : List String) (values : List (Option Value)) : List (String × Tree) :=
  ((List.zipWith (fun name value => value.map (name, ·)) names values).filterMap id).map fun m =>
    (m.1, m.2.tree)

namespace Tree

/-- A reader finds the members of a written object under their names. -/
theorem members?_object (members : List (String × Value)) :
    (Value.object members).tree.members? = some (members.map fun m => (m.1, m.2.tree)) := by
  rw [Value.tree, members?]
  induction members with
  | nil => rfl
  | cons member members ih =>
    obtain ⟨name, value⟩ := member
    rw [Value.memberTrees, List.mapM_cons, ih, text?_ofText]
    rfl

/-- What is found is under one of the names. -/
theorem mem_of_mem_found {names : List String} {values : List (Option Value)} {m : String × Tree}
    (h : m ∈ Value.found names values) : m.1 ∈ names := by
  induction names generalizing values with
  | nil => simp [Value.found] at h
  | cons name names ih =>
    cases values with
    | nil => simp [Value.found] at h
    | cons value values =>
      cases value with
      | none => exact List.mem_cons_of_mem name (ih h)
      | some v =>
        rcases List.mem_cons.mp h with rfl | h
        · exact List.mem_cons_self
        · exact List.mem_cons_of_mem name (ih h)

/-- There is nothing under a name that none of the members has. -/
theorem filter_eq_nil {members : List (String × Tree)} {name : String}
    (h : ∀ m ∈ members, m.1 ≠ name) : members.filter (·.1 = name) = [] := by
  rw [List.filter_eq_nil_iff]
  intro m hm
  simpa using h m hm

/-- Each name leads to the value of its field, whatever else there is under other names. -/
theorem mapM_member? {names : List String} {values : List (Option Value)} (distinct : names.Nodup)
    (length : values.length = names.length) {others : List (String × Tree)}
    (apart : ∀ m ∈ others, m.1 ∉ names) :
    names.mapM (member? (others ++ Value.found names values)) =
      some (values.map (Option.map Value.tree)) := by
  induction names generalizing values others with
  | nil =>
    obtain rfl := List.eq_nil_of_length_eq_zero length
    rfl
  | cons name names ih =>
    obtain ⟨value, values, rfl⟩ := List.exists_cons_of_length_eq_add_one length
    obtain ⟨fresh, distinct⟩ := List.nodup_cons.mp distinct
    -- the first field, apart from those before it and those after it
    let own : List (String × Tree) := (value.map fun v => (name, v.tree)).toList
    have split : Value.found (name :: names) (value :: values) = own ++ Value.found names values := by
      cases value <;> rfl
    have before : others.filter (·.1 = name) = [] :=
      filter_eq_nil fun m hm same => apart m hm (same ▸ List.mem_cons_self)
    have after : (Value.found names values).filter (·.1 = name) = [] :=
      filter_eq_nil fun m hm same => fresh (same ▸ mem_of_mem_found hm)
    have first : member? (others ++ (own ++ Value.found names values)) name =
        some (value.map Value.tree) := by
      rw [member?, List.filter_append, List.filter_append, before, after, List.append_nil,
        List.nil_append]
      cases value <;> simp [own]
    have apart' : ∀ m ∈ others ++ own, m.1 ∉ names := by
      intro m hm
      rcases List.mem_append.mp hm with hm | hm
      · exact fun h => apart m hm (List.mem_cons_of_mem name h)
      · cases value with
        | none => simp [own] at hm
        | some v =>
          obtain rfl : m = (name, v.tree) := by simpa [own] using hm
          exact fresh
    have rest := ih distinct (Nat.succ.inj length) apart'
    rw [List.append_assoc] at rest
    rw [split, List.mapM_cons, first, rest]
    rfl

/-- **The fields of a written record** are found, each with its value if it has one. -/
theorem fields?_record {names : List String} {values : List (Option Value)} (distinct : names.Nodup)
    (length : values.length = names.length) (closed : Bool) :
    (Value.record names values).tree.fields? names closed =
      some (values.map (Option.map Value.tree)) := by
  have members : (Value.record names values).tree.members? = some (Value.found names values) :=
    members?_object _
  have known : ((Value.found names values).any fun m => !names.contains m.1) = false := by
    rw [List.any_eq_false]
    intro m hm
    simp [mem_of_mem_found hm]
  have nothing : ∀ m ∈ ([] : List (String × Tree)), m.1 ∉ names := by simp
  have named := mapM_member? distinct length nothing
  rw [List.nil_append] at named
  show ((Value.record names values).tree.members? >>= fun members =>
    if closed && members.any (fun m => !names.contains m.1) then none
    else names.mapM (member? members)) = _
  rw [members, Option.bind_eq_bind, Option.bind_some, known, Bool.and_false,
    if_neg Bool.false_ne_true, named]

end Tree

/-! ## Values of fields -/

variable {α : Type}

/-- A field that has a value is read as that value is: no value is written as the lack of one. -/
theorem optional_tree (read : Tree → Option α) (v : Value) :
    Field.optional read (some v.tree) = (read v.tree).map some := by
  cases v <;> rfl

/-- **A field that may be missing** is read back, missing or not. -/
theorem optional_written {read : Tree → Option α} {write : α → Value} {field : Option α}
    (back : ∀ a ∈ field, read (write a).tree = some a) :
    Field.optional read ((field.map write).map Value.tree) = some field := by
  cases field with
  | none => rfl
  | some a =>
    rw [Option.map_some, Option.map_some, optional_tree, back a rfl]
    rfl

/-- A written text is read as itself. -/
@[simp]
theorem text?_tree (s : String) : (Value.text s).tree.text? = some s := text?_ofText s

/-- A written count is read as itself. -/
theorem count?_tree {n : Nat} (h : n ≤ Word.last) : (Value.number n).tree.count? = some n :=
  count?_number h

/-- A text that may be missing is read back, missing or not. -/
theorem optional_text (field : Option String) :
    Field.optional Tree.text? ((field.map .text).map Value.tree) = some field :=
  optional_written fun s _ => text?_tree s

/-- A count that may be missing is. -/
theorem optional_count {field : Option Nat} (h : ∀ n ∈ field, n ≤ Word.last) :
    Field.optional Tree.count? ((field.map .number).map Value.tree) = some field :=
  optional_written fun n hn => count?_tree (h n hn)

/-! ## Whole texts -/

/-- What is read of the text that a value is written as. -/
def reread (read : Tree → Option α) (v : Value) : Option α :=
  (Tree.parse v.render.toUTF8).bind read

/-- **Reading a written value** is reading its tree. -/
theorem reread_eq (read : Tree → Option α) (v : Value) : reread read v = read v.tree := by
  rw [reread, parse_render]
  rfl

end Admission.Json

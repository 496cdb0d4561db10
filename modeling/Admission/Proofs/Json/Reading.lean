/-
# Admission.Proofs.Json.Reading — a written value is read back as its tree

The tokens of a written value build one tree, with the value's own shape (`Value.tree`), and so
`Tree.parse` gives that tree for the bytes of the value: `parse_render`. The stack of open containers
plays no part in it: what is proved about a value holds inside every container.

After that come the leaves: a number up to the ceiling is read as a count and may be kept, and a text
is read as a text.
-/
import Admission.Json.Field
import Admission.Proofs.Json.Lexing

namespace Admission.Json

/-! ## The tree of a value -/

namespace Value

mutual

/-- The tree a written value is read as. -/
def tree : Value → Tree
  | .bool b => .bool b
  | .number n => .number (.ofNat n)
  | .text s => .string (.ofText s)
  | .array items => .array (itemTrees items)
  | .object members => .object (memberTrees members)

/-- The trees of the items of an array. -/
def itemTrees : List Value → List Tree
  | [] => []
  | item :: rest => tree item :: itemTrees rest

/-- The trees of the members of an object, each under its name. -/
def memberTrees : List (String × Value) → List (Literal × Tree)
  | [] => []
  | (name, value) :: rest => (.ofText name, tree value) :: memberTrees rest

end

theorem itemTrees_eq_map (items : List Value) : itemTrees items = items.map tree := by
  induction items with
  | nil => rfl
  | cons item items ih => rw [itemTrees, ih, List.map_cons]

/-- The first token of a value opens something or is a value by itself. -/
theorem tokens_head (v : Value) :
    ∃ t ts, v.tokens = t :: ts ∧ t ≠ .closeBracket ∧ t ≠ .closeBrace := by
  cases v <;> exact ⟨_, _, rfl, by simp, by simp⟩

end Value

/-! ## Building the tree -/

namespace Tree

/-- Where an array may end, its first item may start. -/
theorem run_itemOrEnd (v : Value) (stack : List Frame) (rest : List Token) :
    (v.tokens ++ rest).foldlM Reading.step ⟨.itemOrEnd, stack⟩ =
      (v.tokens ++ rest).foldlM Reading.step ⟨.value, stack⟩ := by
  obtain ⟨t, ts, hts, hbracket, -⟩ := v.tokens_head
  rw [hts, List.cons_append, List.foldlM_cons, List.foldlM_cons]
  congr 1
  cases t with
  | closeBracket => exact absurd rfl hbracket
  | _ => rfl

/-- The name of a member and its colon, wherever a name may come. -/
theorem run_name {awaiting : Awaiting} (h : awaiting = .name ∨ awaiting = .nameOrEnd)
    (name : Literal) (done : List (Literal × Tree)) (stack : List Frame) (rest : List Token) :
    (.string name :: .colon :: rest).foldlM Reading.step ⟨awaiting, .members done :: stack⟩ =
      rest.foldlM Reading.step ⟨.value, .member done name :: stack⟩ := by
  rcases h with rfl | rfl <;> rfl

mutual

/-- The tokens of a value complete it, in whatever containers are open. -/
theorem run_tokens : ∀ (v : Value) {stack : List Frame} {reading : Reading} (rest : List Token),
    finish v.tree stack = some reading →
    (v.tokens ++ rest).foldlM Reading.step ⟨.value, stack⟩ = rest.foldlM Reading.step reading
  | .bool b, _, _, _, h => by
    rw [Value.tokens, List.cons_append, List.foldlM_cons]
    show (finish (.bool b) _ >>= fun r => _) = _
    rw [show finish (.bool b) _ = some _ from h]
    rfl
  | .number n, _, _, _, h => by
    rw [Value.tokens, List.cons_append, List.foldlM_cons]
    show (finish (.number (.ofNat n)) _ >>= fun r => _) = _
    rw [show finish (.number (.ofNat n)) _ = some _ from h]
    rfl
  | .text s, _, _, _, h => by
    rw [Value.tokens, List.cons_append, List.foldlM_cons]
    show (finish (.string (.ofText s)) _ >>= fun r => _) = _
    rw [show finish (.string (.ofText s)) _ = some _ from h]
    rfl
  | .array [], _, _, _, h => by
    show (finish (.array []) _ >>= fun r => _) = _
    rw [show finish (.array []) _ = some _ from h]
    rfl
  | .array (item :: items), stack, _, rest, h => by
    have inner := run_items (item :: items) (by simp) [] stack
      (.closeBracket :: rest)
    rw [List.append_nil] at inner
    -- the items were collected newest first, and the bracket turns them round
    have close : Reading.step
        ⟨.more, .items (Value.itemTrees (item :: items)).reverse :: stack⟩ .closeBracket =
        finish (Value.tree (.array (item :: items))) stack := by
      show finish (.array (Value.itemTrees (item :: items)).reverse.reverse) stack = _
      rw [List.reverse_reverse]
      rfl
    rw [List.foldlM_cons, close, h] at inner
    rw [Value.tokens, List.cons_append, List.append_assoc, List.foldlM_cons]
    exact inner
  | .object [], _, _, _, h => by
    show (finish (.object []) _ >>= fun r => _) = _
    rw [show finish (.object []) _ = some _ from h]
    rfl
  | .object (member :: members), stack, _, rest, h => by
    have inner := run_members (member :: members) (by simp) (.inr rfl) [] stack
      (.closeBrace :: rest)
    rw [List.append_nil] at inner
    have close : Reading.step
        ⟨.more, .members (Value.memberTrees (member :: members)).reverse :: stack⟩ .closeBrace =
        finish (Value.tree (.object (member :: members))) stack := by
      show finish (.object (Value.memberTrees (member :: members)).reverse.reverse) stack = _
      rw [List.reverse_reverse]
      rfl
    rw [List.foldlM_cons, close, h] at inner
    rw [Value.tokens, List.cons_append, List.append_assoc, List.foldlM_cons]
    exact inner

/-- The items of an array, of which there is at least one, fill the array. -/
theorem run_items : ∀ (items : List Value), items ≠ [] → ∀ (done : List Tree)
    (stack : List Frame) (rest : List Token),
    (Value.itemTokens items ++ rest).foldlM Reading.step ⟨.itemOrEnd, .items done :: stack⟩ =
      rest.foldlM Reading.step ⟨.more, .items ((Value.itemTrees items).reverse ++ done) :: stack⟩
  | [], h, _, _, _ => absurd rfl h
  | [item], _, _, _, rest => by
    rw [Value.itemTokens, run_itemOrEnd]
    exact run_tokens item rest rfl
  | item :: next :: items, _, done, stack, rest => by
    have htokens : Value.itemTokens (item :: next :: items) =
      item.tokens ++ .comma :: Value.itemTokens (next :: items) := rfl
    have inner := run_items (next :: items) (by simp) (item.tree :: done) stack rest
    -- after the comma a value is due, and a value is what the next item starts with
    have first : (Value.itemTokens (next :: items) ++ rest).foldlM Reading.step
        ⟨.itemOrEnd, .items (item.tree :: done) :: stack⟩ =
        (Value.itemTokens (next :: items) ++ rest).foldlM Reading.step
          ⟨.value, .items (item.tree :: done) :: stack⟩ := by
      cases items with
      | nil => exact run_itemOrEnd next _ rest
      | cons other items =>
        have h : Value.itemTokens (next :: other :: items) ++ rest =
            next.tokens ++ (.comma :: Value.itemTokens (other :: items) ++ rest) :=
          List.append_assoc _ _ _
        rw [h]
        exact run_itemOrEnd next _ _
    rw [first] at inner
    rw [htokens, List.append_assoc, run_itemOrEnd,
      run_tokens item _ (show _ = some ⟨.more, .items (item.tree :: done) :: stack⟩ from rfl),
      Value.itemTrees, List.reverse_cons, List.append_assoc]
    exact inner

/-- The members of an object, of which there is at least one, fill the object. -/
theorem run_members : ∀ (members : List (String × Value)), members ≠ [] → ∀ {awaiting : Awaiting},
    awaiting = .name ∨ awaiting = .nameOrEnd → ∀ (done : List (Literal × Tree))
    (stack : List Frame) (rest : List Token),
    (Value.memberTokens members ++ rest).foldlM Reading.step
        ⟨awaiting, .members done :: stack⟩ =
      rest.foldlM Reading.step
        ⟨.more, .members ((Value.memberTrees members).reverse ++ done) :: stack⟩
  | [], h, _, _, _, _, _ => absurd rfl h
  | [(name, value)], _, _, h, _, _, rest => by
    rw [Value.memberTokens, List.cons_append, List.cons_append, run_name h]
    exact run_tokens value rest rfl
  | (name, value) :: next :: members, _, _, h, done, stack, rest => by
    have htokens : Value.memberTokens ((name, value) :: next :: members) =
      .string (.ofText name) :: .colon ::
        (value.tokens ++ .comma :: Value.memberTokens (next :: members)) := rfl
    have inner := run_members (next :: members) (by simp) (.inl rfl)
      ((.ofText name, value.tree) :: done) stack rest
    rw [htokens, List.cons_append, List.cons_append, run_name h, List.append_assoc,
      run_tokens value _
        (show _ = some ⟨.more, .members ((.ofText name, value.tree) :: done) :: stack⟩ from rfl),
      Value.memberTrees, List.reverse_cons, List.append_assoc]
    exact inner

end

/-- The tokens of a value spell its tree. -/
theorem ofTokens_tokens (v : Value) : ofTokens v.tokens = some v.tree := by
  have h := run_tokens v [] (show finish v.tree [] = some ⟨.nothing v.tree, []⟩ from rfl)
  rw [List.append_nil] at h
  rw [ofTokens, h]
  rfl

end Tree

/-- **A written value is read back as its tree.** -/
theorem parse_render (v : Value) : Tree.parse v.render.toUTF8 = some v.tree := by
  have hlex : Token.lex [] = some [] := by rw [Token.lex]
  have h := lex_render v closes_nil hlex
  rw [List.append_nil, List.append_nil] at h
  rw [Tree.parse, toUTF8_data_toList, h]
  exact Tree.ofTokens_tokens v

/-! ## The leaves -/

theorem integer?_ofNat (n : Nat) : (Numeral.ofNat n).integer? = some (n : Int) := by
  simp [Numeral.integer?, Numeral.ofNat, Nat.ofDigitChars_ten_toDigits]

/-- A number is read where it is within the bound. -/
theorem natural?_number {n greatest : Nat} (h : n ≤ greatest) :
    Tree.natural? greatest (.number (.ofNat n)) = some n := by
  have hn : (0 : Int) ≤ n ∧ (n : Int) ≤ greatest := by omega
  simp [Tree.natural?, Tree.integer?, integer?_ofNat, hn]

theorem count?_number {n : Nat} (h : n ≤ Word.last) :
    Tree.count? (.number (.ofNat n)) = some n := natural?_number h

theorem natural?_le {greatest n : Nat} {t : Tree} (h : t.natural? greatest = some n) :
    n ≤ greatest := by
  cases t with
  | number numeral =>
    simp only [Tree.natural?, Tree.integer?, Option.bind_eq_bind, Option.map_eq_some_iff,
      Option.bind_eq_some_iff] at h
    obtain ⟨i, ⟨j, -, hj⟩, rfl⟩ := h
    split at hj
    · next hb =>
      simp only [Bool.and_eq_true, decide_eq_true_eq] at hb
      cases hj
      omega
    · cases hj
  | _ => simp [Tree.natural?, Tree.integer?] at h

/-- A count that was read is within the ceiling. -/
theorem count?_le {n : Nat} {t : Tree} (h : t.count? = some n) : n ≤ Word.last := natural?_le h

/-- Digits are collected without loss as long as their number is within the ceiling. -/
theorem addWhole_of_le {cs : List Char} {n : Nat} (h : Nat.ofDigitChars 10 cs n ≤ Word.last) :
    Numeral.Magnitude.addWhole ⟨n, 0⟩ cs = ⟨Nat.ofDigitChars 10 cs n, 0⟩ := by
  induction cs generalizing n with
  | nil => rfl
  | cons c cs ih =>
    rw [Nat.ofDigitChars_cons] at h ⊢
    -- a number only grows with its further digits, so no step on the way passes the ceiling
    have grows : 10 * n + (c.toNat - '0'.toNat) ≤
        Nat.ofDigitChars 10 cs (10 * n + (c.toNat - '0'.toNat)) := by
      rw [Nat.ofDigitChars_eq_ofDigitChars_zero]
      have := Nat.le_mul_of_pos_left (10 * n + (c.toNat - '0'.toNat))
        (Nat.pow_pos (n := cs.length) (show 0 < 10 by decide))
      omega
    have small : ¬ Word.last < n * 10 + (c.toNat - '0'.toNat) := by omega
    simp only [Numeral.Magnitude.addWhole, small, if_false]
    rw [Nat.mul_comm n 10]
    exact ih h

/-- A number up to the ceiling is within the range of what can be kept. -/
theorem finite_ofNat {n : Nat} (h : n ≤ Word.last) : (Numeral.ofNat n).finite = true := by
  have hn : Numeral.Magnitude.addWhole ⟨0, 0⟩ (Nat.toDigits 10 n) = _ :=
    addWhole_of_le (by rw [Nat.ofDigitChars_ten_toDigits]; exact h)
  simp [Numeral.finite, Numeral.ofNat, hn, Numeral.Magnitude.addFraction]

theorem kept_number {n : Nat} (h : n ≤ Word.last) (levels : Nat) :
    Tree.kept levels (.number (.ofNat n)) = true := by
  rw [Tree.kept]
  exact finite_ofNat h

/-- The items of an array of counts are read one by one. -/
theorem mapM_count? {ns : List Nat} (h : ∀ n ∈ ns, n ≤ Word.last) :
    (Value.itemTrees (ns.map .number)).mapM Tree.count? = some ns := by
  induction ns with
  | nil => rfl
  | cons n ns ih =>
    have hn := count?_number (h n List.mem_cons_self)
    have ih := ih fun m hm => h m (List.mem_cons_of_mem n hm)
    rw [List.map_cons, Value.itemTrees, List.mapM_cons, Value.tree, hn, ih]
    rfl

theorem kept_items {ns : List Nat} (h : ∀ n ∈ ns, n ≤ Word.last) (levels : Nat) :
    Tree.kept (levels + 1) (.array (Value.itemTrees (ns.map .number))) = true := by
  rw [Tree.kept, List.all_eq_true]
  intro t ht
  rw [Value.itemTrees_eq_map, List.map_map, List.mem_map] at ht
  obtain ⟨n, hn, rfl⟩ := ht
  exact kept_number (h n hn) levels

end Admission.Json

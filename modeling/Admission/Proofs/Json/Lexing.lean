/-
# Admission.Proofs.Json.Lexing — the tokens of a written value

A value is written as a text, a text is bytes, and bytes are cut into tokens. This module closes that
circle: cutting the bytes of a written value gives back exactly the tokens the value was written with
(`lex_render`), whatever follows it, as long as what follows cannot go on with a number.

* `spell` — the bytes of a run of characters, so that every lemma speaks about lists.
* `Literal.ofText` — the pieces a text is scanned as, once its escapes are resolved.
* `Numeral.ofNat` — the digits a number is scanned as.
* `Value.tokens` — the tokens of a value, by recursion on the value.

All texts are covered, control characters and characters of several bytes included, and numbers of
any size.
-/
import Admission.Json.Token
import Admission.Json.Value
import Admission.Proofs.Text

namespace Admission.Json

/-! ## Characters as bytes -/

/-- The bytes of a run of characters. -/
def spell (cs : List Char) : List UInt8 := cs.flatMap String.utf8EncodeChar

@[simp]
theorem spell_nil : spell [] = [] := rfl

@[simp]
theorem spell_cons (c : Char) (cs : List Char) :
    spell (c :: cs) = String.utf8EncodeChar c ++ spell cs := rfl

@[simp]
theorem spell_append (cs ds : List Char) : spell (cs ++ ds) = spell cs ++ spell ds :=
  List.flatMap_append

theorem toUTF8_data_toList (s : String) : s.toUTF8.data.toList = spell s.toList := by
  rw [String.toUTF8_eq_toByteArray, ← String.utf8Encode_toList, List.utf8Encode,
    List.data_toByteArray]
  rfl

/-- A character of seven bits is its own byte. -/
theorem encode_ascii {c : Char} (h : c.toNat ≤ 0x7F) :
    String.utf8EncodeChar c = [UInt8.ofNat c.toNat] := by
  have hv : c.val.toNat ≤ 0x7F := h
  simp only [String.utf8EncodeChar, hv, if_true]
  rfl

theorem toNat_ofNat {n : Nat} (h : n ≤ 0x7F) : (UInt8.ofNat n).toNat = n := by
  rw [UInt8.toNat_ofNat']
  omega

/-- Every byte of a character beyond seven bits has its high bit set. -/
theorem high_of_mem_encode {c : Char} (h : 0x7F < c.toNat) {b : UInt8}
    (hb : b ∈ String.utf8EncodeChar c) : 0x80 ≤ b.toNat := by
  have hv : ¬ c.val.toNat ≤ 0x7F := by
    show ¬ c.toNat ≤ 0x7F
    omega
  simp only [String.utf8EncodeChar, hv, if_false] at hb
  -- two, three or four bytes, each of them at least 0x80
  split at hb
  · simp only [List.mem_cons, List.not_mem_nil, or_false] at hb
    rcases hb with rfl | rfl <;> rw [UInt8.toNat_ofNat'] <;> omega
  · split at hb
    · simp only [List.mem_cons, List.not_mem_nil, or_false] at hb
      rcases hb with rfl | rfl | rfl <;> rw [UInt8.toNat_ofNat'] <;> omega
    · simp only [List.mem_cons, List.not_mem_nil, or_false] at hb
      rcases hb with rfl | rfl | rfl | rfl <;> rw [UInt8.toNat_ofNat'] <;> omega

/-! ## String literals -/

/-- What a written character is scanned as. Only the escapes with four digits are not bytes. -/
def Literal.ofChar (c : Char) : Literal :=
  if c.toNat < 0x20 ∧ c ≠ '\x08' ∧ c ≠ '\x0c' ∧ c ≠ '\n' ∧ c ≠ '\r' ∧ c ≠ '\t' then
    [.unit c.toNat]
  else (String.utf8EncodeChar c).map .byte

/-- What a written text is scanned as. -/
def Literal.ofText (s : String) : Literal := s.toList.flatMap Literal.ofChar

/-- A plain byte is scanned as itself. -/
theorem scan_byte {b : UInt8} (hq : b ≠ 0x22) (hb : b ≠ 0x5C) (hc : 0x20 ≤ b.toNat)
    (tail : List UInt8) :
    Literal.scan (b :: tail) = (Literal.scan tail).map fun r => (.byte b :: r.1, r.2) := by
  have hlt : ¬ b < 0x20 := by
    rw [UInt8.lt_iff_toNat_lt]
    show ¬ b.toNat < 32
    omega
  rw [Literal.scan.eq_def]
  simp only [hq, hb, hlt, if_false]
  cases Literal.scan tail <;> rfl

/-- A run of plain bytes is scanned byte for byte. -/
theorem scan_bytes {bs : List UInt8} (h : ∀ b ∈ bs, b ≠ 0x22 ∧ b ≠ 0x5C ∧ 0x20 ≤ b.toNat)
    (tail : List UInt8) :
    Literal.scan (bs ++ tail) =
      (Literal.scan tail).map fun r => (bs.map .byte ++ r.1, r.2) := by
  induction bs with
  | nil => cases hs : Literal.scan tail <;> simp [hs]
  | cons b bs ih =>
    obtain ⟨hq, hb, hc⟩ := h b (List.mem_cons_self)
    have ih := ih fun b' hb' => h b' (List.mem_cons_of_mem b hb')
    rw [List.cons_append, scan_byte hq hb hc, ih]
    cases Literal.scan tail <;> rfl

/-- A one-letter escape is scanned as the byte it stands for. -/
theorem scan_letter {e b : UInt8} (he : Literal.letter? e = some b) (hu : e ≠ 0x75)
    (tail : List UInt8) :
    Literal.scan (0x5C :: e :: tail) =
      (Literal.scan tail).map fun r => (.byte b :: r.1, r.2) := by
  rw [Literal.scan.eq_def]
  simp only [show ¬ ((0x5C : UInt8) = 0x22) by decide, hu, he, if_false, if_true,
    Option.bind_eq_bind, Option.bind_some]
  cases Literal.scan tail <;> rfl

/-- The two digits of a control character are the last two of its code unit. -/
theorem codeUnit?_control : ∀ n < 0x20,
    Literal.codeUnit? 0x30 0x30 (UInt8.ofNat (Nat.digitChar (n / 16)).toNat)
      (UInt8.ofNat (Nat.digitChar (n % 16)).toNat) = some n := by
  decide

theorem spell_escape_control {n : Nat} (h : n < 0x20) :
    spell ['\\', 'u', '0', '0', Nat.digitChar (n / 16), Nat.digitChar (n % 16)] =
      [0x5C, 0x75, 0x30, 0x30, UInt8.ofNat (Nat.digitChar (n / 16)).toNat,
        UInt8.ofNat (Nat.digitChar (n % 16)).toNat] := by
  have small : ∀ m < 16, (Nat.digitChar m).toNat ≤ 0x7F := by decide
  simp only [spell_cons, spell_nil, encode_ascii (small _ (show n / 16 < 16 by omega)),
    encode_ascii (small _ (show n % 16 < 16 by omega))]
  rfl

theorem scan_unit {h₁ h₂ h₃ h₄ : UInt8} {code : Nat}
    (h : Literal.codeUnit? h₁ h₂ h₃ h₄ = some code) (tail : List UInt8) :
    Literal.scan (0x5C :: 0x75 :: h₁ :: h₂ :: h₃ :: h₄ :: tail) =
      (Literal.scan tail).map fun r => (.unit code :: r.1, r.2) := by
  rw [Literal.scan.eq_def]
  simp only [show ¬ ((0x5C : UInt8) = 0x22) by decide, h, if_false, if_true,
    Option.bind_eq_bind, Option.bind_some]
  cases Literal.scan tail <;> rfl

/-- A character that is not escaped has no byte that means anything inside a string. -/
theorem plain_of_mem_encode {c : Char} (hq : c ≠ '"') (hb : c ≠ '\\') (hc : 0x20 ≤ c.toNat)
    {b : UInt8} (h : b ∈ String.utf8EncodeChar c) : b ≠ 0x22 ∧ b ≠ 0x5C ∧ 0x20 ≤ b.toNat := by
  by_cases ascii : c.toNat ≤ 0x7F
  · rw [encode_ascii ascii, List.mem_singleton] at h
    have hn : b.toNat = c.toNat := by rw [h, toNat_ofNat ascii]
    refine ⟨?_, ?_, by omega⟩
    · rintro rfl
      exact hq (Char.toNat_inj.mp hn.symm)
    · rintro rfl
      exact hb (Char.toNat_inj.mp hn.symm)
  · have high := high_of_mem_encode (by omega) h
    refine ⟨?_, ?_, by omega⟩
    · rintro rfl
      exact absurd high (by decide)
    · rintro rfl
      exact absurd high (by decide)

/-- **One written character.** However it was escaped, it is scanned as its pieces. -/
theorem scan_escape (c : Char) (tail : List UInt8) :
    Literal.scan (spell (Value.escape c) ++ tail) =
      (Literal.scan tail).map fun r => (Literal.ofChar c ++ r.1, r.2) := by
  unfold Value.escape
  -- seven characters have an escape of one letter
  split
  · next h => subst h; exact scan_letter rfl (by decide) tail
  split
  · next h => subst h; exact scan_letter rfl (by decide) tail
  split
  · next h => subst h; exact scan_letter rfl (by decide) tail
  split
  · next h => subst h; exact scan_letter rfl (by decide) tail
  split
  · next h => subst h; exact scan_letter rfl (by decide) tail
  split
  · next h => subst h; exact scan_letter rfl (by decide) tail
  split
  · next h => subst h; exact scan_letter rfl (by decide) tail
  -- the other control characters are written with four digits, and the rest as they are
  split
  · next hq hb h₁ h₂ h₃ h₄ h₅ control =>
    rw [spell_escape_control control]
    have hc : Literal.ofChar c = [.unit c.toNat] := if_pos ⟨control, h₁, h₂, h₃, h₄, h₅⟩
    rw [hc]
    exact scan_unit (codeUnit?_control c.toNat control) tail
  · next hq hb h₁ h₂ h₃ h₄ h₅ control =>
    have hc : Literal.ofChar c = (String.utf8EncodeChar c).map .byte :=
      if_neg fun h => control h.1
    rw [hc, spell_cons, spell_nil, List.append_nil]
    exact scan_bytes (fun b hm => plain_of_mem_encode hq hb (by omega) hm) tail

/-- A written text is scanned up to its closing quote. -/
theorem scan_text (cs : List Char) (rest : List UInt8) :
    Literal.scan (spell (cs.flatMap Value.escape) ++ 0x22 :: rest) =
      some (cs.flatMap Literal.ofChar, rest) := by
  induction cs with
  | nil =>
    rw [List.flatMap_nil, spell_nil, List.nil_append, Literal.scan.eq_def]
    rfl
  | cons c cs ih =>
    rw [List.flatMap_cons, spell_append, List.append_assoc, scan_escape, ih]
    rfl

/-! ## From pieces back to text -/

theorem bytes?_bytes (bs : List UInt8) (rest : Literal) :
    Literal.bytes? (bs.map .byte ++ rest) = (Literal.bytes? rest).map (bs ++ ·) := by
  induction bs with
  | nil => cases h : Literal.bytes? rest <;> simp [h]
  | cons b bs ih =>
    rw [List.map_cons, List.cons_append, Literal.bytes?, ih]
    cases Literal.bytes? rest <;> rfl

/-- The pieces of a character stand for its bytes. -/
theorem bytes?_ofChar (c : Char) (rest : Literal) :
    Literal.bytes? (Literal.ofChar c ++ rest) =
      (Literal.bytes? rest).map (String.utf8EncodeChar c ++ ·) := by
  unfold Literal.ofChar
  split
  · next h =>
    -- a control character is no half of a pair, so its code unit stands alone
    have hhigh : Literal.isHigh c.toNat = false := by
      simp only [Literal.isHigh, Bool.and_eq_false_iff, decide_eq_false_iff_not]
      omega
    have hlow : Literal.isLow c.toNat = false := by
      simp only [Literal.isLow, Bool.and_eq_false_iff, decide_eq_false_iff_not]
      omega
    rw [List.singleton_append, Literal.bytes?.eq_def]
    simp only [hhigh, hlow, Char.ofNat_toNat]
    cases Literal.bytes? rest <;> rfl
  · exact bytes?_bytes _ rest

theorem bytes?_ofText (cs : List Char) :
    Literal.bytes? (cs.flatMap Literal.ofChar) = some (spell cs) := by
  induction cs with
  | nil => rfl
  | cons c cs ih =>
    rw [List.flatMap_cons, bytes?_ofChar, ih]
    rfl

/-- **A written text is read back as itself.** -/
@[simp]
theorem text?_ofText (s : String) : (Literal.ofText s).text? = some s := by
  have hbytes : (spell s.toList).toByteArray = s.toByteArray := by
    rw [← String.utf8Encode_toList]
    rfl
  have hvalid : (spell s.toList).toByteArray.IsValidUTF8 := hbytes ▸ s.isValidUTF8
  simp only [Literal.text?, Literal.ofText, bytes?_ofText, Option.bind_eq_bind, Option.bind_some,
    String.fromUTF8?, hvalid, dif_pos]
  rw [Option.some.injEq, ← String.toByteArray_inj]
  exact hbytes

/-! ## Number literals -/

/-- What a written number is scanned as: its digits, without sign, point or exponent. -/
def Numeral.ofNat (n : Nat) : Numeral := ⟨false, Nat.toDigits 10 n, [], none⟩

/-- What may follow a written value: nothing, a comma or the end of a container. -/
def Closes (rest : List UInt8) : Prop :=
  ∀ b ∈ rest.head?, b = 0x2C ∨ b = 0x5D ∨ b = 0x7D

theorem closes_nil : Closes [] := by simp [Closes]

theorem closes_comma (rest : List UInt8) : Closes (0x2C :: rest) := by simp [Closes]

theorem closes_bracket (rest : List UInt8) : Closes (0x5D :: rest) := by simp [Closes]

theorem closes_brace (rest : List UInt8) : Closes (0x7D :: rest) := by simp [Closes]

/-- Digits are a byte each. -/
theorem spell_digits {cs : List Char} (h : ∀ c ∈ cs, c.isDigit) :
    spell cs = cs.map fun c => UInt8.ofNat c.toNat := by
  induction cs with
  | nil => rfl
  | cons c cs ih =>
    have hc := Text.toNat_le_of_isDigit (h c List.mem_cons_self)
    rw [spell_cons, encode_ascii (by omega), ih fun d hd => h d (List.mem_cons_of_mem c hd)]
    rfl

theorem isDigit_ofNat {c : Char} (h : c.isDigit) : Numeral.isDigit (UInt8.ofNat c.toNat) := by
  have hc := Text.toNat_le_of_isDigit h
  have hn : (UInt8.ofNat c.toNat).toNat = c.toNat := toNat_ofNat (by omega)
  simp only [Numeral.isDigit, Bool.and_eq_true, decide_eq_true_eq, UInt8.le_iff_toNat_le, hn]
  exact hc

/-- The run of digits at the front ends where something else follows. -/
theorem scanDigits_spell {cs : List Char} (h : ∀ c ∈ cs, c.isDigit) {rest : List UInt8}
    (hrest : ∀ b ∈ rest.head?, ¬ Numeral.isDigit b) :
    Numeral.scanDigits (spell cs ++ rest) = (cs, rest) := by
  rw [spell_digits h]
  induction cs with
  | nil =>
    cases rest with
    | nil => rfl
    | cons b rest =>
      have hb := hrest b rfl
      simp [Numeral.scanDigits, hb]
  | cons c cs ih =>
    have hd := isDigit_ofNat (h c List.mem_cons_self)
    have hc := Text.toNat_le_of_isDigit (h c List.mem_cons_self)
    have hback : Char.ofNat (UInt8.ofNat c.toNat).toNat = c := by
      rw [toNat_ofNat (by omega), Char.ofNat_toNat]
    have ih := ih fun d hd => h d (List.mem_cons_of_mem c hd)
    simp only [Numeral.scanDigits, Prod.mk.injEq] at ih ⊢
    rw [List.map_cons, List.cons_append, List.takeWhile_cons_of_pos hd,
      List.dropWhile_cons_of_pos hd, List.map_cons, hback, ih.1]
    exact ⟨rfl, ih.2⟩

/-- Only zero is written with a zero in front. -/
theorem toDigits_head (n : Nat) :
    ∃ c cs, Nat.toDigits 10 n = c :: cs ∧ (c = '0' → n = 0) := by
  induction n using Nat.strongRecOn with
  | _ n ih =>
    by_cases small : n < 10
    · exact ⟨n.digitChar, [], Nat.toDigits_of_lt_base small, Nat.digitChar_eq_zero.mp⟩
    · obtain ⟨c, cs, hcs, hzero⟩ := ih (n / 10) (by omega)
      refine ⟨c, cs ++ [Nat.digitChar (n % 10)], ?_, fun hc => ?_⟩
      · rw [Nat.toDigits_of_base_le (by decide) (by omega), hcs]
        rfl
      · have := hzero hc
        omega

theorem scanWhole_spell (n : Nat) {rest : List UInt8}
    (hrest : ∀ b ∈ rest.head?, ¬ Numeral.isDigit b) :
    Numeral.scanWhole (spell (Nat.toDigits 10 n) ++ rest) = some (Nat.toDigits 10 n, rest) := by
  obtain ⟨c, cs, hcs, hzero⟩ := toDigits_head n
  have hdigit : c.isDigit := Text.isDigit_toDigits c (by rw [hcs]; exact List.mem_cons_self)
  have hc := Text.toNat_le_of_isDigit hdigit
  have hscan := scanDigits_spell (Text.isDigit_toDigits (n := n)) hrest
  -- a zero in front is the whole number, both when it is written and when it is scanned
  by_cases h : c = '0'
  · obtain rfl := hzero h
    rfl
  · rw [hcs] at hscan ⊢
    rw [spell_cons, encode_ascii (by omega)] at hscan ⊢
    have hne : UInt8.ofNat c.toNat ≠ 0x30 := by
      intro he
      have hn : c.toNat = 0x30 := by rw [← toNat_ofNat (n := c.toNat) (by omega), he]; rfl
      exact h (Char.toNat_inj.mp hn)
    simp only [List.cons_append, List.nil_append] at hscan ⊢
    simp only [Numeral.scanWhole, hne, isDigit_ofNat hdigit, hscan, if_false, if_true]

/-- **A written number is scanned as its digits.** -/
theorem scanUnsigned_spell (n : Nat) {rest : List UInt8} (h : Closes rest) :
    Numeral.scanUnsigned false (spell (Nat.toDigits 10 n) ++ rest) =
      some (Numeral.ofNat n, rest) := by
  have hdigit : ∀ b ∈ rest.head?, ¬ Numeral.isDigit b := by
    intro b hb
    rcases h b hb with rfl | rfl | rfl <;> decide
  have hfraction : Numeral.scanFraction rest = some ([], rest) := by
    cases rest with
    | nil => rfl
    | cons b rest => rcases h b rfl with rfl | rfl | rfl <;> rfl
  have hexponent : Numeral.scanExponent rest = some (none, rest) := by
    cases rest with
    | nil => rfl
    | cons b rest => rcases h b rfl with rfl | rfl | rfl <;> rfl
  simp only [Numeral.scanUnsigned, scanWhole_spell n hdigit, hfraction, hexponent,
    Option.bind_eq_bind, Option.bind_some]
  rfl

/-! ## Tokens -/

namespace Value

mutual

/-- The tokens a value is written with. -/
def tokens : Value → List Token
  | .bool b => [.bool b]
  | .number n => [.number (.ofNat n)]
  | .text s => [.string (.ofText s)]
  | .array items => .openBracket :: (itemTokens items ++ [.closeBracket])
  | .object members => .openBrace :: (memberTokens members ++ [.closeBrace])

/-- The tokens of the items of an array, with commas between them. -/
def itemTokens : List Value → List Token
  | [] => []
  | [item] => tokens item
  | item :: rest => tokens item ++ .comma :: itemTokens rest

/-- The tokens of the members of an object, with commas between them. -/
def memberTokens : List (String × Value) → List Token
  | [] => []
  | [(name, value)] => .string (.ofText name) :: .colon :: tokens value
  | (name, value) :: rest =>
    .string (.ofText name) :: .colon :: (tokens value ++ .comma :: memberTokens rest)

end

end Value

/-- A token that starts with a byte, and then the tokens of what it leaves. -/
theorem lex_cons {b : UInt8} {bytes left : List UInt8} {token : Token} {tokens : List Token}
    (space : Token.isSpace b = false) (next : Token.next b bytes = some (token, left))
    (h : Token.lex left = some tokens) : Token.lex (b :: bytes) = some (token :: tokens) := by
  rw [Token.lex]
  simp only [space, Bool.false_eq_true, if_false]
  split
  · next hnone => simp [next] at hnone
  · next token' left' hsome =>
    rw [next, Option.some.injEq, Prod.mk.injEq] at hsome
    obtain ⟨rfl, rfl⟩ := hsome
    rw [h]
    rfl

/-- A mark is a token of its own. -/
theorem lex_mark (b : UInt8) (mark : Token) {rest : List UInt8} {tokens : List Token}
    (space : Token.isSpace b = false) (hmark : Token.mark? b = some mark)
    (h : Token.lex rest = some tokens) : Token.lex (b :: rest) = some (mark :: tokens) := by
  refine lex_cons space ?_ h
  rw [Token.next, hmark]

/-- A written text is one token. -/
theorem lex_string (s : String) {rest : List UInt8} {tokens : List Token}
    (h : Token.lex rest = some tokens) :
    Token.lex (spell (Value.string s).toList ++ rest) =
      some (.string (.ofText s) :: tokens) := by
  have hspell : spell (Value.string s).toList ++ rest =
      0x22 :: (spell (s.toList.flatMap Value.escape) ++ 0x22 :: rest) := by
    rw [Value.string, String.toList_ofList, spell_append, List.append_assoc]
    rfl
  rw [hspell]
  refine lex_cons (by decide) ?_ h
  simp only [Token.next, show Token.mark? 0x22 = none by decide, scan_text, if_true,
    Option.bind_eq_bind, Option.bind_some]
  rfl

/-- A written number is one token. -/
theorem lex_number (n : Nat) {rest : List UInt8} (closes : Closes rest) {tokens : List Token}
    (h : Token.lex rest = some tokens) :
    Token.lex (spell (toString n).toList ++ rest) = some (.number (.ofNat n) :: tokens) := by
  have hscan := scanUnsigned_spell n closes
  obtain ⟨c, cs, hcs, -⟩ := toDigits_head n
  have hdigit : c.isDigit := Text.isDigit_toDigits c (by rw [hcs]; exact List.mem_cons_self)
  have hc := Text.toNat_le_of_isDigit hdigit
  have hb := toNat_ofNat (n := c.toNat) (by omega)
  -- the first byte is a digit, hence neither space nor a mark nor the start of anything else
  have ne : ∀ b : UInt8, (b.toNat < 0x30 ∨ 0x39 < b.toNat) → UInt8.ofNat c.toNat ≠ b := by
    rintro b hr rfl
    omega
  have space : Token.isSpace (UInt8.ofNat c.toNat) = false := by
    simp only [Token.isSpace, ne 0x20 (by decide), ne 0x09 (by decide), ne 0x0A (by decide),
      ne 0x0D (by decide), decide_false, Bool.or_self]
  have nomark : Token.mark? (UInt8.ofNat c.toNat) = none := by
    simp only [Token.mark?, ne 0x7B (by decide), ne 0x7D (by decide), ne 0x5B (by decide),
      ne 0x5D (by decide), ne 0x2C (by decide), ne 0x3A (by decide), if_false]
  rw [Nat.toString_eq_ofList_toDigits, String.toList_ofList, hcs]
  rw [hcs] at hscan
  rw [spell_cons, encode_ascii (by omega)] at hscan ⊢
  simp only [List.cons_append, List.nil_append] at hscan ⊢
  refine lex_cons space ?_ h
  simp only [Token.next, nomark, ne 0x22 (by decide), ne 0x2D (by decide), isDigit_ofNat hdigit,
    hscan, if_false, if_true, Option.bind_eq_bind, Option.bind_some]

/-- A written truth value is one token. -/
theorem lex_bool (b : Bool) {rest : List UInt8} {tokens : List Token}
    (h : Token.lex rest = some tokens) :
    Token.lex (spell (Value.render (.bool b)).toList ++ rest) = some (.bool b :: tokens) := by
  cases b with
  | true => exact lex_cons (show Token.isSpace 0x74 = false by decide) rfl h
  | false => exact lex_cons (show Token.isSpace 0x66 = false by decide) rfl h

mutual

/-- **A written value is cut into its tokens**, whatever follows it. -/
theorem lex_render : ∀ (v : Value) {rest : List UInt8} {tokens : List Token}, Closes rest →
    Token.lex rest = some tokens →
    Token.lex (spell v.render.toList ++ rest) = some (v.tokens ++ tokens)
  | .bool b, _, _, _, h => lex_bool b h
  | .number n, _, _, closes, h => by
    rw [Value.render, Value.tokens]
    exact lex_number n closes h
  | .text s, _, _, _, h => by
    rw [Value.render, Value.tokens]
    exact lex_string s h
  | .array items, rest, tokens, _, h => by
    -- from the back: the closing bracket, the items in front of it, the opening one
    have inner := lex_renderItems items (closes_bracket rest)
      (lex_mark 0x5D .closeBracket (by decide) rfl h)
    have outer := lex_mark 0x5B .openBracket (by decide) rfl inner
    rw [Value.render, Value.tokens, String.toList_append, String.toList_append, spell_append,
      spell_append, List.append_assoc, List.append_assoc, List.cons_append, List.append_assoc]
    exact outer
  | .object members, rest, tokens, _, h => by
    have inner := lex_renderMembers members (closes_brace rest)
      (lex_mark 0x7D .closeBrace (by decide) rfl h)
    have outer := lex_mark 0x7B .openBrace (by decide) rfl inner
    rw [Value.render, Value.tokens, String.toList_append, String.toList_append, spell_append,
      spell_append, List.append_assoc, List.append_assoc, List.cons_append, List.append_assoc]
    exact outer

theorem lex_renderItems : ∀ (items : List Value) {rest : List UInt8} {tokens : List Token},
    Closes rest → Token.lex rest = some tokens →
    Token.lex (spell (Value.renderItems items).toList ++ rest) =
      some (Value.itemTokens items ++ tokens)
  | [], _, _, _, h => h
  | [item], _, _, closes, h => lex_render item closes h
  | item :: next :: items, rest, tokens, closes, h => by
    have inner := lex_renderItems (next :: items) closes h
    have comma := lex_mark 0x2C .comma (by decide) rfl inner
    have outer := lex_render item (closes_comma _) comma
    have hrender : Value.renderItems (item :: next :: items) =
      item.render ++ "," ++ Value.renderItems (next :: items) := rfl
    have htokens : Value.itemTokens (item :: next :: items) =
      item.tokens ++ .comma :: Value.itemTokens (next :: items) := rfl
    rw [hrender, htokens, String.toList_append, String.toList_append, spell_append, spell_append,
      List.append_assoc, List.append_assoc, List.append_assoc, List.cons_append]
    exact outer

theorem lex_renderMembers : ∀ (members : List (String × Value)) {rest : List UInt8}
    {tokens : List Token}, Closes rest → Token.lex rest = some tokens →
    Token.lex (spell (Value.renderMembers members).toList ++ rest) =
      some (Value.memberTokens members ++ tokens)
  | [], _, _, _, h => h
  | [(name, value)], rest, tokens, closes, h => by
    have inner := lex_render value closes h
    have colon := lex_mark 0x3A .colon (by decide) rfl inner
    have outer := lex_string name colon
    have hrender : Value.renderMembers [(name, value)] =
      Value.string name ++ ":" ++ value.render := rfl
    rw [hrender, Value.memberTokens, String.toList_append, String.toList_append, spell_append,
      spell_append, List.append_assoc, List.append_assoc]
    exact outer
  | (name, value) :: next :: members, rest, tokens, closes, h => by
    have inner := lex_renderMembers (next :: members) closes h
    have comma := lex_mark 0x2C .comma (by decide) rfl inner
    have middle := lex_render value (closes_comma _) comma
    have colon := lex_mark 0x3A .colon (by decide) rfl middle
    have outer := lex_string name colon
    have hrender : Value.renderMembers ((name, value) :: next :: members) =
      Value.string name ++ ":" ++ value.render ++ "," ++ Value.renderMembers (next :: members) :=
      rfl
    have htokens : Value.memberTokens ((name, value) :: next :: members) =
      .string (.ofText name) :: .colon ::
        (value.tokens ++ .comma :: Value.memberTokens (next :: members)) := rfl
    rw [hrender, htokens]
    simp only [String.toList_append, spell_append, List.append_assoc, List.cons_append]
    exact outer

end

end Admission.Json

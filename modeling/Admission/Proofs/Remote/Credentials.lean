/-
# Admission.Proofs.Remote.Credentials — a password on its way

The settings of a shared store reach its client as a URL, which the client takes apart again. What was put
in should come out: the password, the site of the server, and the database (`Address.Arrives`).

Site and database have no character in them that holds the parts of a URL apart, but a password may have any,
and is written as it is. So it arrives exactly if it also reads as it is written (`Url.isPlain`). A slash, a
question mark or a number sign ends the authority, and what was meant for the password ends with it. A
percent sign with two hexadecimal digits behind it stands for a byte. Nothing else matters: the at signs of a
password are not the last one, and its colons are not the first.

That a password is lost is told by counting. What is read in its place is part of the text before the end of
the authority (`Url.sublist_of_password?`), and decoding never makes more bytes of it
(`Percent.length_decode_le`).
-/
import Admission.Proofs.Duration.Text
import Admission.Proofs.Json.Lexing
import Admission.Proofs.Remote.Script
import Admission.Remote.Address
import Admission.Remote.Url
import Mathlib.Data.List.Flatten

namespace Admission

/-! ## What decodes to itself -/

namespace Text.Percent

open Json (spell spell_cons)

/-- Whether a text begins with a percent sign and two hexadecimal digits. -/
def opensEscape : List Char → Bool
  | '%' :: a :: b :: _ => (hexDigit? a).isSome && (hexDigit? b).isSome
  | _ => false

/-- Whether there is a percent sign with two hexadecimal digits behind it anywhere in a text. -/
def escaped : List Char → Bool
  | [] => false
  | c :: rest => opensEscape (c :: rest) || escaped rest

theorem escaped_cons {c : Char} {rest : List Char} (closed : opensEscape (c :: rest) = false) :
    escaped (c :: rest) = escaped rest := by
  rw [escaped, closed, Bool.false_or]

theorem length_encode_pos (c : Char) : 0 < (String.utf8EncodeChar c).length := by
  rw [String.length_utf8EncodeChar]
  exact c.utf8Size_pos

/-- Decoding never makes more bytes of a text than it has. -/
theorem length_decode_le (cs : List Char) : (decode cs).length ≤ (spell cs).length := by
  fun_induction decode cs with
  | case1 => exact Nat.le_refl 0
  | case2 a b rest high low _ _ ih =>
    have sign := length_encode_pos '%'
    simp only [spell_cons, List.length_append, List.length_cons]
    omega
  | case3 a b rest _ ih | case4 c rest _ ih =>
    rw [spell_cons, List.length_append, List.length_append]
    exact Nat.add_le_add_left ih _

/-- **A text decodes to its own bytes** exactly if nothing in it is encoded. -/
theorem decode_eq_spell_iff (cs : List Char) : decode cs = spell cs ↔ escaped cs = false := by
  fun_induction decode cs with
  | case1 => exact iff_of_true rfl rfl
  | case2 a b rest high low _ _ ih =>
    refine iff_of_false (fun same => ?_) (by simp [escaped, opensEscape, *])
    -- one byte stands in the place of three
    have shorter := length_decode_le rest
    have sign := length_encode_pos '%'
    have first := length_encode_pos a
    have lengths := congrArg List.length same
    simp only [spell_cons, List.length_append, List.length_cons] at lengths
    omega
  | case3 a b rest undigit ih =>
    have closed : opensEscape ('%' :: a :: b :: rest) = false := by
      rw [opensEscape, Bool.and_eq_false_iff]
      cases high : hexDigit? a with
      | none => exact .inl rfl
      | some high' =>
        cases low : hexDigit? b with
        | none => exact .inr rfl
        | some low' => exact (undigit high' low' high low).elim
    rw [spell_cons, List.append_right_inj, ih, escaped_cons closed]
  | case4 c rest unsigned ih =>
    have closed : opensEscape (c :: rest) = false := by
      rw [opensEscape.eq_def]
      split
      · next same =>
        cases same
        exact (unsigned _ _ _ rfl rfl).elim
      · rfl
    rw [spell_cons, List.append_right_inj, ih, escaped_cons closed]

/-- A text is read out of its own bytes, and out of no others. -/
theorem fromUTF8?_eq_some_iff {bytes : ByteArray} {s : String} :
    String.fromUTF8? bytes = some s ↔ bytes = s.toUTF8 := by
  constructor
  · intro read
    rw [String.fromUTF8?] at read
    split at read
    · cases read
      rfl
    · cases read
  · rintro rfl
    exact Remote.Script.fromUTF8?_toUTF8 s

/-- **What a text is decoded to**, by its bytes. -/
theorem decodeText?_eq_some_iff {cs : List Char} {s : String} :
    decodeText? cs = some s ↔ decode cs = spell s.toList := by
  rw [decodeText?, fromUTF8?_eq_some_iff, ← Json.toUTF8_data_toList]
  constructor
  · intro same
    rw [← same]
  · intro same
    rw [same]

end Text.Percent

/-! ## What a delimiter leaves -/

namespace Text

variable {delimiter : Char}

/-- The last delimiter ends the front. -/
theorem cutLast?_append {back : List Char} (h : delimiter ∉ back) (front : List Char) :
    cutLast? delimiter (front ++ delimiter :: back) = (some front, back) := by
  have reversed : delimiter ∉ back.reverse := by rwa [List.mem_reverse]
  rw [cutLast?, List.reverse_append, List.reverse_cons, List.append_assoc, List.singleton_append,
    cut_append reversed]
  simp only [Option.map_some, List.reverse_reverse]

/-- What follows the first delimiter is part of the text, and so is the delimiter. -/
theorem sublist_of_cut {cs back : List Char} (found : (cut delimiter cs).2 = some back) :
    (delimiter :: back).Sublist cs := by
  induction cs with
  | nil => cases found
  | cons c rest ih =>
    rw [cut] at found
    split at found
    · next same =>
      cases found
      subst same
      exact .refl _
    · exact (ih found).cons c

/-- What stands before the last delimiter is part of the text. -/
theorem sublist_of_cutLast? {cs front : List Char} (found : (cutLast? delimiter cs).1 = some front) :
    front.Sublist cs := by
  obtain ⟨reversed, cut, rfl⟩ := Option.map_eq_some_iff.mp found
  rw [← List.reverse_sublist, List.reverse_reverse]
  exact (List.sublist_cons_self _ _).trans (sublist_of_cut cut)

/-- What is taken of a text is part of what stands before a character that is not. -/
theorem takeWhile_sublist {p : Char → Bool} {c : Char} (stops : p c = false) (front back : List Char) :
    ((front ++ c :: back).takeWhile p).Sublist front := by
  rw [List.takeWhile_append]
  split
  · simp [stops]
  · exact List.takeWhile_sublist p

end Text

namespace Remote

/-! ## The parts of a URL -/

namespace Url

/-- A text with the scheme in front is always taken apart. -/
theorem read?_scheme (rest : List Char) : read? ("redis://".toList ++ rest) =
    let authority := Text.cutLast? '@' (rest.takeWhile (!endsAuthority ·))
    let unmarked := Text.cut '#' (rest.dropWhile (!endsAuthority ·))
    let path := Text.cut '?' unmarked.1
    some ⟨authority.1, authority.2, path.1, path.2⟩ := rfl

/-- **The password** that is read is part of the authority, and a colon stands before it. -/
theorem sublist_of_password? {rest : List Char} {u : Url}
    (read : read? ("redis://".toList ++ rest) = some u) {written : List Char}
    (given : u.password? = some written) :
    (':' :: written).Sublist (rest.takeWhile (!endsAuthority ·)) := by
  rw [read?_scheme] at read
  cases read
  obtain ⟨credentials, cut, found⟩ := Option.bind_eq_some_iff.mp (Option.filter_eq_some_iff.mp given).1
  exact (Text.sublist_of_cut found).trans (Text.sublist_of_cutLast? cut)

/-- All that stands behind the first colon is the password. -/
theorem password?_behind_colon {written site path : List Char} {query : Option (List Char)}
    (nonempty : written ≠ []) :
    password? ⟨some (':' :: written), site, path, query⟩ = some written := by
  rw [password?, Option.bind_some, Text.cut, if_pos rfl, Option.filter_some, if_pos]
  exact decide_eq_true nonempty

/-- **The parts of a URL** that were put together are found again, if none of them has a character in it
that would end it. -/
theorem read?_parts {credentials site path : List Char}
    (secret : ∀ c ∈ credentials, endsAuthority c = false) (bare : ∀ c ∈ site, endsAuthority c = false)
    (last : '@' ∉ site) (unmarked : '#' ∉ path) (unasked : '?' ∉ path) :
    read? ("redis://".toList ++ (credentials ++ '@' :: (site ++ '/' :: path))) =
      some ⟨some credentials, site, '/' :: path, none⟩ := by
  have authority : ∀ c ∈ credentials ++ '@' :: site, (!endsAuthority c) = true := by
    intro c hc
    rw [Bool.not_eq_true']
    rcases List.mem_append.mp hc with hc | hc
    · exact secret c hc
    · rcases List.mem_cons.mp hc with rfl | hc
      · rfl
      · exact bare c hc
  have slash : ∀ c ∈ ('/' :: path).head?, (!endsAuthority c) = false := by
    rintro c ⟨⟩
    rfl
  obtain ⟨front, back⟩ := Duration.takeWhile_run authority slash
  rw [List.append_assoc, List.cons_append] at front back
  have unmarked' : '#' ∉ '/' :: path := List.not_mem_cons_of_ne_of_not_mem (by decide) unmarked
  have unasked' : '?' ∉ '/' :: path := List.not_mem_cons_of_ne_of_not_mem (by decide) unasked
  simp only [read?_scheme, front, back, Text.cutLast?_append last, Text.cut_eq_self unmarked',
    Text.cut_eq_self unasked']

/-- Whether a password in a URL reads as it is written. -/
def isPlain (password : List Char) : Bool :=
  password.all (!endsAuthority ·) && !Text.Percent.escaped password

end Url

namespace Address

/-! ## Settings with a password -/

/-- An address names a site, which is a host with a port. The scheme may stand in front of it, and slashes
behind it. -/
structure Names (address : String) (site : List Char) : Prop where
  /-- The site is all there is but for the scheme and the slashes. -/
  written : ∃ scheme ∈ ["", "redis://"], ∃ slashes,
    address.toList = scheme.toList ++ (site ++ List.replicate slashes '/')
  /-- There is a port. -/
  port : ∃ host port, site = host ++ ':' :: port ∧ port ≠ []
  /-- No character of it holds the parts of a URL apart. -/
  bare : ∀ c ∈ site, c ∉ ['/', '@', '?', '#']

variable {a : Address} {site : List Char}

/-- The last of these as a test, which is made character by character. -/
theorem bare_of_test (test : site.all (· ∉ ['/', '@', '?', '#']) = true) :
    ∀ c ∈ site, c ∉ ['/', '@', '?', '#'] := by
  simpa only [List.all_eq_true, decide_eq_true_iff] using test

/-- A site does not end the authority. -/
theorem Names.endsAuthority {address : String} (named : Names address site) :
    ∀ c ∈ site, Url.endsAuthority c = false := by
  intro c hc
  have bare := named.bare c hc
  simp only [List.mem_cons, not_or] at bare
  simp [Url.endsAuthority, bare]

theorem dropSlashes_replicate (bare : '/' ∉ site) (slashes : Nat) :
    dropSlashes (site ++ List.replicate slashes '/') = site := by
  have all : ∀ c ∈ List.replicate slashes '/', decide (c = '/') = true := by
    intro c hc
    rw [List.eq_of_mem_replicate hc]
    rfl
  have other : ∀ c ∈ site.reverse.head?, decide (c = '/') = false := by
    intro c hc
    rw [decide_eq_false_iff_not]
    rintro rfl
    exact bare (List.mem_reverse.mp (List.mem_of_mem_head? hc))
  rw [dropSlashes, List.reverse_append, List.reverse_replicate, (Duration.takeWhile_run all other).2,
    List.reverse_reverse]

/-- A site with slashes behind it does not look like the scheme. -/
theorem dropSchemes_site (ported : ∃ host port, site = host ++ ':' :: port ∧ port ≠ [])
    (bare : '/' ∉ site) (slashes : Nat) :
    dropSchemes (site ++ List.replicate slashes '/') = site ++ List.replicate slashes '/' := by
  rw [dropSchemes.eq_def]
  split
  · next rest scheme =>
    have all : ∀ c ∈ site, decide (c ≠ '/') = true := by
      intro c hc
      rw [decide_eq_true_iff]
      rintro rfl
      exact bare hc
    have other : ∀ c ∈ (List.replicate slashes '/').head?, decide (c ≠ '/') = false := by
      intro c hc
      rw [List.eq_of_mem_replicate (List.mem_of_mem_head? hc)]
      rfl
    have first := (Duration.takeWhile_run all other).1
    rw [scheme] at first
    change ['r', 'e', 'd', 'i', 's', ':'] = site at first
    obtain ⟨host, port, rfl, nonempty⟩ := ported
    -- the colon of the scheme is its last character, and that of a site is not
    have colon : ':' ∈ (host ++ ':' :: port).dropLast := by
      rw [List.dropLast_append_of_ne_nil (List.cons_ne_nil _ _), List.dropLast_cons_of_ne_nil nonempty]
      exact List.mem_append_right _ List.mem_cons_self
    rw [← first] at colon
    exact absurd colon (by decide)
  · rfl

/-- **The server** is the site that the address names. -/
theorem Names.server_eq (named : Names a.address site) : a.server = String.ofList site := by
  obtain ⟨⟨scheme, known, slashes, written⟩, port, bare⟩ := named
  have unslashed : '/' ∉ site := fun hc => bare _ hc (by decide)
  have alone := dropSchemes_site port unslashed slashes
  have unschemed : dropSchemes a.address.toList = site ++ List.replicate slashes '/' := by
    rw [written]
    rcases List.mem_cons.mp known with rfl | known
    · exact alone
    · obtain rfl := List.mem_singleton.mp known
      exact alone
  rw [Address.server, unschemed, dropSlashes_replicate unslashed]

/-- The number of a database is written with digits, and maybe a sign. -/
theorem isDigit_or_sign (db : Int) : ∀ c ∈ (toString db).toList, c.isDigit = true ∨ c = '-' := by
  intro c hc
  cases db with
  | ofNat n => exact .inl (Text.isDigit_toString n c hc)
  | negSucc n =>
    have written : toString (Int.negSucc n) = "-" ++ toString (n + 1) := rfl
    rw [written, String.toList_append] at hc
    rcases List.mem_append.mp hc with sign | digit
    · exact .inr (List.mem_singleton.mp sign)
    · exact .inl (Text.isDigit_toString _ c digit)

/-! ## What arrives -/

/-- A client that takes the URL apart finds what was put in: the password, once it is decoded, the site, and
the database behind the slash. -/
def Arrives (a : Address) (password : String) (site : List Char) : Prop :=
  ∃ u, Url.read? a.url.toList = some u ∧
    u.password?.bind Text.Percent.decodeText? = some password ∧ u.site = site ∧
    u.path.drop 1 = (toString a.db).toList

section

variable {password : String} (given : a.password = some password) (nonempty : password ≠ "")
  (named : Names a.address site)

include given nonempty named

/-- The URL of such settings, character by character. -/
theorem toList_url : a.url.toList =
    "redis://".toList ++ (':' :: password.toList ++ '@' :: (site ++ '/' :: (toString a.db).toList)) := by
  have kept : a.secret? = some password := by
    rw [secret?, given, Option.filter_some, if_pos]
    exact decide_eq_true nonempty
  simp only [url, kept, named.server_eq, String.toList_append, String.toList_ofList, List.append_assoc]
  rfl

/-- **A password that does not end the authority** is read as it is, and then decoded. -/
theorem arrives_iff_of_bare (bare : ∀ c ∈ password.toList, Url.endsAuthority c = false) :
    a.Arrives password site ↔ Text.Percent.escaped password.toList = false := by
  have credentials : ∀ c ∈ ':' :: password.toList, Url.endsAuthority c = false :=
    List.forall_mem_cons.mpr ⟨rfl, bare⟩
  have number := isDigit_or_sign a.db
  have parts := Url.read?_parts credentials named.endsAuthority (fun hc => named.bare _ hc (by decide))
    (fun hc => absurd (number _ hc) (by decide)) (fun hc => absurd (number _ hc) (by decide))
  rw [← toList_url given nonempty named] at parts
  have written : password.toList ≠ [] := by
    rwa [ne_eq, String.toList_eq_nil_iff]
  rw [← Text.Percent.decode_eq_spell_iff, ← Text.Percent.decodeText?_eq_some_iff]
  constructor
  · rintro ⟨u, read, decoded, -, -⟩
    rw [parts] at read
    cases read
    rwa [Url.password?_behind_colon written] at decoded
  · intro decoded
    refine ⟨_, parts, ?_, rfl, rfl⟩
    rwa [Url.password?_behind_colon written]

/-- **A password that ends the authority** is lost: what is read in its place has fewer bytes. -/
theorem not_arrives_of_ends {c : Char} (there : c ∈ password.toList) (ends : Url.endsAuthority c = true) :
    ¬ a.Arrives password site := by
  rintro ⟨u, read, arrived, -, -⟩
  obtain ⟨written, found, decoded⟩ := Option.bind_eq_some_iff.mp arrived
  obtain ⟨front, back, parts⟩ := List.append_of_mem there
  rw [toList_url given nonempty named, parts] at read
  have kept : (':' :: written).Sublist (':' :: front) := by
    refine (Url.sublist_of_password? read found).trans ?_
    have stops : (!Url.endsAuthority c) = false := by rw [ends]; rfl
    simpa using Text.takeWhile_sublist stops (':' :: front) _
  have fewer : (Json.spell written).length ≤ (Json.spell front).length :=
    ((List.cons_sublist_cons.mp kept).flatMap String.utf8EncodeChar).length_le
  have bytes := Text.Percent.decodeText?_eq_some_iff.mp decoded
  have lost : (Json.spell front).length < (Json.spell password.toList).length := by
    have end_pos := Text.Percent.length_encode_pos c
    rw [parts, Json.spell_append, Json.spell_cons, List.length_append, List.length_append]
    omega
  exact absurd lost <| Nat.not_lt.mpr <| calc
    (Json.spell password.toList).length = (Text.Percent.decode written).length := by rw [bytes]
    _ ≤ (Json.spell written).length := Text.Percent.length_decode_le written
    _ ≤ (Json.spell front).length := fewer

/-- **Which passwords arrive**: exactly those that read as they are written. With them arrive the site and
the database. -/
theorem arrives_iff_plain : a.Arrives password site ↔ Url.isPlain password.toList = true := by
  simp only [Url.isPlain, Bool.and_eq_true, Bool.not_eq_true', List.all_eq_true]
  by_cases bare : ∀ c ∈ password.toList, Url.endsAuthority c = false
  · rw [arrives_iff_of_bare given nonempty named bare, and_iff_right bare]
  · refine iff_of_false ?_ fun plain => bare plain.1
    simp only [not_forall, Bool.not_eq_false] at bare
    obtain ⟨c, there, ends⟩ := bare
    exact not_arrives_of_ends given nonempty named there ends

end

/-- The colon, the at sign and the lone percent sign of a password do no harm; an encoded space does. -/
theorem arrives_iff_plain_of_signs :
    let plain : Address :=
      { ofServer "redis://cache.internal:6379/" with password := some "a:b@c%2", db := 2 }
    let encoded : Address := { plain with password := some "a%20b" }
    let site := "cache.internal:6379".toList
    (Names plain.address site ∧ Names encoded.address site) ∧
      plain.Arrives "a:b@c%2" site ∧ ¬ encoded.Arrives "a%20b" site := by
  intro plain encoded site
  have named : Names "redis://cache.internal:6379/" site := by
    refine ⟨⟨"redis://", by decide, 1, by decide⟩, ?_, bare_of_test (by decide)⟩
    exact ⟨"cache.internal".toList, "6379".toList, by decide, by decide⟩
  have arrives : plain.Arrives "a:b@c%2" site ↔ _ := arrives_iff_plain rfl (by decide) named
  have lost : encoded.Arrives "a%20b" site ↔ _ := arrives_iff_plain rfl (by decide) named
  refine ⟨⟨named, named⟩, arrives.mpr (by decide), ?_⟩
  rw [lost]
  decide

/-- **A slash is enough** for a password to be lost: of this one nothing is found, and its first half is
taken for the site. -/
theorem password_lost : ¬ ∀ (a : Address) (password : String) (site : List Char),
    a.password = some password → password ≠ "" → Names a.address site → a.Arrives password site := by
  intro all
  let a : Address := { default with password := some "s3/cret" }
  have named : Names a.address "localhost:6379".toList := by
    refine ⟨⟨"", by decide, 0, by decide⟩, ?_, bare_of_test (by decide)⟩
    exact ⟨"localhost".toList, "6379".toList, by decide, by decide⟩
  have read : Url.read? a.url.toList =
      some ⟨none, ":s3".toList, "/cret@localhost:6379/0".toList, none⟩ := by decide +kernel
  obtain ⟨u, read', decoded, -⟩ := all a "s3/cret" _ rfl (by decide) named
  have found : u.password? = none := by
    rw [← Option.some.inj (read.symm.trans read')]
    rfl
  rw [found] at decoded
  cases decoded

end Address

end Remote

end Admission

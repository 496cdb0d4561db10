/-
# Admission.Proofs.Codec — a stored state is read back as itself

A state whose numbers are within the ceiling (`State.Bounded`) survives being written and read:
`decode_encode`. So two such states are stored as the same bytes only if they are the same
(`encode_injective`), which is what makes a comparison of bytes a comparison of states. What is read
is always bounded, whatever the bytes were (`decodeBucket_bounded`, `decodeLog_bounded`).

The state of one algorithm is never taken for that of the other: whoever reads it is told whose state it
is (`decodeLog_encode_bucket`, `decodeBucket_encode_log`).
-/
import Admission.Proofs.Json.Reading
import Admission.Proofs.Store.Present
import Admission.State

namespace Admission

/-- A bucket whose numbers are within the ceiling. -/
structure Bucket.Bounded (b : Bucket) : Prop where
  /-- The tokens are. -/
  tokens_le : b.tokens ≤ Word.last
  /-- The instant is. -/
  refilledAt_le : b.refilledAt ≤ Word.last

/-- A log whose instants are within the ceiling. -/
def Log.Bounded (l : Log) : Prop := ∀ t ∈ l.instants, t ≤ Word.last

/-- A state whose numbers are within the ceiling. -/
def State.Bounded : State → Prop
  | .bucket b => b.Bounded
  | .log l => l.Bounded

namespace State

open Json

/-! ## Reading what was written -/

theorem bucketOfJson?_toJson {b : Bucket} (h : b.Bounded) :
    bucketOfJson? (.object [(.ofText "tokens", .number (.ofNat b.tokens)),
      (.ofText "last_refill_ms", .number (.ofNat b.refilledAt))]) = some b := by
  simp [bucketOfJson?, Tree.fields?, Tree.members?, Tree.member?, Field.required,
    count?_number h.tokens_le, count?_number h.refilledAt_le]

theorem logOfJson?_toJson {l : Log} (h : l.Bounded) :
    logOfJson? (.object [(.ofText "timestamps",
      .array (Value.itemTrees (l.instants.map .number)))]) = some l := by
  simp [logOfJson?, Tree.fields?, Tree.members?, Tree.member?, Field.required, Tree.list?,
    mapM_count? h]

theorem ofJson?_toJson {s : State} (h : s.Bounded) : ofJson? s.toJson.tree = some s := by
  cases s with
  | bucket b =>
    have hread := bucketOfJson?_toJson h
    have kept₁ := kept_number (Bucket.Bounded.tokens_le h) (Tree.maxLevels - 1)
    have kept₂ := kept_number (Bucket.Bounded.refilledAt_le h) (Tree.maxLevels - 1)
    simp [ofJson?, toJson, Value.tree, Value.memberTrees, Tree.tagged?, Tree.members?,
      Tree.member?, Tree.text?, algorithm, Algorithm.toJson, Algorithm.name, Algorithm.ofName?,
      kept₁, kept₂, hread]
  | log l =>
    have hread := logOfJson?_toJson h
    have kept : Tree.kept (Tree.maxLevels - 1)
        (.array (Value.itemTrees (l.instants.map .number))) = true :=
      kept_items h (Tree.maxLevels - 2)
    simp [ofJson?, toJson, Value.tree, Value.memberTrees, Tree.tagged?, Tree.members?,
      Tree.member?, Tree.text?, algorithm, Algorithm.toJson, Algorithm.name, Algorithm.ofName?,
      kept, hread]

/-- **A bounded state is read back as itself.** -/
theorem decode_encode {s : State} (h : s.Bounded) : decode s.encode = .ok s := by
  rw [decode, encode, parse_render, Option.bind_some, ofJson?_toJson h]

/-- Bounded states that are stored as the same bytes are the same. -/
theorem encode_injective {s t : State} (hs : s.Bounded) (ht : t.Bounded)
    (h : s.encode = t.encode) : s = t := by
  have hdecode := decode_encode hs
  rw [h, decode_encode ht, Except.ok.injEq] at hdecode
  exact hdecode.symm

theorem decodeBucket_encode {b : Bucket} (h : b.Bounded) :
    decodeBucket (State.bucket b).encode = .ok b := by
  rw [decodeBucket, decode_encode (s := .bucket b) h]
  rfl

theorem decodeLog_encode {l : Log} (h : l.Bounded) :
    decodeLog (State.log l).encode = .ok l := by
  rw [decodeLog, decode_encode (s := .log l) h]
  rfl

/-- A bucket is not taken for a log. -/
theorem decodeLog_encode_bucket {b : Bucket} (h : b.Bounded) :
    decodeLog (State.bucket b).encode = .error (.mismatch .slidingWindow .tokenBucket) := by
  rw [decodeLog, decode_encode (s := .bucket b) h]
  rfl

/-- A log is not taken for a bucket. -/
theorem decodeBucket_encode_log {l : Log} (h : l.Bounded) :
    decodeBucket (State.log l).encode = .error (.mismatch .tokenBucket .slidingWindow) := by
  rw [decodeBucket, decode_encode (s := .log l) h]
  rfl

/-! ## What was read is bounded -/

theorem required_count?_le {field : Option Tree} {n : Nat}
    (h : Field.required Tree.count? field = some n) : n ≤ Word.last := by
  cases field with
  | none => simp [Field.required] at h
  | some t => exact count?_le h

theorem bucketOfJson?_bounded {t : Tree} {b : Bucket} (h : bucketOfJson? t = some b) :
    b.Bounded := by
  simp only [bucketOfJson?, Option.bind_eq_bind, Option.bind_eq_some_iff] at h
  obtain ⟨fields, -, h⟩ := h
  split at h
  · simp only [Option.bind_eq_some_iff, Option.pure_def, Option.some.injEq] at h
    obtain ⟨tokens, htokens, refilledAt, hrefilledAt, rfl⟩ := h
    exact ⟨required_count?_le htokens, required_count?_le hrefilledAt⟩
  · cases h

theorem mapM_count?_le {ts : List Tree} {ns : List Nat} (h : ts.mapM Tree.count? = some ns) :
    ∀ n ∈ ns, n ≤ Word.last := by
  induction ts generalizing ns with
  | nil =>
    cases h
    simp
  | cons t ts ih =>
    simp only [List.mapM_cons, Option.bind_eq_bind, Option.bind_eq_some_iff, Option.pure_def,
      Option.some.injEq] at h
    obtain ⟨n, hn, ns', hns, rfl⟩ := h
    intro m hm
    rcases List.mem_cons.mp hm with rfl | hm
    · exact count?_le hn
    · exact ih hns m hm

theorem logOfJson?_bounded {t : Tree} {l : Log} (h : logOfJson? t = some l) : l.Bounded := by
  simp only [logOfJson?, Option.bind_eq_bind, Option.bind_eq_some_iff] at h
  obtain ⟨fields, -, h⟩ := h
  split at h
  · next instants =>
    simp only [Option.bind_eq_some_iff, Option.pure_def, Option.some.injEq] at h
    obtain ⟨ns, hns, rfl⟩ := h
    cases instants with
    | none => simp [Field.required] at hns
    | some t =>
      cases t with
      | array items => exact mapM_count?_le hns
      | _ => simp [Field.required, Tree.list?] at hns
  · cases h

/-- Whatever bytes were read as a state, the state is bounded. -/
theorem decode_bounded {bytes : ByteArray} {s : State} (h : decode bytes = .ok s) :
    s.Bounded := by
  simp only [decode] at h
  split at h
  · next s' hs =>
    cases h
    obtain ⟨t, -, ht⟩ := Option.bind_eq_some_iff.mp hs
    simp only [ofJson?, Option.bind_eq_bind, Option.bind_eq_some_iff] at ht
    obtain ⟨⟨name, rest⟩, -, a, -, hstate⟩ := ht
    cases a with
    | tokenBucket =>
      obtain ⟨b, hb, hdone⟩ := Option.bind_eq_some_iff.mp hstate
      cases hdone
      exact bucketOfJson?_bounded hb
    | slidingWindow =>
      obtain ⟨l, hl, hdone⟩ := Option.bind_eq_some_iff.mp hstate
      cases hdone
      exact logOfJson?_bounded hl
  · cases h

theorem decodeBucket_bounded {bytes : ByteArray} {b : Bucket}
    (h : decodeBucket bytes = .ok b) : b.Bounded := by
  cases hs : decode bytes with
  | error e => rw [decodeBucket, hs] at h; cases h
  | ok s =>
    rw [decodeBucket, hs] at h
    cases s with
    | bucket b' => cases h; exact decode_bounded hs
    | log l => cases h

theorem decodeLog_bounded {bytes : ByteArray} {l : Log}
    (h : decodeLog bytes = .ok l) : l.Bounded := by
  cases hs : decode bytes with
  | error e => rw [decodeLog, hs] at h; cases h
  | ok s =>
    rw [decodeLog, hs] at h
    cases s with
    | log l' => cases h; exact decode_bounded hs
    | bucket b => cases h

/-! ## Comparing stored states -/

/-- A conditional write that expects a state finds out whether that is the state that is stored. -/
theorem swap_encode {m : Memory} {now : Nat} {key : String} {stored expected : State}
    (hs : stored.Bounded) (he : expected.Bounded) (found : (m.get now key).1 = some stored.encode)
    (entry : Entry) :
    (m.swap now key (some expected.encode) entry).1 = true ↔ stored = expected := by
  rw [m.get_fst] at found
  rw [m.swap_fst, found, decide_eq_true_eq, Option.some.injEq]
  exact ⟨encode_injective hs he, congrArg encode⟩

/-- **States are stored faithfully.** A bucket or a log, whatever its numbers are and however long it is,
is read back as itself, and as nothing else: whoever wants the state of the other algorithm is told which
one was expected and which one was found. So two states are stored as the same bytes exactly if they are
the same, and a conditional write, which compares bytes, compares states. -/
theorem stored_faithfully :
    (∀ b : Bucket, b.Bounded →
      decode (State.bucket b).encode = .ok (.bucket b) ∧
        decodeBucket (State.bucket b).encode = .ok b ∧
        ∃ corruption, decodeLog (State.bucket b).encode = .error corruption ∧
          corruption.message =
            "corrupted limiter state: expected sliding_window state, found token_bucket") ∧
      (∀ l : Log, l.Bounded →
        decode (State.log l).encode = .ok (.log l) ∧
          decodeLog (State.log l).encode = .ok l ∧
          ∃ corruption, decodeBucket (State.log l).encode = .error corruption ∧
            corruption.message =
              "corrupted limiter state: expected token_bucket state, found sliding_window") ∧
      ∀ s t : State, s.Bounded → t.Bounded →
        (s.encode = t.encode ↔ s = t) ∧
          ∀ (m : Memory) (now : Nat) (key : String) (entry : Entry),
            (m.get now key).1 = some s.encode →
              ((m.swap now key (some t.encode) entry).1 = true ↔ s = t) := by
  refine ⟨fun b h => ?_, fun l h => ?_, fun s t hs ht => ?_⟩
  · exact ⟨decode_encode (s := .bucket b) h, decodeBucket_encode h, _, decodeLog_encode_bucket h, rfl⟩
  · exact ⟨decode_encode (s := .log l) h, decodeLog_encode h, _, decodeBucket_encode_log h, rfl⟩
  · refine ⟨⟨encode_injective hs ht, congrArg encode⟩, fun m now key entry found => ?_⟩
    exact swap_encode hs ht found entry

/-- The numbers of a bucket and of a log are as small and as large as they can be. Where the log is
stored, neither the bucket nor the empty log is taken for it. -/
theorem stored_faithfully_at_ceiling :
    let b : Bucket := ⟨Word.last, 0⟩
    let l : Log := ⟨[0, Word.last, 7]⟩
    let e : Entry := .persistent (State.log l).encode
    let m : Memory := ⟨Table.empty.insert "k" e, .manual, 0, none⟩
    let expects (s : State) : Bool := (m.swap 5 "k" (some s.encode) e).1
    (b.Bounded ∧ l.Bounded) ∧ decodeBucket (State.bucket b).encode = .ok b ∧
      decodeLog (State.log l).encode = .ok l ∧ (m.get 5 "k").1 = some (State.log l).encode ∧
      (State.log l).encode ≠ (State.bucket b).encode ∧
      (expects (.log l), expects (.bucket b), expects (.log ⟨[]⟩)) = (true, false, false) := by
  intro b l e m expects
  have hb : b.Bounded := ⟨by decide, by decide⟩
  have hl : l.Bounded := by
    intro t ht
    simp only [l, List.mem_cons, List.not_mem_nil, or_false] at ht
    rcases ht with rfl | rfl | rfl <;> decide
  have none : (Log.mk []).Bounded := by simp [Log.Bounded]
  have found : (m.get 5 "k").1 = some (State.log l).encode := rfl
  obtain ⟨bucket, log, compare⟩ := stored_faithfully
  have same := compare (.log l) (.log l) hl hl
  have other := compare (.log l) (.bucket b) hl hb
  have empty := compare (.log l) (.log ⟨[]⟩) hl none
  refine ⟨⟨hb, hl⟩, (bucket b hb).2.1, (log l hl).2.1, found, ?_, ?_⟩
  · exact fun h => absurd (other.1.mp h) (by decide)
  · have refused : expects (.bucket b) = false := by
      rw [← Bool.not_eq_true]
      exact fun h => absurd ((other.2 m 5 "k" e found).mp h) (by decide)
    have refused' : expects (.log ⟨[]⟩) = false := by
      rw [← Bool.not_eq_true]
      exact fun h => absurd ((empty.2 m 5 "k" e found).mp h) (by decide)
    rw [show expects (.log l) = true from (same.2 m 5 "k" e found).mpr rfl, refused, refused']

end State

end Admission

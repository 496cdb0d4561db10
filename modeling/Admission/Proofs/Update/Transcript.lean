/-
# Admission.Proofs.Update.Transcript — what an update says to its store

An update may meet a store of any make, which answers as it likes: the value under a key may be another one
each time, writes may be lost for no reason, and every operation may fail. Of such a store nothing is
known, and as little of an action, which may decide otherwise each time that it is called. What can be said
is what an update asks of them, and what it makes of the answers.

To see what is asked, both are watched (`Backend.watched`, `Action.watched`). The transcript of a whole
update takes one of a few courses (`Transcript`), each of which is a number of rounds that were lost, and
one in which the update came to its end (`attempt_followed`). This is the only place where rounds are run;
what maintainers rely on is read off the courses, by induction on the rounds (`Conducted`, `run_conducted`).
-/
import Admission.Proofs.Update.Steps

namespace Admission

variable {σ α : Type}

/-! ## Watching a store -/

/-- Something that was asked of a store or of an action, and what it answered. -/
inductive Exchange (α : Type) where
  /-- The value under a key was asked for. Right after that the clock read `now`. -/
  | get (key : String) (answer : Except Failure (Option ByteArray)) (now : Nat)
  /-- The action was to decide on a value, at a clock reading. -/
  | decide (seen : Option ByteArray) (now : Nat) (answer : Except Failure (Entry × α))
  /-- An entry was to be stored under a key. -/
  | set (key : String) (entry : Entry) (answer : Except Failure Unit)
  /-- The entry of a key was to be removed. -/
  | delete (key : String) (answer : Except Failure Unit)
  /-- An entry was to be stored under a key if the value there was the expected one. -/
  | swap (key : String) (expected : Option ByteArray) (entry : Entry) (answer : Except Failure Bool)
  /-- The store was to be closed. -/
  | close (answer : Except Failure Unit)

/-- A store with a transcript of all that has been said to it. -/
def Backend.watched (b : Backend σ) : Backend (σ × List (Exchange α)) where
  now s := b.now s.1
  cancelled s := b.cancelled s.1
  get key s :=
    let (answer, t) := b.get key s.1
    (answer, t, s.2 ++ [.get key answer (b.now t)])
  set key entry s :=
    let (answer, t) := b.set key entry s.1
    (answer, t, s.2 ++ [.set key entry answer])
  delete key s :=
    let (answer, t) := b.delete key s.1
    (answer, t, s.2 ++ [.delete key answer])
  swap key expected entry s :=
    let (answer, t) := b.swap key expected entry s.1
    (answer, t, s.2 ++ [.swap key expected entry answer])
  close s :=
    let (answer, t) := b.close s.1
    (answer, t, s.2 ++ [.close answer])

/-- An action whose calls are put into the same transcript. -/
def Update.Action.watched (action : Update.Action σ α) : Update.Action (σ × List (Exchange α)) α :=
  fun seen now s =>
    let (answer, t) := action seen now s.1
    (answer, t, s.2 ++ [.decide seen now answer])

namespace Exchange

/-- What was answered to a conditional write. -/
def written? : Exchange α → Option (Except Failure Bool)
  | swap _ _ _ answer => some answer
  | _ => none

/-- What was decided. -/
def decided? : Exchange α → Option (Except Failure (Entry × α))
  | decide _ _ answer => some answer
  | _ => none

/-- The failure that an update meets in an exchange. -/
def failure? : Exchange α → Option Failure
  | get _ (.error f) _ => some f
  | decide _ _ (.error f) => some f
  | set _ _ (.error f) => some f
  | delete _ (.error f) => some f
  | swap _ _ _ (.error f) => some f
  | close (.error f) => some f
  | _ => none

end Exchange

namespace Update

variable {b : Backend σ} {key : String} {retries lost attempts : Nat} {action : Action σ α}
  {seen : Option ByteArray} {entry : Entry} {f : Failure}

/-- An answer that an action gives, in some state or other. -/
def Action.Gives (action : Action σ α) (seen : Option ByteArray) (now : Nat)
    (answer : Except Failure (Entry × α)) : Prop := ∃ s, (action seen now s).1 = answer

/-- An exchange with an action is one that may be had with it. -/
def Possible (action : Action σ α) : Exchange α → Prop
  | .decide seen now answer => action.Gives seen now answer
  | _ => True

/-! ## All rounds -/

/-- **The courses of an update** that has lost so many writes: what it says from then on, and its outcome.
Whatever it writes is what its action made of the value it has just read. -/
inductive Transcript (key : String) (retries : Nat) (action : Action σ α) :
    (lost : Nat) → List (Exchange α) → Except Failure α → Prop
  /-- The value cannot be read. -/
  | unread {lost now : Nat} {f : Failure} :
      Transcript key retries action lost [.get key (.error f) now] (.error f)
  /-- Nothing can be decided on it. -/
  | undecided {lost now : Nat} {seen : Option ByteArray} {f : Failure}
      (given : action.Gives seen now (.error f)) :
      Transcript key retries action lost
        [.get key (.ok seen) now, .decide seen now (.error f)] (.error f)
  /-- The entry cannot be written. -/
  | unwritten {lost now : Nat} {seen : Option ByteArray} {entry : Entry} {result : α} {f : Failure}
      (given : action.Gives seen now (.ok (entry, result))) :
      Transcript key retries action lost
        [.get key (.ok seen) now, .decide seen now (.ok (entry, result)),
          .swap key seen entry (.error f)] (.error f)
  /-- The entry is accepted. -/
  | accepted {lost now : Nat} {seen : Option ByteArray} {entry : Entry} {result : α}
      (given : action.Gives seen now (.ok (entry, result))) :
      Transcript key retries action lost
        [.get key (.ok seen) now, .decide seen now (.ok (entry, result)),
          .swap key seen entry (.ok true)] (.ok result)
  /-- The entry is refused, and it was the last that may be. -/
  | exhausted {now : Nat} {seen : Option ByteArray} {entry : Entry} {result : α}
      (given : action.Gives seen now (.ok (entry, result))) :
      Transcript key retries action retries
        [.get key (.ok seen) now, .decide seen now (.ok (entry, result)),
          .swap key seen entry (.ok false)] (.error (.storage (.conflict (retries + 1))))
  /-- The entry is refused, and the update starts over. -/
  | again {lost now : Nat} {seen : Option ByteArray} {entry : Entry} {result : α}
      {said : List (Exchange α)} {outcome : Except Failure α}
      (given : action.Gives seen now (.ok (entry, result))) (left : lost < retries)
      (rest : Transcript key retries action (lost + 1) said outcome) :
      Transcript key retries action lost
        (.get key (.ok seen) now :: .decide seen now (.ok (entry, result)) ::
          .swap key seen entry (.ok false) :: said) outcome

/-- An update that has lost so many writes takes one of the courses, and does not notice that it is
watched. -/
def Followed (b : Backend σ) (key : String) (retries : Nat) (action : Action σ α)
    (attempts lost : Nat) (s : σ) : Prop :=
  ∀ before, ∃ said outcome s',
    attempt b key retries action attempts lost s = (outcome, s') ∧
      attempt b.watched key retries action.watched attempts lost (s, before) =
        (outcome, s', before ++ said) ∧
      Transcript key retries action lost said outcome

/-- A round is the last one, or it is lost and another one follows. -/
theorem attempt_round (live : ∀ s, b.cancelled s = false) (room : lost + attempts = retries) (s : σ) :
    Followed b key retries action (attempts + 1) lost s ∨
      ∃ seen now entry result s', action.Gives seen now (.ok (entry, result)) ∧
        attempt b key retries action (attempts + 1) lost s =
          attempt b key retries action attempts (lost + 1) s' ∧
        ∀ before, attempt b.watched key retries action.watched (attempts + 1) lost (s, before) =
          attempt b.watched key retries action.watched attempts (lost + 1)
            (s', before ++ [.get key (.ok seen) now, .decide seen now (.ok (entry, result)),
              .swap key seen entry (.ok false)]) := by
  have live' : ∀ s : σ × List (Exchange α), b.watched.cancelled s = false := fun s => live s.1
  obtain ⟨answer, s', read⟩ : ∃ answer s', b.get key s = (answer, s') := ⟨_, _, rfl⟩
  have read' : ∀ before : List (Exchange α), b.watched.get key (s, before) =
      (answer, s', before ++ [.get key answer (b.now s')]) := by
    intro before
    simp only [Backend.watched, read]
  cases answer with
  | error f =>
    left
    intro before
    exact ⟨_, _, _, attempt_unread (live s) read, attempt_unread (live' _) (read' before), .unread⟩
  | ok seen =>
    obtain ⟨answer, t, decided⟩ : ∃ answer t, action seen (b.now s') s' = (answer, t) := ⟨_, _, rfl⟩
    have given : action.Gives seen (b.now s') answer := ⟨s', congrArg Prod.fst decided⟩
    have decided' : ∀ before : List (Exchange α),
        action.watched seen (b.now s') (s', before ++ [.get key (.ok seen) (b.now s')]) =
          (answer, t, before ++ [.get key (.ok seen) (b.now s'), .decide seen (b.now s') answer]) := by
      intro before
      simp only [Action.watched, decided, List.append_assoc, List.cons_append, List.nil_append]
    cases answer with
    | error f =>
      left
      intro before
      exact ⟨_, _, _, attempt_undecided (live s) read decided,
        attempt_undecided (live' _) (read' before) (decided' before), .undecided given⟩
    | ok decision =>
      obtain ⟨entry, result⟩ := decision
      obtain ⟨answer, s'', written⟩ : ∃ answer s'', b.swap key seen entry t = (answer, s'') :=
        ⟨_, _, rfl⟩
      have written' : ∀ before : List (Exchange α),
          b.watched.swap key seen entry (t, before ++ [.get key (.ok seen) (b.now s'),
              .decide seen (b.now s') (.ok (entry, result))]) =
            (answer, s'', before ++ [.get key (.ok seen) (b.now s'),
              .decide seen (b.now s') (.ok (entry, result)), .swap key seen entry answer]) := by
        intro before
        simp only [Backend.watched, written, List.append_assoc, List.cons_append, List.nil_append]
      cases answer with
      | error f =>
        left
        intro before
        exact ⟨_, _, _, attempt_unwritten (live s) read decided (live t) written,
          attempt_unwritten (live' _) (read' before) (decided' before) (live' _) (written' before),
          .unwritten given⟩
      | ok swapped =>
        cases swapped with
        | true =>
          left
          intro before
          exact ⟨_, _, _, attempt_accepted (live s) read decided (live t) written,
            attempt_accepted (live' _) (read' before) (decided' before) (live' _) (written' before),
            .accepted given⟩
        | false =>
          right
          exact ⟨seen, b.now s', entry, result, s'', given,
            attempt_lost room (live s) read decided (live t) written, fun before =>
              attempt_lost room (live' _) (read' before) (decided' before) (live' _) (written' before)⟩

/-- **Every update takes one of these courses.** -/
theorem attempt_followed (live : ∀ s, b.cancelled s = false) (room : lost + attempts = retries) (s : σ) :
    Followed b key retries action (attempts + 1) lost s := by
  induction attempts generalizing lost s with
  | zero =>
    have last : lost = retries := room
    subst last
    rcases attempt_round live room s with followed | ⟨seen, now, entry, result, s', given, ran, ran'⟩
    · exact followed
    · intro before
      exact ⟨_, _, s', ran, ran' before, .exhausted given⟩
  | succ attempts ih =>
    rcases attempt_round live room s with followed | ⟨seen, now, entry, result, s', given, ran, ran'⟩
    · exact followed
    · intro before
      have room' : lost + 1 + attempts = retries := by omega
      obtain ⟨said, outcome, s'', next, next', rest⟩ := ih room' s' (before ++ _)
      refine ⟨_, outcome, s'', ran.trans next, (ran' before).trans ?_, .again given (by omega) rest⟩
      rw [next', List.append_assoc]
      rfl

/-! ## Turns -/

/-- A reading, a decision and a conditional write take turns, on one key. What is decided on is what was
just read. So is what is expected by the write, and its entry is the one that was just decided on. -/
inductive Turns (key : String) : List (Exchange α) → Prop
  /-- Nothing is said. -/
  | nothing : Turns key []
  /-- A reading that fails is not followed by anything. -/
  | unread (f : Failure) (now : Nat) : Turns key [.get key (.error f) now]
  /-- A decision that fails is not followed by anything. -/
  | undecided (seen : Option ByteArray) (now : Nat) (f : Failure) :
      Turns key [.get key (.ok seen) now, .decide seen now (.error f)]
  /-- Both are followed by a write, and that by a reading again if by anything. -/
  | round (seen : Option ByteArray) (now : Nat) (entry : Entry) (result : α) (answer : Except Failure Bool)
      {said : List (Exchange α)} (rest : Turns key said) :
      Turns key (.get key (.ok seen) now :: .decide seen now (.ok (entry, result)) ::
        .swap key seen entry answer :: said)

/-- On every course they do. -/
theorem Transcript.turns {said : List (Exchange α)} {outcome : Except Failure α}
    (h : Transcript key retries action lost said outcome) : Turns key said := by
  induction h with
  | unread => exact .unread _ _
  | undecided => exact .undecided _ _ _
  | unwritten => exact .round _ _ _ _ _ .nothing
  | accepted => exact .round _ _ _ _ _ .nothing
  | exhausted => exact .round _ _ _ _ _ .nothing
  | again _ _ _ ih => exact .round _ _ _ _ _ ih

/-- Whoever takes turns begins with a reading. -/
theorem Turns.begins {said : List (Exchange α)} (h : Turns key said) (some : said ≠ []) :
    ∃ answer now rest, said = .get key answer now :: rest := by
  cases h with
  | nothing => exact absurd rfl some
  | unread => exact ⟨_, _, _, rfl⟩
  | undecided => exact ⟨_, _, _, rfl⟩
  | round => exact ⟨_, _, _, rfl⟩

/-- As long as nothing fails, there are as many decisions as writes. -/
theorem Turns.length_decided {said : List (Exchange α)} (h : Turns key said)
    (unfailed : ∀ e ∈ said, e.failure? = none) :
    (said.filterMap Exchange.decided?).length = (said.filterMap Exchange.written?).length := by
  induction h with
  | nothing => rfl
  | unread => rfl
  | undecided seen now f =>
    have failed := unfailed (.decide seen now (.error f)) (by simp)
    cases failed
  | round seen now entry result answer rest ih =>
    have counted := ih fun e he =>
      unfailed e (List.mem_cons_of_mem _ (List.mem_cons_of_mem _ (List.mem_cons_of_mem _ he)))
    exact congrArg (· + 1) counted

/-- All that is decided on a course is what the action gives. -/
theorem Transcript.possible {said : List (Exchange α)} {outcome : Except Failure α}
    (h : Transcript key retries action lost said outcome) : ∀ e ∈ said, Possible action e := by
  induction h with
  | unread => exact List.forall_mem_singleton.mpr trivial
  | undecided given => simpa [Possible] using given
  | unwritten given => simpa [Possible] using given
  | accepted given => simpa [Possible] using given
  | exhausted given => simpa [Possible] using given
  | again given _ _ ih =>
    refine List.forall_mem_cons.mpr ⟨trivial, List.forall_mem_cons.mpr ⟨given, ?_⟩⟩
    exact List.forall_mem_cons.mpr ⟨trivial, ih⟩

/-! ## The last exchange -/

/-- An exchange after which an update goes on: nothing is accepted, and nothing fails. -/
def Passing (e : Exchange α) : Prop := e.written? ≠ some (.ok true) ∧ e.failure? = none

/-- So is a reading that is decided on. -/
theorem passing_round {now : Nat} {result : α} :
    ∀ e ∈ [Exchange.get key (.ok seen) now, .decide seen now (.ok (entry, result))], Passing e :=
  List.forall_mem_cons.mpr ⟨⟨nofun, rfl⟩, List.forall_mem_singleton.mpr ⟨nofun, rfl⟩⟩

/-- So is all of a round that is lost. -/
theorem passing_again {now : Nat} {result : α} {said : List (Exchange α)} (h : ∀ e ∈ said, Passing e) :
    ∀ e ∈ Exchange.get key (.ok seen) now :: .decide seen now (.ok (entry, result)) ::
      .swap key seen entry (.ok false) :: said, Passing e := by
  have lost : Passing (.swap key seen entry (.ok false) : Exchange α) := ⟨by rintro ⟨⟩, rfl⟩
  exact List.forall_mem_append.mpr ⟨passing_round, List.forall_mem_cons.mpr ⟨lost, h⟩⟩

/-- **What the last exchange comes to**, with those before it. -/
inductive Concludes (key : String) (retries lost : Nat) :
    (earlier : List (Exchange α)) → Exchange α → Except Failure α → Prop
  /-- An accepted write gives the result that goes with its entry. -/
  | accepted {before : List (Exchange α)} {seen : Option ByteArray} {now : Nat} {entry : Entry}
      {result : α} : Concludes key retries lost
        (before ++ [.get key (.ok seen) now, .decide seen now (.ok (entry, result))])
        (.swap key seen entry (.ok true)) (.ok result)
  /-- A failure is passed on. -/
  | failed {earlier : List (Exchange α)} {e : Exchange α} {f : Failure} (failure : e.failure? = some f) :
      Concludes key retries lost earlier e (.error f)
  /-- The last write that may be lost is lost, as all others were. -/
  | exhausted {earlier : List (Exchange α)} {e : Exchange α} (last : e.written? = some (.ok false))
      (refused : (earlier ++ [e]).filterMap Exchange.written? =
        List.replicate (retries + 1 - lost) (.ok false)) :
      Concludes key retries lost earlier e (.error (.storage (.conflict (retries + 1))))

/-- What is said in a lost round before all that does not change what the last exchange comes to. -/
theorem Concludes.again {earlier : List (Exchange α)} {e : Exchange α} {outcome : Except Failure α}
    {now : Nat} {result : α} (room : lost < retries)
    (h : Concludes key retries (lost + 1) earlier e outcome) :
    Concludes key retries lost
      (.get key (.ok seen) now :: .decide seen now (.ok (entry, result)) ::
        .swap key seen entry (.ok false) :: earlier) e outcome := by
  cases h with
  | accepted =>
    rw [← List.cons_append, ← List.cons_append, ← List.cons_append]
    exact .accepted
  | failed failure => exact .failed failure
  | exhausted last refused =>
    refine .exhausted last ?_
    have count : retries + 1 - lost = retries + 1 - (lost + 1) + 1 := by omega
    rw [count, List.replicate_succ, ← refused]
    rfl

/-- **Every course has a last exchange**, which decides on the outcome, and the update went on after all
others. -/
theorem Transcript.concludes {said : List (Exchange α)} {outcome : Except Failure α}
    (h : Transcript key retries action lost said outcome) : ∃ earlier e,
      said = earlier ++ [e] ∧ (∀ e' ∈ earlier, Passing e') ∧
        Concludes key retries lost earlier e outcome := by
  induction h with
  | unread => exact ⟨[], _, rfl, nofun, .failed rfl⟩
  | undecided => exact ⟨[_], _, rfl, List.forall_mem_singleton.mpr ⟨nofun, rfl⟩, .failed rfl⟩
  | unwritten => exact ⟨[_, _], _, rfl, passing_round, .failed rfl⟩
  | accepted =>
    refine ⟨[_, _], _, rfl, passing_round, ?_⟩
    rw [← List.nil_append [_, _]]
    exact .accepted
  | exhausted =>
    refine ⟨[_, _], _, rfl, passing_round, .exhausted rfl ?_⟩
    rw [Nat.add_sub_cancel_left]
    rfl
  | again given room rest ih =>
    obtain ⟨earlier, e, rfl, passing, concludes⟩ := ih
    exact ⟨_ :: _ :: _ :: earlier, e, rfl, passing_again passing, concludes.again room⟩

/-- A write that was answered has not failed. -/
theorem failure?_of_written {e : Exchange α} {accepted : Bool} (written : e.written? = some (.ok accepted)) :
    e.failure? = none := by
  cases e with
  | swap key expected entry answer =>
    cases written
    rfl
  | _ => cases written

/-- If the last exchange is an accepted write, the result goes with its entry. -/
theorem Concludes.of_accepted {earlier : List (Exchange α)} {e : Exchange α} {outcome : Except Failure α}
    (h : Concludes key retries lost earlier e outcome) (written : e.written? = some (.ok true)) :
    ∃ before seen now entry result,
      earlier = before ++ [.get key (.ok seen) now, .decide seen now (.ok (entry, result))] ∧
        e = .swap key seen entry (.ok true) ∧ outcome = .ok result := by
  cases h with
  | accepted => exact ⟨_, _, _, _, _, rfl, rfl, rfl⟩
  | failed failure =>
    rw [failure?_of_written written] at failure
    cases failure
  | exhausted last _ =>
    rw [written] at last
    cases last

/-- If it is a failure, that is the outcome. -/
theorem Concludes.of_failure {earlier : List (Exchange α)} {e : Exchange α} {outcome : Except Failure α}
    (h : Concludes key retries lost earlier e outcome) (failure : e.failure? = some f) :
    outcome = .error f := by
  cases h with
  | accepted => cases failure
  | failed failure' =>
    rw [failure] at failure'
    rw [Option.some.inj failure']
  | exhausted last _ =>
    rw [failure?_of_written last] at failure
    cases failure

/-- What is found in a list is its last member, or one before it. -/
theorem eq_last_or_mem {β : Type} {earlier before after : List β} {x y : β}
    (h : earlier ++ [x] = before ++ y :: after) :
    (after = [] ∧ before = earlier ∧ y = x) ∨ y ∈ earlier := by
  rcases List.eq_nil_or_concat after with rfl | ⟨after, z, rfl⟩
  · obtain ⟨same, last⟩ := List.append_inj' h rfl
    exact .inl ⟨rfl, same.symm, (List.singleton_inj.mp last).symm⟩
  · right
    rw [List.concat_eq_append, ← List.cons_append, ← List.append_assoc] at h
    obtain ⟨same, -⟩ := List.append_inj' h rfl
    rw [same]
    exact List.mem_append_right _ List.mem_cons_self

/-! ## How an update is conducted -/

/-- **How an update is conducted**, by what it has said and by its outcome. -/
structure Conducted (key : String) (retries : Nat) (action : Action σ α) (said : List (Exchange α))
    (outcome : Except Failure α) : Prop where
  /-- It reads first. -/
  begins : ∃ answer now rest, said = .get key answer now :: rest
  /-- It reads, decides and writes by turns. -/
  turns : Turns key said
  /-- What it decides is what its action gives. -/
  possible : ∀ e ∈ said, Possible action e
  /-- It has a result exactly if a write was accepted. -/
  result_iff : (∃ result, outcome = .ok result) ↔ ∃ e ∈ said, e.written? = some (.ok true)
  /-- Nothing comes after an accepted write, and the result is the one that goes with its entry. -/
  accepted : ∀ before e after, said = before ++ e :: after → e.written? = some (.ok true) →
    after = [] ∧ ∃ earlier seen now entry result,
      before = earlier ++ [.get key (.ok seen) now, .decide seen now (.ok (entry, result))] ∧
        e = .swap key seen entry (.ok true) ∧ outcome = .ok result
  /-- Nothing comes after a failure, and it is the outcome. -/
  failed : ∀ before e after f, said = before ++ e :: after → e.failure? = some f →
    after = [] ∧ outcome = .error f
  /-- If there is neither, the update has started over as often as it may, it has called its action each
  time, and all its writes were lost. -/
  exhausted : (∀ e ∈ said, Passing e) →
    said.filterMap Exchange.written? = List.replicate (retries + 1) (.ok false) ∧
      (said.filterMap Exchange.decided?).length = retries + 1 ∧
      outcome = .error (.storage (.conflict (retries + 1)))

/-- Every course is conducted so. -/
theorem Transcript.conducted {said : List (Exchange α)} {outcome : Except Failure α}
    (h : Transcript key retries action 0 said outcome) :
    Conducted key retries action said outcome := by
  have turns := h.turns
  have possible := h.possible
  obtain ⟨earlier, last, rfl, passing, concludes⟩ := h.concludes
  have mem : last ∈ earlier ++ [last] := List.mem_append_right _ List.mem_cons_self
  refine ⟨turns.begins (List.append_ne_nil_of_right_ne_nil _ (List.cons_ne_nil _ _)), turns, possible,
    ⟨?_, ?_⟩, ?_, ?_, ?_⟩
  · rintro ⟨result, rfl⟩
    cases concludes with
    | accepted => exact ⟨_, mem, rfl⟩
  · rintro ⟨e, he, written⟩
    rcases List.mem_append.mp he with he | he
    · exact absurd written (passing e he).1
    · obtain rfl := List.mem_singleton.mp he
      obtain ⟨_, _, _, _, result, _, _, ended⟩ := concludes.of_accepted written
      exact ⟨result, ended⟩
  · intro before e after split written
    rcases eq_last_or_mem split with ⟨rfl, rfl, rfl⟩ | he
    · exact ⟨rfl, concludes.of_accepted written⟩
    · exact absurd written (passing e he).1
  · intro before e after f split failure
    rcases eq_last_or_mem split with ⟨rfl, rfl, rfl⟩ | he
    · exact ⟨rfl, concludes.of_failure failure⟩
    · rw [(passing e he).2] at failure
      cases failure
  · intro all
    obtain ⟨unaccepted, unfailed⟩ := all last mem
    cases concludes with
    | accepted => exact absurd rfl unaccepted
    | failed failure =>
      rw [unfailed] at failure
      cases failure
    | exhausted _ refused =>
      refine ⟨refused, ?_, rfl⟩
      rw [turns.length_decided fun e he => (all e he).2, refused]
      exact List.length_replicate

/-- **An update over any store whatever**, with any action whatever, whose caller has not given up. It does
the same when it is watched, and what is seen then is this. It reads, decides and writes by turns, each time
on the same key and on the value that it has just read. It has a result exactly if a write was accepted: that
is the last thing it asks for, and the result is the one that its action paired with the entry. The first
failure ends it, is passed on as it is, and is the last thing that it hears. If there is neither, it asks for
one decision and one write more than it may start over, loses all writes, and reports so many lost
attempts. -/
theorem run_conducted (live : ∀ s, b.cancelled s = false) (key : String) (retries : Nat)
    (action : Action σ α) (s : σ) : ∃ said outcome s',
      run b key retries action s = (outcome, s') ∧
        run b.watched key retries action.watched (s, []) = (outcome, s', said) ∧
        Conducted key retries action said outcome := by
  obtain ⟨said, outcome, s', ran, watched, transcript⟩ :=
    attempt_followed live (Nat.zero_add retries) s []
  exact ⟨said, outcome, s', ran, watched, transcript.conducted⟩

/-- A store that shows another value at the second reading, and takes the second write only, and an action
that counts its calls and returns the count. One lost write is as many as the update survives. -/
theorem run_conducted_in_second_round :
    let value := "v".toUTF8
    let b : Backend (Nat × Nat) :=
      { now := fun s => 100 + s.1
        cancelled := fun _ => false
        get := fun _ s => (.ok (if s.1 = 0 then none else some value), s.1 + 1, s.2)
        set := fun _ _ s => (.ok (), s.1 + 1, s.2)
        delete := fun _ s => (.ok (), s.1 + 1, s.2)
        swap := fun _ _ _ s => (.ok (s.1 = 3), s.1 + 1, s.2)
        close := fun s => (.ok (), s.1 + 1, s.2) }
    let action : Action (Nat × Nat) (Nat × Nat) := fun seen now s =>
      (.ok (.persistent (seen.getD "new".toUTF8), now, s.2 + 1), s.1, s.2 + 1)
    let said : List (Exchange (Nat × Nat)) :=
      [.get "k" (.ok none) 101, .decide none 101 (.ok (.persistent "new".toUTF8, 101, 1)),
        .swap "k" none (.persistent "new".toUTF8) (.ok false),
        .get "k" (.ok (some value)) 103, .decide (some value) 103 (.ok (.persistent value, 103, 2)),
        .swap "k" (some value) (.persistent value) (.ok true)]
    (∀ s, b.cancelled s = false) ∧ run b "k" 1 action (0, 0) = (.ok (103, 2), 4, 2) ∧
      run b.watched "k" 1 action.watched ((0, 0), []) = (.ok (103, 2), (4, 2), said) ∧
      Conducted "k" 1 action said (.ok (103, 2)) := by
  intro value b action said
  have live : ∀ s, b.cancelled s = false := fun _ => rfl
  obtain ⟨said', outcome, s', ran, watched, conducted⟩ := run_conducted live "k" 1 action (0, 0)
  have seen : run b.watched "k" 1 action.watched ((0, 0), []) = (.ok (103, 2), (4, 2), said) := rfl
  rw [seen] at watched
  cases watched
  exact ⟨live, ran, seen, conducted⟩

end Update

end Admission

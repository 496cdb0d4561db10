/-
# Admission.Proofs.Update.Steps — an update over the store inside the process

What each of the places of an update does to the store, in terms of what the store holds (`present`)
and of what a reader finds (`live`). There is one lemma for each place and outcome, and nothing after
this module opens `Phase.step` again.

An update that nobody interferes with needs one round: it decides on the live value, and its entry is
accepted (`run_undisturbed`), whatever the number of retries. Over any other store a round goes by what the
store answers, with one lemma for each outcome (`attempt_unread` to `attempt_lost`), and one round is enough
again if the store takes the entry (`run_accepted`). If it never takes one, all rounds are gone through, and
an action that counts its calls counts them (`run_contended`).
-/
import Admission.Proofs.Store.Present
import Admission.Race

namespace Admission.Update

variable {α : Type} {key : String} {retries lost now : Nat} {action : Action (Memory × Moment) α}
  {operation : Operation α} {m : Memory}

/-- What an operation keeps is nothing. -/
theorem Operation.action_eq {σ : Type} {seen : Option ByteArray} {answer : Except Failure (Entry × α)}
    (h : operation seen now = answer) (s : σ) : operation.action seen now s = (answer, s) := by
  rw [Operation.action, h]

/-- A write that the caller still waits for is the store's own. -/
theorem backend_swap (seen : Option ByteArray) (entry : Entry) :
    Race.backend.swap key seen entry (m, ⟨now, false⟩) =
      (.ok (m.swap now key seen entry).1, (m.swap now key seen entry).2, ⟨now, false⟩) := rfl

theorem backend_waits : Race.backend.cancelled (m, ⟨now, false⟩) = false := rfl

/-! ## One step -/

/-- An update that has ended does not move. -/
theorem step_done (outcome : Except Failure α) (s : Memory × Moment) :
    Phase.step Race.backend key retries action (.done outcome) s = (.done outcome, s) := rfl

/-- A caller that has given up is told so before it reads. -/
theorem step_reading_cancelled :
    Phase.step Race.backend key retries action (.reading lost) (m, ⟨now, true⟩) =
      (.done (.error .cancelled), m, ⟨now, true⟩) := rfl

/-- Reading finds the live value. -/
theorem step_reading :
    Phase.step Race.backend key retries action (.reading lost) (m, ⟨now, false⟩) =
      (.deciding lost (m.live now key), (m.get now key).2, ⟨now, false⟩) := by
  rw [← Memory.get_fst]
  rfl

/-- An operation looks at the clock and at what was read, and at nothing else. -/
theorem step_deciding (seen : Option ByteArray) (s : Memory × Moment) :
    Phase.step Race.backend key retries operation.action (.deciding lost seen) s =
      (match operation seen s.2.now with
        | .error f => .done (.error f)
        | .ok (entry, result) => .writing lost seen entry result, s) := by
  simp only [Phase.step, Operation.action]
  have hnow : Race.backend.now s = s.2.now := rfl
  rw [hnow]
  cases operation seen s.2.now <;> rfl

/-- A caller that has given up is told so before it writes. -/
theorem step_writing_cancelled {seen : Option ByteArray} {entry : Entry} {result : α} :
    Phase.step Race.backend key retries action (.writing lost seen entry result)
        (m, ⟨now, true⟩) = (.done (.error .cancelled), m, ⟨now, true⟩) := rfl

/-- A write over the value that was read is accepted. -/
theorem step_writing {seen : Option ByteArray} {entry : Entry} {result : α}
    (h : m.live now key = seen) :
    Phase.step Race.backend key retries action (.writing lost seen entry result)
        (m, ⟨now, false⟩) = (.done (.ok result), (m.swap now key seen entry).2, ⟨now, false⟩) := by
  have accepted : (m.swap now key seen entry).1 = true := by
    rw [Memory.swap_fst]
    exact decide_eq_true h
  simp only [Phase.step, backend_waits, backend_swap, accepted, Bool.false_eq_true, if_false]

/-- A write over anything else is lost. -/
theorem step_writing_lost {seen : Option ByteArray} {entry : Entry} {result : α}
    (h : m.live now key ≠ seen) :
    Phase.step Race.backend key retries action (.writing lost seen entry result)
        (m, ⟨now, false⟩) =
      (.afterLoss retries lost, (m.swap now key seen entry).2, ⟨now, false⟩) := by
  have refused : (m.swap now key seen entry).1 = false := by
    rw [Memory.swap_fst]
    exact decide_eq_false h
  simp only [Phase.step, backend_waits, backend_swap, refused, Bool.false_eq_true, if_false]

/-! ## All steps in one go -/

/-- A caller that has given up beforehand is told so at once, over any store. -/
theorem run_given_up {σ : Type} {b : Backend σ} {action : Action σ α} {s : σ}
    (given : b.cancelled s = true) : run b key retries action s = (.error .cancelled, s) := by
  simp only [run, attempt, Phase.step, given, if_true]

theorem run_cancelled : run Race.backend key retries action (m, ⟨now, true⟩) =
    (.error .cancelled, m, ⟨now, true⟩) := run_given_up rfl

/-- A decision that fails ends the update, and leaves everything as it was. -/
theorem run_undisturbed_error {f : Failure}
    (h : operation (m.live now key) now = .error f) :
    run Race.backend key retries operation.action (m, ⟨now, false⟩) =
      (.error f, (m.get now key).2, ⟨now, false⟩) := by
  simp only [run, attempt, step_reading, step_deciding, h, step_done]

/-- **An update that nobody interferes with** returns what it decided on the live value, and has
stored the entry that goes with it. -/
theorem run_undisturbed {entry : Entry} {result : α}
    (h : operation (m.live now key) now = .ok (entry, result)) :
    ∃ m', run Race.backend key retries operation.action (m, ⟨now, false⟩) =
        (.ok result, m', ⟨now, false⟩) ∧
      ∀ t, now ≤ t → ∀ other, m'.present t other =
        if other = key then Entry.unlapsed t (some entry) else m.present t other := by
  have same : (m.get now key).2.live now key = m.live now key := by
    simp only [Memory.live, m.present_get (Nat.le_refl now)]
  refine ⟨((m.get now key).2.swap now key (m.live now key) entry).2, ?_, fun t ht other => ?_⟩
  · simp only [run, attempt, step_reading, step_deciding, h, step_writing same]
  · rw [Memory.present_swap same entry ht, m.present_get ht]

/-! ## One round over any store -/

section Round

variable {σ : Type} {b : Backend σ} {action : Action σ α} {s s' s'' t : σ} {attempts : Nat}
  {seen : Option ByteArray} {entry : Entry} {result : α} {f : Failure}

/-- A value that cannot be read ends the update. -/
theorem attempt_unread (waits : b.cancelled s = false) (read : b.get key s = (.error f, s')) :
    attempt b key retries action (attempts + 1) lost s = (.error f, s') := by
  simp only [attempt, Phase.step, waits, read, Bool.false_eq_true, if_false]

/-- A decision that cannot be made ends the update. -/
theorem attempt_undecided (waits : b.cancelled s = false) (read : b.get key s = (.ok seen, s'))
    (failed : action seen (b.now s') s' = (.error f, t)) :
    attempt b key retries action (attempts + 1) lost s = (.error f, t) := by
  simp only [attempt, Phase.step, waits, read, failed, Bool.false_eq_true, if_false]

/-- An entry that cannot be written ends the update. -/
theorem attempt_unwritten (waits : b.cancelled s = false) (read : b.get key s = (.ok seen, s'))
    (decided : action seen (b.now s') s' = (.ok (entry, result), t)) (waits' : b.cancelled t = false)
    (written : b.swap key seen entry t = (.error f, s'')) :
    attempt b key retries action (attempts + 1) lost s = (.error f, s'') := by
  simp only [attempt, Phase.step, waits, read, decided, waits', written, Bool.false_eq_true, if_false]

/-- An entry that is accepted ends the update. -/
theorem attempt_accepted (waits : b.cancelled s = false) (read : b.get key s = (.ok seen, s'))
    (decided : action seen (b.now s') s' = (.ok (entry, result), t)) (waits' : b.cancelled t = false)
    (written : b.swap key seen entry t = (.ok true, s'')) :
    attempt b key retries action (attempts + 1) lost s = (.ok result, s'') := by
  simp only [attempt, Phase.step, waits, read, decided, waits', written, Bool.false_eq_true, if_false]

/-- A write that is lost leads to the next round, as long as the update may start over. -/
theorem attempt_lost (room : lost + attempts = retries) (waits : b.cancelled s = false)
    (read : b.get key s = (.ok seen, s')) (decided : action seen (b.now s') s' = (.ok (entry, result), t))
    (waits' : b.cancelled t = false) (written : b.swap key seen entry t = (.ok false, s'')) :
    attempt b key retries action (attempts + 1) lost s =
      attempt b key retries action attempts (lost + 1) s'' := by
  simp only [attempt, Phase.step, waits, read, decided, waits', written, Bool.false_eq_true, if_false,
    Phase.afterLoss]
  cases attempts with
  | zero =>
    -- the last write that may be lost
    rw [if_pos (by omega)]
    rfl
  | succ attempts => rw [if_neg (by omega)]

/-- **An update whose first write is accepted** returns what it decided on what it has read. -/
theorem run_accepted (waits : b.cancelled s = false) (read : b.get key s = (.ok seen, s'))
    (decided : action seen (b.now s') s' = (.ok (entry, result), t)) (waits' : b.cancelled t = false)
    (written : b.swap key seen entry t = (.ok true, s'')) :
    run b key retries action s = (.ok result, s'') :=
  attempt_accepted waits read decided waits' written

end Round

end Admission.Update

namespace Admission

/-! ## A store that never takes an entry -/

variable {σ α : Type} {b : Backend σ} {key : String} {retries lost attempts : Nat}
  {operation : Update.Operation α}

/-- A store beside something else, which it leaves alone. -/
def Backend.beside {ρ : Type} (b : Backend σ) : Backend (σ × ρ) where
  now s := b.now s.1
  cancelled s := b.cancelled s.1
  get key s := ((b.get key s.1).1, (b.get key s.1).2, s.2)
  set key entry s := ((b.set key entry s.1).1, (b.set key entry s.1).2, s.2)
  delete key s := ((b.delete key s.1).1, (b.delete key s.1).2, s.2)
  swap key expected entry s := ((b.swap key expected entry s.1).1, (b.swap key expected entry s.1).2, s.2)
  close s := ((b.close s.1).1, (b.close s.1).2, s.2)

/-- An operation that counts its calls, beside a store. -/
def Update.Operation.counted (operation : Update.Operation α) : Update.Action (σ × Nat) α :=
  fun seen now s => (operation seen now, s.1, s.2 + 1)

/-- A store that can be read, and in which every conditional write loses. -/
structure Backend.Contended (b : Backend σ) (key : String) : Prop where
  /-- No caller gives up. -/
  live : ∀ s, b.cancelled s = false
  /-- What is there can be read. -/
  read : ∀ s, ∃ seen, (b.get key s).1 = .ok seen
  /-- Another writer always comes first. -/
  lost : ∀ s expected entry, (b.swap key expected entry s).1 = .ok false

namespace Update

/-- A round is lost, and its call is counted. -/
theorem attempt_contended_round (h : b.Contended key)
    (decides : ∀ seen now, ∃ decision, operation seen now = .ok decision)
    (room : lost + attempts = retries) (s : σ) (calls : Nat) :
    ∃ s', attempt b.beside key retries operation.counted (attempts + 1) lost (s, calls) =
      attempt b.beside key retries operation.counted attempts (lost + 1) (s', calls + 1) := by
  have live : ∀ s : σ × Nat, b.beside.cancelled s = false := fun s => h.live s.1
  obtain ⟨seen, found⟩ := h.read s
  obtain ⟨⟨entry, result⟩, decided⟩ := decides seen (b.now (b.get key s).2)
  have read : b.beside.get key (s, calls) = (.ok seen, (b.get key s).2, calls) := by
    rw [← found]
    rfl
  have counted : operation.counted seen (b.now (b.get key s).2) ((b.get key s).2, calls) =
      (.ok (entry, result), (b.get key s).2, calls + 1) := by
    rw [← decided]
    rfl
  have refused : b.beside.swap key seen entry ((b.get key s).2, calls + 1) =
      (.ok false, (b.swap key seen entry (b.get key s).2).2, calls + 1) := by
    rw [← h.lost (b.get key s).2 seen entry]
    rfl
  exact ⟨_, attempt_lost room (live _) read counted (live _) refused⟩

/-- So are all rounds that are left. -/
theorem attempt_contended (h : b.Contended key)
    (decides : ∀ seen now, ∃ decision, operation seen now = .ok decision)
    (room : lost + attempts = retries) (s : σ) (calls : Nat) :
    ∃ s', attempt b.beside key retries operation.counted (attempts + 1) lost (s, calls) =
      (.error (.storage (.conflict (retries + 1))), s', calls + (attempts + 1)) := by
  induction attempts generalizing lost s calls with
  | zero =>
    obtain ⟨s', round⟩ := attempt_contended_round h decides room s calls
    have last : lost = retries := room
    subst last
    exact ⟨s', round⟩
  | succ attempts ih =>
    obtain ⟨s', round⟩ := attempt_contended_round h decides room s calls
    obtain ⟨s'', rest⟩ := ih (show lost + 1 + attempts = retries by omega) s' (calls + 1)
    have count : calls + 1 + (attempts + 1) = calls + (attempts + 1 + 1) := by omega
    exact ⟨s'', by rw [round, rest, count]⟩

/-- **An update that never gets its write through** gives up after one round more than it may start over.
An operation that counts its calls has counted as many, and as many lost writes are reported. -/
theorem run_contended (h : b.Contended key)
    (decides : ∀ seen now, ∃ decision, operation seen now = .ok decision) (retries : Nat) (s : σ)
    (calls : Nat) : ∃ s', run b.beside key retries operation.counted (s, calls) =
      (.error (.storage (.conflict (retries + 1))), s', calls + (retries + 1)) :=
  attempt_contended h decides (Nat.zero_add retries) s calls

/-- Two retries are three rounds. -/
example :
    let b : Backend Unit :=
      { now := fun _ => 0
        cancelled := fun _ => false
        get := fun _ s => (.ok none, s)
        set := fun _ _ s => (.ok (), s)
        delete := fun _ s => (.ok (), s)
        swap := fun _ _ _ s => (.ok false, s)
        close := fun s => (.ok (), s) }
    let operation : Operation Unit := fun _ _ => .ok (.persistent "mine".toUTF8, ())
    run b.beside "k" 2 operation.counted ((), 0) = (.error (.storage (.conflict 3)), (), 3) := rfl

end Update

end Admission

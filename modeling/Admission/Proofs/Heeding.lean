/-
# Admission.Proofs.Heeding — operations that heed their callers

Every operation of a store looks at its caller before anything else. To one who has given up it says so,
and leaves everything as it was; to the others it may fail for reasons of its own, but it never says that
the client has made a mistake. An operation that keeps to both *heeds* its caller (`Heeding`).

The operations of all stores do: of the one inside the process, of one on a server, whatever the server
answers, and of the one that a configuration chose (`Backend.Heedful`). Hence so do updates, and with
them the limiters.
-/
import Admission.Proofs.Store.Plain
import Admission.Proofs.Update.Steps
import Admission.Store.Chosen

namespace Admission

variable {σ α β : Type}

/-! ## Results -/

/-- A result that is not blamed on the client. -/
def Blameless (result : Except Failure α) : Prop := ∀ f, result = .error f → f.isClientFault = false

namespace Blameless

variable {result : Except Failure α}

theorem ok (a : α) : Blameless (.ok a) := nofun

theorem error {f : Failure} (h : f.isClientFault = false) : Blameless (.error f : Except Failure α) := by
  rintro _ ⟨⟩
  exact h

theorem map (h : Blameless result) (g : α → β) : Blameless (result.map g) := by
  cases result with
  | error f => exact error (h f rfl)
  | ok a => exact ok (g a)

theorem bind (h : Blameless result) {next : α → Except Failure β} (later : ∀ a, Blameless (next a)) :
    Blameless (result >>= next) := by
  cases result with
  | error f => exact error (h f rfl)
  | ok a => exact later a

end Blameless

/-! ## Operations -/

/-- An operation that heeds its caller: one who has given up is told so, and everything is left as it
was. What goes wrong is not blamed on the client. -/
structure Heeding (around : Surroundings σ) (operation : σ → Except Failure α × σ) : Prop where
  /-- A caller who has given up is told so. -/
  cancelled : ∀ s, around.cancelled s = true → operation s = (.error .cancelled, s)
  /-- No failure is the client's fault. -/
  blameless : ∀ s, Blameless (operation s).1

namespace Heeding

variable {around : Surroundings σ} {operation : σ → Except Failure α × σ}

/-- Neither thing depends on what is made of the result. -/
theorem map (h : Heeding around operation) (g : σ → α → β) :
    Heeding around fun s => ((operation s).1.map (g (operation s).2), (operation s).2) where
  cancelled := by
    intro s given
    rw [h.cancelled s given]
    rfl
  blameless s := (h.blameless s).map _

/-- What is blameless heeds its caller if it is guarded. -/
theorem guarded (h : ∀ s, Blameless (operation s).1) : Heeding around (around.guarded operation) where
  cancelled := fun s given => if_pos given
  blameless := by
    intro s
    rw [Surroundings.guarded]
    split
    · exact .error rfl
    · exact h s

end Heeding

/-! ## Stores -/

/-- A backend all of whose operations heed their callers. -/
structure Backend.Heedful (b : Backend σ) : Prop where
  get : ∀ key, Heeding b.toSurroundings (b.get key)
  set : ∀ key entry, Heeding b.toSurroundings (b.set key entry)
  delete : ∀ key, Heeding b.toSurroundings (b.delete key)
  swap : ∀ key expected entry, Heeding b.toSurroundings (b.swap key expected entry)

/-- Whatever is asked of it. -/
theorem Backend.Heedful.perform {b : Backend σ} (h : b.Heedful) (demand : Demand) :
    Heeding b.toSurroundings fun s => b.perform s demand := by
  cases demand with
  | get key => exact (h.get key).map fun _ => Reply.value
  | set key entry => exact (h.set key entry).map fun _ _ => Reply.done
  | delete key => exact (h.delete key).map fun _ _ => Reply.done
  | swap key expected entry => exact (h.swap key expected entry).map fun _ => Reply.swapped

/-- The store inside the process heeds its callers. -/
theorem Memory.heedful (around : Surroundings σ) : (backend around).Heedful where
  get _ := .guarded fun _ => .ok _
  set _ _ := .guarded fun _ => .ok _
  delete _ := .guarded fun _ => .ok _
  swap _ _ _ := .guarded fun _ => .ok _

namespace Remote

namespace Answer

/-- An answer without a meaning is not the client's fault. -/
theorem unusable_blameless (answer : Answer) : answer.unusable.isClientFault = false := by
  cases answer <;> rfl

theorem value_blameless (answer : Answer) : Blameless answer.value := by
  unfold value
  split
  · exact .ok _
  · exact .ok _
  · exact .error answer.unusable_blameless

theorem written_blameless (answer : Answer) : Blameless answer.written := by
  unfold written
  split
  · exact .error (unusable_blameless _)
  · exact .error (unusable_blameless _)
  · exact .ok ()

theorem swapped_blameless (answer : Answer) : Blameless answer.swapped := by
  rw [swapped]
  split
  · exact .ok _
  · exact .error answer.unusable_blameless

end Answer

namespace Client

variable {link : Link σ} {c : Client} {command : σ → Command} {meaning : Answer → Except Failure α}

/-- Nothing is sent without a connection, and a caller who has given up gets none. -/
theorem heeding_withConnection {use : σ → Except Failure α × σ} (used : ∀ s, Blameless (use s).1) :
    Heeding link.toSurroundings fun s => withConnection link c s use where
  cancelled := fun s given => if_pos given
  blameless := by
    intro s
    simp only [withConnection]
    split
    · exact .error rfl
    · split
      · exact .error rfl
      · split
        · exact .error rfl
        · exact used s

theorem heeding_read (clear : ∀ answer, Blameless (meaning answer)) :
    Heeding link.toSurroundings (read link c command meaning) := by
  refine heeding_withConnection fun s => ?_
  simp only
  split
  · exact .error rfl
  · split
    · exact .error rfl
    · exact clear _

theorem heeding_write (clear : ∀ answer, Blameless (meaning answer)) :
    Heeding link.toSurroundings (write link c command meaning) := by
  refine heeding_withConnection fun s => ?_
  simp only
  split
  · exact .error rfl
  · exact clear _

/-- The client itself is not changed by what it sends. -/
theorem heeding_beside {operation : Client → σ → Except Failure α × σ}
    (h : ∀ c, Heeding link.toSurroundings (operation c)) :
    Heeding (backend link).toSurroundings fun s =>
      ((operation s.1 s.2).1, s.1, (operation s.1 s.2).2) where
  cancelled := by
    rintro ⟨c, s⟩ given
    simp only [(h c).cancelled s given]
  blameless := fun s => (h s.1).blameless s.2

/-- A store on a server heeds its callers. -/
theorem heedful (link : Link σ) : (backend link).Heedful where
  get key := heeding_beside fun c => show Heeding _ (c.get link key) from
    heeding_read Answer.value_blameless
  set key entry := heeding_beside fun c => show Heeding _ (c.set link key entry) from
    heeding_write Answer.written_blameless
  delete key := heeding_beside fun c => show Heeding _ (c.delete link key) from
    heeding_write Answer.written_blameless
  swap key expected entry := heeding_beside fun c => show Heeding _ (c.swap link key expected entry) from
    heeding_write Answer.swapped_blameless

end Client

end Remote

namespace Store

variable {link : Remote.Link σ}

/-- A store of either kind heeds its callers where both kinds do. -/
theorem heeding_dispatch {inside : Memory × σ → Except Failure α × Memory × σ}
    {outside : Remote.Client × σ → Except Failure α × Remote.Client × σ}
    (hin : Heeding (Memory.backend link.toSurroundings).toSurroundings inside)
    (hout : Heeding (Remote.Client.backend link).toSurroundings outside) :
    Heeding (backend link).toSurroundings fun s => dispatch s inside outside where
  cancelled := by
    rintro ⟨m | c, s⟩ given
    · simp only [dispatch, hin.cancelled (m, s) given]
    · simp only [dispatch, hout.cancelled (c, s) given]
  blameless := by
    rintro ⟨m | c, s⟩
    · exact hin.blameless (m, s)
    · exact hout.blameless (c, s)

/-- The store that a configuration chose heeds its callers. -/
theorem heedful (link : Remote.Link σ) : (backend link).Heedful :=
  have hin := Memory.heedful link.toSurroundings
  have hout := Remote.Client.heedful link
  { get := fun key => heeding_dispatch (hin.get key) (hout.get key)
    set := fun key entry => heeding_dispatch (hin.set key entry) (hout.set key entry)
    delete := fun key => heeding_dispatch (hin.delete key) (hout.delete key)
    swap := fun key expected entry =>
      heeding_dispatch (hin.swap key expected entry) (hout.swap key expected entry) }

end Store

/-! ## Limiters -/

namespace Update

variable {b : Backend σ} {key : String} {retries : Nat} {action : Action σ α}

/-- An update has not ended with something to blame on the client. -/
def Phase.Blameless : Phase α → Prop
  | .done outcome => Admission.Blameless outcome
  | _ => True

/-- No step of an update ends so. -/
theorem Phase.step_blameless (h : b.Heedful)
    (clear : ∀ seen now s, Admission.Blameless (action seen now s).1) {phase : Phase α}
    (before : phase.Blameless) (s : σ) : (step b key retries action phase s).1.Blameless := by
  cases phase with
  | done outcome => exact before
  | reading lost =>
    have read := (h.get key).blameless s
    simp only [step]
    split
    · exact .error rfl
    · split
      · next missed =>
        rw [missed] at read
        exact .error (read _ rfl)
      · trivial
  | deciding lost seen =>
    have decided := clear seen (b.now s) s
    simp only [step]
    split
    · next undecided =>
      rw [undecided] at decided
      exact .error (decided _ rfl)
    · trivial
  | writing lost seen entry result =>
    have written := (h.swap key seen entry).blameless s
    simp only [step]
    split
    · exact .error rfl
    · split
      · next missed =>
        rw [missed] at written
        exact .error (written _ rfl)
      · exact .ok result
      · rw [afterLoss]
        split
        · exact .error rfl
        · trivial

/-- **An update** heeds its caller. -/
theorem heeding_run (h : b.Heedful)
    (clear : ∀ seen now s, Admission.Blameless (action seen now s).1) :
    Heeding b.toSurroundings (run b key retries action) where
  cancelled := fun _ given => run_given_up given
  blameless := by
    intro s
    rw [run]
    generalize retries + 1 = attempts, 0 = lost
    induction attempts generalizing lost s with
    | zero => exact .error rfl
    | succ attempts ih =>
      have step : ∀ (phase : Phase α) (s : σ), phase.Blameless →
          (Phase.step b key retries action phase s).1.Blameless :=
        fun _ s before => Phase.step_blameless h clear before s
      simp only [attempt]
      split
      · next outcome ended =>
        show (Phase.done outcome : Phase α).Blameless
        rw [← ended]
        exact step _ _ (step _ _ (step (.reading lost) s trivial))
      · exact ih _ _

end Update

namespace TokenBucket

variable {q : Quota}

theorem refill_blameless (b : Bucket) (now : Nat) : Blameless (refill q b now) := by
  rw [refill]
  split
  · exact .ok b
  · split
    · exact .error rfl
    · split <;> exact .ok _

theorem wait_blameless (b : Bucket) (now : Nat) : Blameless (wait q b now) := by
  rw [wait]
  split
  · exact .error rfl
  · exact .ok _

/-- A bucket decides nothing only if the arithmetic of its quota has no result. -/
theorem decide_blameless (seen : Option ByteArray) (now : Nat) : Blameless (decide q seen now) := by
  refine (refill_blameless _ now).bind fun bucket => ?_
  split
  · exact (wait_blameless bucket now).bind fun ms => .ok _
  · exact .ok _

end TokenBucket

namespace Limiter

/-- No limiter blames the client for not deciding. -/
theorem decide_blameless (l : Limiter) (seen : Option ByteArray) (now : Nat) :
    Blameless (l.decide seen now) := by
  obtain ⟨algorithm, q, retries⟩ := l
  cases algorithm with
  | tokenBucket => exact TokenBucket.decide_blameless seen now
  | slidingWindow => exact .ok _

/-- **A limiter** heeds its caller when it decides. -/
theorem heeding_allow {b : Backend σ} (h : b.Heedful) (l : Limiter) (key : String) :
    Heeding b.toSurroundings (l.allow b key) :=
  Update.heeding_run h fun seen now _ => l.decide_blameless seen now

/-- So it does when it forgets. -/
theorem heeding_reset {b : Backend σ} (h : b.Heedful) (l : Limiter) (key : String) :
    Heeding b.toSurroundings (l.reset b key) := h.delete (l.slot key)

end Limiter

end Admission

/-
# Admission.Proofs.Race.Commits — no update is lost

The acts of a call come in *rounds*: it reads, looks at the clock and tries to write over what it has
read. A call starts over only after a lost round, so what it has done is some lost rounds and the part
of a round that goes with its place (`Call.Trace`). From this and the truth of every act about the
store at its instant follows what a race guarantees, whatever the order of the steps
(`run_linear`): the accepted writes and the deletions, in the order in which they happened, are one
sequential history that accounts for the store; a request is allowed or denied by exactly one accepted
write, which is decided on the value that it replaces; and a request that fails has written nothing.

The value that a write replaces may have gone and come back since it was read. That is harmless: the
decision is a function of the value and of the reading of the clock.
-/
import Admission.Proofs.Race.History

namespace Admission

namespace Act

/-- Whether an act is an accepted write. -/
def commits : Act → Bool
  | .wrote _ _ accepted => accepted
  | _ => false

/-- Whether an act is a refused write. -/
def loses : Act → Bool
  | .wrote _ _ accepted => !accepted
  | _ => false

/-- So many rounds that were all lost. -/
inductive Lost : Nat → List Act → Prop
  | none : Lost 0 []
  | more {lost : Nat} {acts : List Act} (earlier : Lost lost acts) (seen : Option ByteArray)
      (now : Nat) (entry : Entry) :
      Lost (lost + 1) (acts ++ [.read seen, .looked now, .wrote seen entry false])

namespace Lost

variable {lost : Nat} {acts : List Act}

/-- Nothing is written in a lost round. -/
theorem countP_commits (h : Lost lost acts) : acts.countP commits = 0 := by
  induction h with
  | none => rfl
  | more earlier seen now entry ih =>
    rw [List.countP_append, ih]
    rfl

/-- One write is refused in each. -/
theorem countP_loses (h : Lost lost acts) : acts.countP loses = lost := by
  induction h with
  | none => rfl
  | more earlier seen now entry ih =>
    rw [List.countP_append, ih]
    rfl

/-- Each takes three steps. -/
theorem length_eq (h : Lost lost acts) : acts.length = 3 * lost := by
  induction h with
  | none => rfl
  | more earlier seen now entry ih =>
    rw [List.length_append, ih]
    rfl

end Lost

end Act

namespace Call

open Act (Lost)

/-- **What a call has done**, by its place. -/
inductive Trace (l : Limiter) : Update.Phase Decision → List Act → Prop
  | reading {lost : Nat} {acts : List Act} (rounds : Lost lost acts) : Trace l (.reading lost) acts
  | deciding {lost : Nat} {acts : List Act} (rounds : Lost lost acts) (seen : Option ByteArray) :
      Trace l (.deciding lost seen) (acts ++ [.read seen])
  | writing {lost : Nat} {acts : List Act} (rounds : Lost lost acts) {seen : Option ByteArray}
      {now : Nat} {entry : Entry} {d : Decision} (decided : l.decide seen now = .ok (entry, d)) :
      Trace l (.writing lost seen entry d) (acts ++ [.read seen, .looked now])
  | decided {lost : Nat} {acts : List Act} (rounds : Lost lost acts) (seen : Option ByteArray)
      (now : Nat) (entry : Entry) (d : Decision) :
      Trace l (.done (.ok d)) (acts ++ [.read seen, .looked now, .wrote seen entry true])
  | failed {acts : List Act} (nothing : acts.countP Act.commits = 0) (f : Failure) :
      Trace l (.done (.error f)) acts

namespace Trace

variable {l : Limiter} {acts : List Act}

/-- A call that has not ended has written nothing. -/
theorem countP_commits {phase : Update.Phase Decision} (h : Trace l phase acts)
    (undecided : ∀ d, phase ≠ .done (.ok d)) : acts.countP Act.commits = 0 := by
  cases h with
  | reading rounds => exact rounds.countP_commits
  | deciding rounds seen =>
    rw [List.countP_append, rounds.countP_commits]
    rfl
  | writing rounds decided =>
    rw [List.countP_append, rounds.countP_commits]
    rfl
  | decided rounds seen now entry d => exact absurd rfl (undecided d)
  | failed nothing => exact nothing

/-- A call that has not ended has lost the writes that its place says, and has taken fewer than three
steps since the last one. -/
theorem of_lost? {phase : Update.Phase Decision} (h : Trace l phase acts) {lost : Nat}
    (waiting : phase.lost? = some lost) :
    acts.countP Act.loses = lost ∧ acts.length ≤ 3 * lost + 2 := by
  cases h with
  | reading rounds =>
    cases waiting
    rw [rounds.countP_loses, rounds.length_eq]
    omega
  | deciding rounds seen =>
    cases waiting
    rw [List.countP_append, List.length_append, rounds.countP_loses, rounds.length_eq]
    exact ⟨rfl, Nat.le_succ _⟩
  | writing rounds decided =>
    cases waiting
    rw [List.countP_append, List.length_append, rounds.countP_loses, rounds.length_eq]
    exact ⟨rfl, Nat.le_refl _⟩
  | decided => cases waiting
  | failed => cases waiting

/-- A step of a call adds to what it has done. -/
theorem moves {c : Call} {now : Nat} {m m' : Memory} {phase : Update.Phase Decision}
    {act : Option Act} (moves : c.Moves now m phase m' act) (h : Trace c.limiter c.phase acts) :
    Trace c.limiter phase (acts ++ act.toList) := by
  cases moves with
  | ended ended =>
    rw [Option.toList_none, List.append_nil, ← ended]
    exact h
  | gaveUp _ place =>
    -- whoever gives up in time has written nothing
    rw [Option.toList_none, List.append_nil]
    have nothing : acts.countP Act.commits = 0 := by
      apply h.countP_commits
      intro d
      rcases place with ⟨lost, place⟩ | ⟨lost, seen, entry, d', place⟩ <;> rw [place] <;> nofun
    exact .failed nothing _
  | read place =>
    rw [place] at h
    cases h with
    | reading rounds => exact .deciding rounds _
  | decided place decided =>
    rw [place] at h
    cases h with
    | deciding rounds seen =>
      rw [Option.toList_some, List.append_assoc]
      exact .writing rounds decided
  | failed place decided =>
    rw [place] at h
    cases h with
    | deciding rounds seen =>
      refine .failed ?_ _
      rw [List.append_assoc, List.countP_append, rounds.countP_commits]
      rfl
  | accepted place live =>
    rw [place] at h
    cases h with
    | writing rounds decided =>
      rw [Option.toList_some, List.append_assoc]
      exact .decided rounds _ _ _ _
  | refused place live =>
    rw [place] at h
    cases h with
    | writing rounds decided =>
      rw [Option.toList_some, List.append_assoc, Update.Phase.afterLoss]
      split
      · exact .failed (rounds.more _ _ _).countP_commits _
      · exact .reading (rounds.more _ _ _)

end Trace

/-- The step that decides a call is no lost write. -/
theorem Moves.countP_loses {c : Call} {now : Nat} {m m' : Memory} {phase : Update.Phase Decision}
    {act : Option Act} (moves : c.Moves now m phase m' act) {d : Decision}
    (decided : phase = .done (.ok d)) : act.toList.countP Act.loses = 0 := by
  cases moves with
  | refused place live =>
    rw [Update.Phase.afterLoss] at decided
    split at decided <;> cases decided
  | _ => rfl

end Call

/-! ## The acts of one call in a race -/

/-- What the call at a position does, if it is that call. -/
def Deed.actOf? (p : Nat) : Deed → Option Act
  | .act q _ what => if q = p then some what else none
  | .deleted _ => none

/-- What the call at a position does in the course of a history. -/
def acts (p : Nat) (history : List Deed) : List Act := history.filterMap (Deed.actOf? p)

/-- Nothing has happened to the calls of a race yet. -/
def Race.Fresh (r : Race) : Prop := ∀ c ∈ r.calls, c.phase = .reading 0

namespace Race

/-- A step of a call adds what it does to its acts. -/
theorem acts_step {r : Race} {s : List Event} {p : Nat} {c : Call}
    (h : (r.run s).calls[p]? = some c) :
    acts p (r.history (s ++ [.step p])) =
      acts p (r.history s) ++ (c.act? (r.run s).now (r.run s).memory).toList := by
  rw [history_concat, acts, List.filterMap_append, deed?, h, Option.bind_some]
  cases c.act? (r.run s).now (r.run s).memory with
  | none => rfl
  | some act => simp [acts, Deed.actOf?]

/-- Nothing else adds to them. -/
theorem acts_other {r : Race} {s : List Event} {p : Nat} {e : Event} (h : e ≠ .step p) :
    acts p (r.history (s ++ [e])) = acts p (r.history s) := by
  rw [history_concat, acts, List.filterMap_append]
  suffices hnone : ((r.run s).deed? e).toList.filterMap (Deed.actOf? p) = [] by
    rw [hnone, List.append_nil, acts]
  cases e with
  | step q =>
    have hq : q ≠ p := by
      intro same
      exact h (congrArg Event.step same)
    rw [deed?]
    cases (r.run s).calls[q]? with
    | none => rfl
    | some c => cases hact : c.act? (r.run s).now (r.run s).memory <;> simp [hact, Deed.actOf?, hq]
  | _ => rfl

/-- **Every call does as its place says.** -/
theorem trace_run {r : Race} (fresh : r.Fresh) (s : List Event) {p : Nat} {c : Call}
    (h : (r.run s).calls[p]? = some c) : Call.Trace c.limiter c.phase (acts p (r.history s)) := by
  induction s using List.reverseRecOn generalizing c with
  | nil =>
    rw [fresh c (List.mem_of_getElem? h)]
    exact .reading .none
  | append_singleton s e ih =>
    rw [run_concat] at h
    obtain ⟨c₀, h₀, limiter, -, ⟨rfl, moves⟩ | ⟨other, phase⟩⟩ := call_happen h
    · rw [acts_step h₀, limiter]
      exact .moves moves (ih h₀)
    · rw [acts_other other, limiter, phase]
      exact ih h₀

/-- A call that has ended stays where it is. -/
theorem ended_run {r : Race} (s : List Event) {p : Nat} {c : Call}
    {outcome : Except Failure Decision} (h : r.calls[p]? = some c)
    (ended : c.phase = .done outcome) :
    ∃ c', (r.run s).calls[p]? = some c' ∧ c'.limiter = c.limiter ∧ c'.key = c.key ∧
      c'.phase = .done outcome := by
  induction s using List.reverseRecOn with
  | nil => exact ⟨c, h, rfl, rfl, ended⟩
  | append_singleton s e ih =>
    obtain ⟨c₁, h₁, limiter, key, ended₁⟩ := ih
    have bound : p < ((r.run s).happen e).calls.length := by
      rw [length_calls_happen]
      exact (List.getElem?_eq_some_iff.mp h₁).1
    obtain ⟨c₀, h₀, limiter', key', ⟨-, moves⟩ | ⟨-, same⟩⟩ :=
      call_happen (List.getElem?_eq_getElem bound)
    · cases h₁.symm.trans h₀
      rw [run_concat]
      refine ⟨_, List.getElem?_eq_getElem bound, limiter'.trans limiter, key'.trans key, ?_⟩
      exact moves.of_done ended₁
    · cases h₁.symm.trans h₀
      rw [run_concat]
      exact ⟨_, List.getElem?_eq_getElem bound, limiter'.trans limiter, key'.trans key,
        same.trans ended₁⟩

/-- Whether an event is a step of the call at a position. -/
def Event.isStep (p : Nat) : Event → Bool
  | .step q => q = p
  | _ => false

/-- A call that has not ended has done something in each of its steps. -/
theorem length_acts {r : Race} {s : List Event} {p : Nat} {c : Call} {lost : Nat}
    (h : (r.run s).calls[p]? = some c) (waiting : c.phase.lost? = some lost) :
    (acts p (r.history s)).length = s.countP (Event.isStep p) := by
  induction s using List.reverseRecOn generalizing c lost with
  | nil => rfl
  | append_singleton s e ih =>
    rw [run_concat] at h
    obtain ⟨c₀, h₀, -, -, ⟨rfl, moves⟩ | ⟨other, phase⟩⟩ := call_happen h
    · obtain ⟨act, hact, lost', waiting'⟩ := moves.of_lost? waiting
      rw [acts_step h₀, hact, List.length_append, List.countP_append, ih h₀ waiting']
      simp [Event.isStep]
    · have elsewhere : Event.isStep p e = false := by
        cases e with
        | step q => exact decide_eq_false fun same => other (congrArg Event.step same)
        | _ => rfl
      rw [acts_other other, List.countP_append, ih h₀ (phase ▸ waiting),
        List.countP_singleton, elsewhere]
      rfl

/-! ## Accepted writes -/

/-- **A commit**: after `before`, the call at a position replaces the live value `seen` of its key by
`entry`. It has read that very value last, has looked at the clock since, and from these two has
decided on `entry` and `d`. -/
structure Commits (r : Race) (before : List Event) (p : Nat) (c : Call) (seen : Option ByteArray)
    (entry : Entry) (d : Decision) : Prop where
  /-- The write is accepted. -/
  accepted : (r.run before).deed? (.step p) = some (.act p c.slot (.wrote seen entry true))
  /-- What it replaces is the live value. -/
  live : (r.run before).memory.live (r.run before).now c.slot = seen
  /-- What it writes has been decided on that value, at the clock reading taken after the last
  reading of it. -/
  decided : ∃ earlier reading,
    acts p (r.history before) = earlier ++ [.read seen, .looked reading] ∧
      c.limiter.decide seen reading = .ok (entry, d)

/-- An accepted write is a step of a call that is about to write; it replaces the live value and ends
the call. -/
theorem deed?_wrote {r : Race} {e : Event} {p : Nat} {key : String} {seen : Option ByteArray}
    {entry : Entry} (h : r.deed? e = some (.act p key (.wrote seen entry true))) :
    ∃ c lost d, e = .step p ∧ r.calls[p]? = some c ∧ c.slot = key ∧
      c.phase = .writing lost seen entry d ∧ r.memory.live r.now c.slot = seen ∧
      (r.happen e).calls[p]? = some { c with phase := .done (.ok d) } := by
  cases e with
  | step q =>
    obtain ⟨c, hc, hact⟩ := Option.bind_eq_some_iff.mp h
    obtain ⟨act, hact, hdeed⟩ := Option.map_eq_some_iff.mp hact
    cases hdeed
    obtain ⟨phase, m', same, moves⟩ := happen_step hc
    rw [hact] at moves
    have bound : p < r.calls.length := (List.getElem?_eq_some_iff.mp hc).1
    cases moves with
    | accepted place live =>
      refine ⟨c, _, _, rfl, hc, rfl, place, live, ?_⟩
      simp only [same, List.getElem?_set_self bound]
  | _ => nomatch h

/-- Every accepted write is the commit of a call that returns what it has decided. -/
theorem commits_of_deed {r : Race} (fresh : r.Fresh) {before : List Event} {p : Nat} {key : String}
    {seen : Option ByteArray} {entry : Entry}
    (h : (r.run before).deed? (.step p) = some (.act p key (.wrote seen entry true)))
    (after : List Event) :
    ∃ c d, (r.run (before ++ .step p :: after)).calls[p]? = some c ∧ c.outcome? = some (.ok d) ∧
      c.slot = key ∧ r.Commits before p c seen entry d := by
  obtain ⟨c, lost, d, -, hc, rfl, place, live, done⟩ := deed?_wrote h
  -- what the call had done by then is what it read, and that it looked at the clock
  have trace := trace_run fresh before hc
  rw [place] at trace
  obtain ⟨c', hc', limiter, key, ended⟩ := ended_run after done rfl
  have slot : c'.slot = c.slot := by rw [Call.slot, limiter, key, Call.slot]
  refine ⟨c', d, ?_, ?_, slot, ?_⟩
  · rw [run_append]
    exact hc'
  · rw [Call.outcome?, ended]
  · generalize hacts : acts p (r.history before) = done at trace
    cases trace with
    | writing rounds decided =>
      exact ⟨slot ▸ h, slot ▸ live, _, _, hacts, limiter ▸ decided⟩

/-- A call that has been decided on has done one accepted write, and it was a commit. -/
theorem commits_of_ok {r : Race} (fresh : r.Fresh) {s : List Event} {p : Nat} {c : Call}
    {d : Decision} (hc : (r.run s).calls[p]? = some c) (ok : c.outcome? = some (.ok d)) :
    (acts p (r.history s)).countP Act.commits = 1 ∧
      ∃ before after seen entry, s = before ++ .step p :: after ∧
        r.Commits before p c seen entry d := by
  have trace := trace_run fresh s hc
  rw [Call.phase_of_outcome? ok] at trace
  generalize hacts : acts p (r.history s) = done at trace
  cases trace with
  | decided rounds seen now entry d =>
    refine ⟨by rw [List.countP_append, rounds.countP_commits]; rfl, ?_⟩
    -- the one accepted write of its acts is somewhere in the schedule
    have hmem : Act.wrote seen entry true ∈ acts p (r.history s) := by simp [hacts]
    obtain ⟨deed, hdeed, hwhat⟩ := List.mem_filterMap.mp hmem
    obtain ⟨before, e, after, rfl, hdone⟩ := split_of_mem_history hdeed
    cases deed with
    | deleted key => cases hwhat
    | act q key what =>
      obtain ⟨rfl, rfl⟩ : q = p ∧ what = .wrote seen entry true := by
        simpa [Deed.actOf?] using hwhat
      obtain ⟨_, _, _, rfl, -⟩ := deed?_wrote hdone
      obtain ⟨c', d', hc', ok', -, commits⟩ := commits_of_deed fresh hdone after
      cases hc.symm.trans hc'
      cases ok.symm.trans ok'
      exact ⟨before, after, seen, entry, rfl, commits⟩

/-- A call that has failed has written nothing. -/
theorem nothing_of_error {r : Race} (fresh : r.Fresh) {s : List Event} {p : Nat} {c : Call}
    {f : Failure} (hc : (r.run s).calls[p]? = some c) (error : c.outcome? = some (.error f)) :
    (acts p (r.history s)).countP Act.commits = 0 := by
  apply (trace_run fresh s hc).countP_commits
  intro d place
  cases place.symm.trans (Call.phase_of_outcome? error)

/-- **A schedule whose accepted writes and deletions are one sequential history.** -/
structure Linear (r : Race) (s : List Event) : Prop where
  /-- What the store holds in the end is what they have left there, in the order in which they
  happened. -/
  holds : (r.run s).memory.Holds (r.run s).now
    ((r.history s).foldl Deed.effect r.memory.table.get?)
  /-- A request that was decided on did one accepted write, which was a commit. -/
  decided : ∀ p c d, (r.run s).calls[p]? = some c → c.outcome? = some (.ok d) →
    (acts p (r.history s)).countP Act.commits = 1 ∧
      ∃ before after seen entry, s = before ++ .step p :: after ∧
        r.Commits before p c seen entry d
  /-- A request that failed did none. -/
  failed : ∀ p c f, (r.run s).calls[p]? = some c → c.outcome? = some (.error f) →
    (acts p (r.history s)).countP Act.commits = 0
  /-- Nothing live is ever replaced but by a commit, whose call returns what it has decided. -/
  commits : ∀ before after p key seen entry, s = before ++ .step p :: after →
    (r.run before).deed? (.step p) = some (.act p key (.wrote seen entry true)) →
    ∃ c d, (r.run s).calls[p]? = some c ∧ c.outcome? = some (.ok d) ∧ c.slot = key ∧
      r.Commits before p c seen entry d

/-- **No update is lost**, whatever the limiters, the keys, the contents of the store and the order
of the steps. -/
theorem run_linear {r : Race} (fresh : r.Fresh) (s : List Event) : r.Linear s where
  holds := r.holds_run s
  decided := fun p c d => commits_of_ok fresh
  failed := fun p c f => nothing_of_error fresh
  commits := by
    rintro before after p key seen entry rfl h
    exact commits_of_deed fresh h after

/-- Two callers of one limiter, and one of another. The second call loses its write to the first one, and
decides anew after a deletion and after some time: its own write is accepted then, and what it is told is
what the first of all calls would be told at that time. The caller of the third gives up before it writes. -/
theorem run_linear_contended :
    let bucket : Limiter := ⟨.tokenBucket, ⟨2, .ofMillis 10⟩, 1⟩
    let log : Limiter := ⟨.slidingWindow, ⟨1, .ofMillis 5⟩, 0⟩
    let r : Race :=
      ⟨.bare (.requests 2), 7, [.fresh bucket "k", .fresh bucket "k", .fresh log "k"]⟩
    let s : List Event :=
      [.step 0, .step 1, .step 0, .step 1, .step 0, .step 2, .step 1, .reset bucket "k", .elapse 4,
        .step 1, .step 2, .cancel 2, .step 2, .sweep, .step 1, .step 1]
    let writes := fun p =>
      ((acts p (r.history s)).countP Act.commits, (acts p (r.history s)).countP Act.loses)
    r.Fresh ∧ r.Linear s ∧ [writes 0, writes 1, writes 2] = [(1, 0), (1, 1), (0, 0)] ∧
      (r.run s).calls.map (·.outcome?) =
        [some (.ok ⟨true, 2, 1, 17, none, some "token_bucket"⟩),
          some (.ok ⟨true, 2, 1, 21, none, some "token_bucket"⟩), some (.error .cancelled)] := by
  intro bucket log r s writes
  have fresh : r.Fresh := by
    intro c hc
    simp only [r, List.mem_cons, List.not_mem_nil, or_false] at hc
    rcases hc with rfl | rfl | rfl <;> rfl
  exact ⟨fresh, run_linear fresh s, by decide +kernel, by decide +kernel⟩

end Race

end Admission

/-
# Admission.Proofs.Race.Window — how many are admitted per window when decisions overlap

A decision of a sliding window is dated by the clock reading that it is made at, and may be written a
good while later. Over a log that it has read, it is written only if that log is still there, and then
nobody has been admitted in between. Over *nothing* it is written whenever there is nothing, even if
there was something in the meantime that has lapsed again. Such a write is *blind* (`Race.Blind`): its
decision does not count an admission that may well lie in its window.

Blind writes are all that goes wrong. In every schedule, no window of that length has more admissions
than the limit and the blind ones in it (`Race.window_le_blind`); and one blind write is enough to have
more than the limit (`Race.window_exceeded`).

The proof keeps a *ledger* of the admissions in the order in which they were written. The stored log
reflects it, every call has the outlook on it that goes with what it has read, and every admission that
is not blind has found room among those before it (`Race.Accounted`).
-/
import Admission.Proofs.Race.Commits
import Admission.Proofs.Scope
import Admission.Proofs.SlidingLog.Reflection
import Mathlib.Data.List.DropRight
import Mathlib.Data.Set.Card

namespace Admission

open SlidingLog (Newest Outlook Reflects Tidy record stored used)

/-! ## Dates and blind writes -/

/-- What a look at the clock shows. -/
def Act.reading? : Act → Option Nat
  | .looked now => some now
  | _ => none

/-- Whether a deed is a reading by the call at a position. -/
def Deed.reads (p : Nat) : Deed → Bool
  | .act q _ (.read _) => q = p
  | _ => false

/-- Whether a deed is an accepted write under a key. -/
def Deed.writes (slot : String) : Deed → Bool
  | .act _ key (.wrote _ _ accepted) => accepted && key = slot
  | _ => false

/-- A deed that is an accepted write under a key is somebody's. -/
theorem Deed.exists_of_writes {d : Deed} {slot : String} (h : d.writes slot = true) :
    ∃ p seen entry, d = .act p slot (.wrote seen entry true) := by
  cases d with
  | deleted key => cases h
  | act p key act =>
    cases act with
    | wrote seen entry accepted =>
      rw [writes, Bool.and_eq_true, decide_eq_true_eq] at h
      obtain ⟨rfl, rfl⟩ := h
      exact ⟨p, seen, entry, rfl⟩
    | _ => cases h

namespace Race

/-- The date of a call: the reading that its last look at the clock has shown. -/
def dated? (p : Nat) (history : List Deed) : Option Nat :=
  ((acts p history).filterMap Act.reading?).getLast?

/-- Whether a write under a key has been accepted since the last reading of a call. -/
def overtaken (slot : String) (p : Nat) (history : List Deed) : Bool :=
  (history.rtakeWhile fun d => !d.reads p).any (·.writes slot)

/-- A call has written over nothing, although a write had been accepted since it had found nothing. -/
def Blind (slot : String) (p : Nat) (history : List Deed) : Prop :=
  ∃ before entry after, history = before ++ .act p slot (.wrote none entry true) :: after ∧
    overtaken slot p before = true

/-- The calls that were allowed under a key by the end of a schedule and are dated in the window that ends
at an instant. -/
def admittedIn (r : Race) (s : List Event) (slot : String) (windowMs : Nat) (u : Int) : Set Nat :=
  {p | ∃ c t, (r.run s).calls[p]? = some c ∧ c.slot = slot ∧ c.allowed = true ∧
    dated? p (r.history s) = some t ∧ u - windowMs < t ∧ (t : Int) ≤ u}

section

variable {slot : String} {p : Nat} {history : List Deed}

theorem overtaken_concat (d : Deed) : overtaken slot p (history ++ [d]) =
    (!d.reads p && (overtaken slot p history || d.writes slot)) := by
  rw [overtaken, List.rtakeWhile_concat]
  cases d.reads p <;> simp [overtaken, Bool.or_comm]

theorem dated?_concat (d : Deed) : dated? p (history ++ [d]) =
    ((d.actOf? p).bind Act.reading?).or (dated? p history) := by
  have more : acts p (history ++ [d]) = acts p history ++ (d.actOf? p).toList := by
    rw [acts, List.filterMap_append]
    cases h : d.actOf? p <;> simp [acts, h]
  rw [dated?, more, List.filterMap_append]
  cases h : d.actOf? p with
  | none => simp [dated?]
  | some act => cases hr : act.reading? <;> simp [dated?, hr]

/-- Once blind, always blind. -/
theorem Blind.append (h : Blind slot p history) (more : List Deed) : Blind slot p (history ++ more) := by
  obtain ⟨before, entry, after, rfl, since⟩ := h
  exact ⟨before, entry, after ++ more, by simp, since⟩

end

/-! ## What every event keeps -/

/-- What a call that has read `seen` knows: it was a log of the limiter, and the call has the outlook that
goes with it. -/
structure Informed (q : Quota) (dates : List Nat) (live : Option ByteArray) (overtaken : Bool)
    (now : Nat) (seen : Option ByteArray) (log : List Nat) (readAt : Nat) : Prop where
  /-- It has read a log, -/
  seen_eq : seen = stored log
  /-- one that the limiter had written by then. -/
  tidy : Tidy q readAt log
  /-- That was in the past. -/
  le : readAt ≤ now
  /-- What has happened since. -/
  outlook : Outlook q dates live (overtaken = true) readAt log

/-- Where a call can be, and what it knows there. A decision is dated after the reading that it is made
on. -/
inductive Placed (q : Quota) (dates : List Nat) (live : Option ByteArray) (overtaken : Bool)
    (dated : Option Nat) (now : Nat) : Update.Phase Decision → Prop where
  | reading (lost : Nat) : Placed q dates live overtaken dated now (.reading lost)
  | deciding (lost : Nat) {seen : Option ByteArray} {log : List Nat} {readAt : Nat}
      (informed : Informed q dates live overtaken now seen log readAt) :
      Placed q dates live overtaken dated now (.deciding lost seen)
  | writing (lost : Nat) {seen : Option ByteArray} {log : List Nat} {readAt date : Nat} {e : Entry}
      {d : Decision} (informed : Informed q dates live overtaken now seen log readAt)
      (dated_eq : dated = some date) (after : readAt ≤ date) (past : date ≤ now) (positive : 0 < date)
      (decided : SlidingLog.decide q seen date = (e, d)) :
      Placed q dates live overtaken dated now (.writing lost seen e d)
  | done (outcome : Except Failure Decision) : Placed q dates live overtaken dated now (.done outcome)

/-- Who loses a write starts over or gives up. -/
theorem Placed.afterLoss {q : Quota} {dates : List Nat} {live : Option ByteArray} {overtaken : Bool}
    {dated : Option Nat} {now : Nat} (retries lost : Nat) :
    Placed q dates live overtaken dated now (.afterLoss retries lost) := by
  rw [Update.Phase.afterLoss]
  split
  · exact .done _
  · exact .reading _

/-- What everybody comes to know keeps everybody in place. -/
theorem Placed.imp {q : Quota} {dates dates' : List Nat} {live live' : Option ByteArray}
    {overtaken overtaken' : Bool} {dated : Option Nat} {now now' : Nat} {phase : Update.Phase Decision}
    (h : Placed q dates live overtaken dated now phase) (le : now ≤ now')
    (informed : ∀ {seen log readAt}, Informed q dates live overtaken now seen log readAt →
      Informed q dates' live' overtaken' now' seen log readAt) :
    Placed q dates' live' overtaken' dated now' phase := by
  cases h with
  | reading lost => exact .reading lost
  | deciding lost known => exact .deciding lost (informed known)
  | writing lost known dated_eq after past positive decided =>
    exact .writing lost (informed known) dated_eq after (Nat.le_trans past le) positive decided
  | done outcome => exact .done outcome

/-- An admission, as the ledger has it. -/
structure Entered where
  /-- The position of the call. -/
  position : Nat
  /-- The date of its decision. -/
  date : Nat
  /-- Whether its decision counts all admissions before it. -/
  sighted : Bool

/-- The dates of a ledger. -/
def dates (ledger : List Entered) : List Nat := ledger.map Entered.date

/-- **A ledger of the admissions under a key**, in the order in which they were written. -/
structure Accounted (q : Quota) (slot : String) (r : Race) (history : List Deed)
    (ledger : List Entered) : Prop where
  /-- What is stored reflects the ledger, now and later. -/
  backed : ∀ t, r.now ≤ t → t < Word.last → ∃ log, r.memory.live t slot = stored log ∧
    Reflects q (dates ledger) t log
  /-- Every call is in its place. -/
  placed : ∀ p c, r.calls[p]? = some c → c.slot = slot →
    Placed q (dates ledger) (r.memory.live r.now slot) (overtaken slot p history) (dated? p history)
      r.now c.phase
  /-- Whoever was not blind has found room. -/
  room : ∀ before a after, ledger = before ++ a :: after → a.sighted = true →
    used q a.date (dates before) < q.limit
  /-- Every admission is in the ledger. -/
  listed : ∀ p c, r.calls[p]? = some c → c.slot = slot → c.allowed = true →
    ∃ a ∈ ledger, a.position = p ∧ dated? p history = some a.date ∧
      (a.sighted = false → Blind slot p history)

/-! ## One event -/

/-- A race in which nothing has happened has an empty ledger. -/
theorem Accounted.fresh {r : Race} (fresh : r.Fresh) (q : Quota) {slot : String}
    (absent : r.memory.live r.now slot = none) : Accounted q slot r [] [] where
  backed := by
    intro t ht _
    refine ⟨[], ?_, .nil q t⟩
    rw [Memory.live, Option.map_eq_none_iff] at absent
    rw [Memory.live, r.memory.present_later ht, absent]
    rfl
  placed := by
    intro p c hc _
    rw [fresh c (List.mem_of_getElem? hc)]
    exact .reading 0
  room := by
    intro before a after h
    exact absurd h (by simp)
  listed := by
    intro p c hc _ allowed
    rw [Call.allowed, fresh c (List.mem_of_getElem? hc)] at allowed
    cases allowed

/-- What is read of a key after an event: the entry that its deed has put there, or what was there. -/
theorem live_happen (r : Race) (e : Event) {t : Nat} (h : (r.happen e).now ≤ t) (slot : String) :
    (r.happen e).memory.live t slot =
      ((r.deed? e).toList.foldl Deed.effect r.memory.table.get? slot).bind (·.live? t) := by
  have holds := holds_happen (r.memory.holds_get? r.now) e
  exact (holds.later h).live_eq slot

/-- An accepted write puts its entry there. -/
theorem live_happen_wrote {r : Race} {e : Event} {p : Nat} {slot : String} {seen : Option ByteArray}
    {entry : Entry} (h : r.deed? e = some (.act p slot (.wrote seen entry true))) {t : Nat}
    (ht : (r.happen e).now ≤ t) : (r.happen e).memory.live t slot = entry.live? t := by
  rw [live_happen r e ht, h]
  simp only [Option.toList_some, List.foldl_cons, List.foldl_nil, Deed.effect, Function.update_self,
    Option.bind_some]

/-- Unless it writes or deletes the key, an event leaves there what was there. -/
theorem live_happen_quiet {r : Race} {e : Event} {slot : String}
    (quiet : ∀ d, r.deed? e = some d → d.writes slot = false ∧ d ≠ .deleted slot) {t : Nat}
    (ht : (r.happen e).now ≤ t) : (r.happen e).memory.live t slot = r.memory.live t slot := by
  have before : r.memory.live t slot = (r.memory.table.get? slot).bind (·.live? t) :=
    (r.memory.holds_get? t).live_eq slot
  rw [live_happen r e ht, before]
  cases hd : r.deed? e with
  | none => rfl
  | some d =>
    obtain ⟨unwritten, kept⟩ := quiet d hd
    simp only [Option.toList_some, List.foldl_cons, List.foldl_nil]
    congr 1
    cases d with
    | deleted key =>
      refine Function.update_of_ne (fun same => kept ?_) _ _
      rw [same]
    | act p key act =>
      cases act with
      | read seen => rfl
      | looked now => rfl
      | wrote seen entry accepted =>
        cases accepted with
        | false => rfl
        | true =>
          refine Function.update_of_ne (fun same => ?_) _ _
          simp [Deed.writes, same] at unwritten

/-- A step takes no time. -/
theorem now_happen_step (r : Race) (p : Nat) : (r.happen (.step p)).now = r.now := by
  cases h : r.calls[p]? with
  | none => rw [happen_step_none h]
  | some c =>
    obtain ⟨_, _, same, -⟩ := happen_step h
    rw [same]

/-- What a call does is done in its own steps. -/
theorem actOf?_other {r : Race} {e : Event} {p : Nat} (h : e ≠ .step p) {d : Deed}
    (hd : r.deed? e = some d) : d.actOf? p = none := by
  cases e with
  | step q =>
    obtain ⟨c, -, hact⟩ := Option.bind_eq_some_iff.mp hd
    obtain ⟨act, -, rfl⟩ := Option.map_eq_some_iff.mp hact
    exact if_neg fun same => h (congrArg Event.step same)
  | reset l k =>
    cases hd
    rfl
  | _ => cases hd

theorem reads_of_actOf? {d : Deed} {p : Nat} (h : d.actOf? p = none) : d.reads p = false := by
  cases d with
  | deleted key => rfl
  | act q key act =>
    have other : q ≠ p := by
      rintro rfl
      simp [Deed.actOf?] at h
    cases act <;> simp [Deed.reads, other]

/-- The steps of others do not change the date of a call. -/
theorem dated?_other {r : Race} {e : Event} {p : Nat} (h : e ≠ .step p) (history : List Deed) :
    dated? p (history ++ (r.deed? e).toList) = dated? p history := by
  cases hd : r.deed? e with
  | none => rw [Option.toList_none, List.append_nil]
  | some d =>
    rw [Option.toList_some, dated?_concat, actOf?_other h hd]
    rfl

/-- Whoever has been overtaken stays so until its own next step. -/
theorem overtaken_other {r : Race} {e : Event} {p : Nat} (h : e ≠ .step p) (slot : String)
    (history : List Deed) : overtaken slot p (history ++ (r.deed? e).toList) =
      (overtaken slot p history || (r.deed? e).any (·.writes slot)) := by
  cases hd : r.deed? e with
  | none => simp
  | some d => simp [overtaken_concat, reads_of_actOf? (actOf?_other h hd)]

/-- **What an event does to a call under a key**: its own step is its deed, and in the steps of others it
stays where it is. -/
theorem call_happen_deed {r : Race} {e : Event} {p : Nat} {c' : Call} {slot : String}
    (h : (r.happen e).calls[p]? = some c') (hslot : c'.slot = slot) :
    ∃ c, r.calls[p]? = some c ∧ c.slot = slot ∧
      (e = .step p ∧ r.deed? (.step p) = (c.act? r.now r.memory).map (.act p slot) ∧
          c.Moves r.now r.memory c'.phase (r.happen e).memory (c.act? r.now r.memory) ∨
        e ≠ .step p ∧ c'.phase = c.phase) := by
  obtain ⟨c, hc, limiter, key, own | other⟩ := call_happen h
  all_goals have hslot : c.slot = slot := by rw [← hslot, Call.slot, Call.slot, limiter, key]
  · refine ⟨c, hc, hslot, .inl ⟨own.1, ?_, own.2⟩⟩
    rw [deed?, hc, Option.bind_some, hslot]
  · exact ⟨c, hc, hslot, .inr other⟩

/-- Who does nothing that writes has no write accepted. -/
theorem act_ne_wrote {r : Race} {e : Event} {p : Nat} {slot : String} {act : Option Act}
    (quiet : ∀ d, r.deed? e = some d → d.writes slot = false ∧ d ≠ .deleted slot)
    (deed : r.deed? e = act.map (.act p slot)) (seen : Option ByteArray) (entry : Entry) :
    act ≠ some (.wrote seen entry true) := by
  rintro rfl
  have unwritten := (quiet _ deed).1
  simp [Deed.writes] at unwritten

section

variable {q : Quota} {slot : String} {r : Race} {history : List Deed} {ledger : List Entered}

/-- What is known stays known when nothing is written under the key. -/
theorem Accounted.informed_later (h : Accounted q slot r history ledger) {m : Memory} {now : Nat}
    (le : r.now ≤ now) (hlast : now < Word.last)
    (same : m.live now slot = r.memory.live now slot) {was is : Bool} (more : was = true → is = true)
    {seen : Option ByteArray} {log : List Nat} {readAt : Nat}
    (informed : Informed q (dates ledger) (r.memory.live r.now slot) was r.now seen log readAt) :
    Informed q (dates ledger) (m.live now slot) is now seen log readAt := by
  obtain ⟨log', there, reflects⟩ :=
    h.backed r.now (Nat.le_refl _) (Nat.lt_of_le_of_lt le hlast)
  refine ⟨informed.seen_eq, informed.tidy, Nat.le_trans informed.le le, ?_⟩
  rw [same]
  exact (informed.outlook.elapse informed.tidy informed.le (Nat.lt_of_le_of_lt le hlast) reflects there
    (r.memory.live_later le slot)).imp more

/-- Whoever is allowed after a step has written in it, or was allowed before. -/
theorem allowed_before {c : Call} {now : Nat} {m m' : Memory} {phase : Update.Phase Decision}
    {act : Option Act} (moves : c.Moves now m phase m' act) (allowed : phase.allowed = true) :
    act = none ∧ c.allowed = true ∨ ∃ seen entry, act = some (.wrote seen entry true) := by
  cases moves with
  | ended stage =>
    refine .inl ⟨rfl, ?_⟩
    rw [Call.allowed, stage]
    exact allowed
  | accepted stage live => exact .inr ⟨_, _, rfl⟩
  | refused stage live =>
    rw [Update.Phase.afterLoss] at allowed
    split at allowed <;> cases allowed
  | _ => cases allowed

/-- **A step of a call that does not write** takes it to a place that goes with what it knows. -/
theorem Accounted.placed_step (h : Accounted q slot r history ledger) {p : Nat} {c : Call}
    (hc : r.calls[p]? = some c) (hslot : c.slot = slot)
    (decides : ∀ seen now, c.limiter.decide seen now = .ok (SlidingLog.decide q seen now))
    (positive : 0 < r.now) (hlast : r.now < Word.last) {m' : Memory}
    {phase : Update.Phase Decision} {act : Option Act} (moves : c.Moves r.now r.memory phase m' act)
    (quiet : ∀ seen entry, act ≠ some (.wrote seen entry true)) :
    Placed q (dates ledger) (r.memory.live r.now slot)
      (overtaken slot p (history ++ (act.map (.act p slot)).toList))
      (dated? p (history ++ (act.map (.act p slot)).toList)) r.now phase := by
  have place := h.placed p c hc hslot
  cases moves with
  | ended stage => exact .done _
  | gaveUp => exact .done _
  | failed => exact .done _
  | refused => exact .afterLoss _ _
  | accepted => exact absurd rfl (quiet _ _)
  | @read lost stage =>
    obtain ⟨log, there, reflects⟩ := h.backed r.now (Nat.le_refl _) hlast
    rw [hslot, there]
    exact .deciding lost ⟨rfl, reflects.tidy, Nat.le_refl _, .read reflects⟩
  | @decided lost seen entry d stage decided =>
    rw [stage] at place
    rw [decides] at decided
    have unread : (Deed.act p slot (.looked r.now)).reads p = false := rfl
    have dated : dated? p (history ++ [Deed.act p slot (.looked r.now)]) = some r.now := by
      rw [dated?_concat]
      simp [Deed.actOf?, Act.reading?]
    have since : overtaken slot p (history ++ [Deed.act p slot (.looked r.now)]) =
        overtaken slot p history := by
      rw [overtaken_concat, unread]
      simp [Deed.writes]
    cases place with
    | deciding lost informed =>
      rw [Option.map_some, Option.toList_some, since]
      exact .writing lost informed dated informed.le (Nat.le_refl _) positive (Except.ok.inj decided)

/-- An admission stays in the ledger, whatever others do. -/
theorem Accounted.listed_other (h : Accounted q slot r history ledger) {e : Event} {p : Nat} {c : Call}
    (hc : r.calls[p]? = some c) (hslot : c.slot = slot) (allowed : c.allowed = true)
    (other : e ≠ .step p) :
    ∃ a ∈ ledger, a.position = p ∧ dated? p (history ++ (r.deed? e).toList) = some a.date ∧
      (a.sighted = false → Blind slot p (history ++ (r.deed? e).toList)) := by
  obtain ⟨a, ha, position, date, blind⟩ := h.listed p c hc hslot allowed
  exact ⟨a, ha, position, (dated?_other other _).trans date, fun unseeing => (blind unseeing).append _⟩

/-- **An event that does not write under the key** leaves the ledger as it is. -/
theorem Accounted.quiet (h : Accounted q slot r history ledger) {e : Event}
    (decides : ∀ c : Call, c.slot = slot → ∀ seen now,
      c.limiter.decide seen now = .ok (SlidingLog.decide q seen now))
    (quiet : ∀ d, r.deed? e = some d → d.writes slot = false ∧ d ≠ .deleted slot)
    (positive : 0 < r.now) (hlast : (r.happen e).now < Word.last) :
    Accounted q slot (r.happen e) (history ++ (r.deed? e).toList) ledger := by
  have le := r.le_now_happen e
  have same : ∀ t, (r.happen e).now ≤ t → (r.happen e).memory.live t slot = r.memory.live t slot :=
    fun t ht => live_happen_quiet quiet ht
  refine ⟨fun t ht => ?_, fun p c' hc' hslot => ?_, h.room, fun p c' hc' hslot allowed => ?_⟩
  · rw [same t ht]
    exact h.backed t (Nat.le_trans le ht)
  · obtain ⟨c, hc, hslot, ⟨rfl, deed, moves⟩ | ⟨other, phase⟩⟩ := call_happen_deed hc' hslot
    · rw [same _ (Nat.le_refl _), now_happen_step, deed]
      exact h.placed_step hc hslot (decides c hslot) positive (Nat.lt_of_le_of_lt le hlast) moves
        (act_ne_wrote quiet deed)
    · rw [phase, dated?_other other]
      refine (h.placed p c hc hslot).imp le (h.informed_later le hlast (same _ (Nat.le_refl _)) ?_)
      rw [overtaken_other other]
      exact fun was => by rw [was, Bool.true_or]
  · obtain ⟨c, hc, hslot, ⟨rfl, deed, moves⟩ | ⟨other, phase⟩⟩ := call_happen_deed hc' hslot
    · -- whoever is allowed after a step that writes nothing was allowed before it
      rcases allowed_before moves allowed with ⟨still, before⟩ | ⟨seen, entry, wrote⟩
      · rw [deed, still, Option.map_none, Option.toList_none, List.append_nil]
        exact h.listed p c hc hslot before
      · exact absurd wrote (act_ne_wrote quiet deed seen entry)
    · rw [Call.allowed, phase] at allowed
      exact h.listed_other hc hslot allowed other

/-- The ledger with a decision that has been recorded. -/
def enter (ledger : List Entered) (p date : Nat) (sighted : Bool) (d : Decision) : List Entered :=
  ledger ++ if d.allowed then [⟨p, date, sighted⟩] else []

theorem dates_enter (p date : Nat) (sighted : Bool) (d : Decision) :
    dates (enter ledger p date sighted d) = record (dates ledger) d date := by
  rw [enter, dates, List.map_append, record]
  split <;> rfl

/-- Whoever is entered has found room, unless it was blind. -/
theorem Accounted.room_enter (h : Accounted q slot r history ledger) {p date : Nat} {sighted : Bool}
    {d : Decision} (room : d.allowed = true → sighted = true → used q date (dates ledger) < q.limit)
    {before after : List Entered} {a : Entered}
    (split : enter ledger p date sighted d = before ++ a :: after) (seen : a.sighted = true) :
    used q a.date (dates before) < q.limit := by
  rw [enter] at split
  cases allowed : d.allowed with
  | false =>
    rw [if_neg (by simp [allowed]), List.append_nil] at split
    exact h.room before a after split seen
  | true =>
    rw [if_pos allowed] at split
    rcases List.eq_nil_or_concat after with rfl | ⟨after', last, rfl⟩
    · obtain ⟨rfl, rfl⟩ := List.append_inj' split rfl |>.imp id (List.cons.inj · |>.1)
      exact room allowed seen
    · rw [List.concat_eq_append, ← List.cons_append, ← List.append_assoc] at split
      exact h.room before a after' (List.append_inj' split rfl).1 seen

/-- What there is to know of a write that is accepted under the key: what its decision was made on, when,
and whether it counts all admissions before it. -/
structure Committed (q : Quota) (slot : String) (r : Race) (history : List Deed)
    (ledger : List Entered) (p : Nat) (entry : Entry) (log : List Nat) (date : Nat) (d : Decision)
    (sighted : Bool) : Prop where
  /-- The log that it was made on is still there, -/
  there : r.memory.live r.now slot = stored log
  /-- and reflects the ledger. -/
  reflects : Reflects q (dates ledger) r.now log
  /-- It was made at an instant, -/
  decided : SlidingLog.decide q (stored log) date = (entry, d)
  /-- which is its date, -/
  dated_eq : dated? p history = some date
  /-- and not the epoch. -/
  positive : 0 < date
  /-- That was in the past, -/
  past : date ≤ r.now
  /-- and not before any admission that it knew of. -/
  latest : ∀ s ∈ log, s ≤ date
  /-- What it is a write of: a log that it has read. -/
  deed : r.deed? (.step p) = some (.act p slot (.wrote (stored log) entry true))
  /-- If it is sighted it has found room. -/
  room : d.allowed = true → sighted = true → used q date (dates ledger) < q.limit
  /-- If it is not, it has missed a write. -/
  blind : sighted = false → log = [] ∧ overtaken slot p history = true
  /-- Its call ends with it. -/
  done : ∀ c, (r.happen (.step p)).calls[p]? = some c → c.phase = .done (.ok d)

/-- **A write that is accepted** is over what its call has read: what is there now is the log that its
decision was made on. -/
theorem Accounted.committed (h : Accounted q slot r history ledger) {e : Event} {p : Nat}
    {seen : Option ByteArray} {entry : Entry}
    (deed : r.deed? e = some (.act p slot (.wrote seen entry true))) (hlast : r.now < Word.last) :
    e = .step p ∧ ∃ log date d sighted,
      Committed q slot r history ledger p entry log date d sighted := by
  obtain ⟨c, lost, d, rfl, hc, hslot, stage, live, hdone⟩ := deed?_wrote deed
  refine ⟨rfl, ?_⟩
  have place := h.placed p c hc hslot
  rw [stage] at place
  cases place with
  | @writing _ _ log readAt date _ _ informed dated_eq after past positive decided =>
    -- what has been read is still there
    obtain ⟨log', there, reflects⟩ := h.backed r.now (Nat.le_refl _) hlast
    rw [hslot] at live
    obtain rfl := Outlook.eq_of_live informed.tidy informed.le hlast reflects
      (informed.seen_eq.symm.trans (live.symm.trans there))
    rw [informed.seen_eq] at decided deed
    have latest : ∀ s ∈ log, s ≤ date := fun s hs => Nat.le_trans (informed.tidy.le s hs) after
    have room := SlidingLog.room_of_allowed (informed.tidy.later after)
      (Nat.lt_of_le_of_lt past hlast) decided
    have done : ∀ c, (r.happen (.step p)).calls[p]? = some c → c.phase = .done (.ok d) := by
      intro c' hc'
      cases hdone.symm.trans hc'
      rfl
    rcases informed.outlook.counts reflects there after with same | blind
    · refine ⟨log, date, d, true, there, reflects, decided, dated_eq, positive, past, latest, deed,
        fun allowed _ => ?_, fun unseeing => ?_, done⟩
      · rw [same]
        exact room allowed
      · cases unseeing
    · refine ⟨log, date, d, false, there, reflects, decided, dated_eq, positive, past, latest, deed,
        fun _ sees => ?_, fun _ => blind, done⟩
      cases sees

namespace Committed

variable {p : Nat} {entry : Entry} {log : List Nat} {date : Nat} {d : Decision} {sighted : Bool}

/-- The new log reflects the new ledger. -/
theorem backed (w : Committed q slot r history ledger p entry log date d sighted) (valid : q.Valid)
    {t : Nat} (ht : r.now ≤ t) (hlt : t < Word.last) :
    ∃ log', (r.happen (.step p)).memory.live t slot = stored log' ∧
      Reflects q (dates (enter ledger p date sighted d)) t log' := by
  have later : (r.happen (.step p)).now ≤ t := by rwa [now_happen_step]
  rw [live_happen_wrote w.deed later, dates_enter]
  exact w.reflects.commit valid w.positive w.past w.latest w.decided ht hlt

/-- Everybody else is overtaken by it. -/
theorem placed_other (w : Committed q slot r history ledger p entry log date d sighted)
    (valid : q.Valid) (hlast : r.now < Word.last) {p' : Nat} (other : Event.step p ≠ .step p')
    {phase : Update.Phase Decision}
    (place : Placed q (dates ledger) (r.memory.live r.now slot) (overtaken slot p' history)
      (dated? p' history) r.now phase) :
    Placed q (dates (enter ledger p date sighted d))
      ((r.happen (.step p)).memory.live (r.happen (.step p)).now slot)
      (overtaken slot p' (history ++ (r.deed? (.step p)).toList))
      (dated? p' (history ++ (r.deed? (.step p)).toList)) (r.happen (.step p)).now phase := by
  have behind : overtaken slot p' (history ++ (r.deed? (.step p)).toList) = true := by
    rw [overtaken_other other, w.deed]
    simp [Deed.writes]
  rw [dated?_other other, dates_enter, live_happen_wrote w.deed (Nat.le_refl _), behind,
    now_happen_step]
  refine place.imp (Nat.le_refl _) fun known => ⟨known.seen_eq, known.tidy, known.le, ?_⟩
  exact (known.outlook.commit valid known.tidy known.le hlast w.reflects w.there w.past w.latest
    w.decided).imp fun _ => rfl

/-- It is entered itself if it allows. -/
theorem listed (w : Committed q slot r history ledger p entry log date d sighted)
    (allowed : d.allowed = true) :
    ∃ a ∈ enter ledger p date sighted d, a.position = p ∧
      dated? p (history ++ (r.deed? (.step p)).toList) = some a.date ∧
      (a.sighted = false → Blind slot p (history ++ (r.deed? (.step p)).toList)) := by
  refine ⟨⟨p, date, sighted⟩, ?_, rfl, ?_, fun unseeing => ?_⟩
  · rw [enter, if_pos allowed]
    exact List.mem_append_right _ (List.mem_singleton_self _)
  · rw [w.deed, Option.toList_some, dated?_concat, ← w.dated_eq]
    simp [Deed.actOf?, Act.reading?]
  · obtain ⟨rfl, behind⟩ := w.blind unseeing
    exact ⟨history, entry, [], by rw [w.deed]; rfl, behind⟩

end Committed

/-- **A write that is accepted under the key** enters its decision, if that allows. -/
theorem Accounted.commit (valid : q.Valid) (h : Accounted q slot r history ledger) {e : Event}
    {p : Nat} {seen : Option ByteArray} {entry : Entry}
    (deed : r.deed? e = some (.act p slot (.wrote seen entry true)))
    (hlast : (r.happen e).now < Word.last) :
    ∃ ledger', Accounted q slot (r.happen e) (history ++ (r.deed? e).toList) ledger' := by
  have hnow : r.now < Word.last := Nat.lt_of_le_of_lt (le_now_happen r e) hlast
  obtain ⟨rfl, log, date, d, sighted, w⟩ := h.committed deed hnow
  refine ⟨enter ledger p date sighted d, fun t ht hlt => ?_, fun p' c' hc' hslot => ?_,
    fun before a after => h.room_enter w.room, fun p' c' hc' hslot allowed => ?_⟩
  · rw [now_happen_step] at ht
    exact w.backed valid ht hlt
  · obtain ⟨c, hc, hslot, ⟨same, -⟩ | ⟨other, phase⟩⟩ := call_happen_deed hc' hslot
    · cases same
      rw [w.done c' hc']
      exact .done _
    · rw [phase]
      exact w.placed_other valid hnow other (h.placed p' c hc hslot)
  · obtain ⟨c, hc, hslot, ⟨same, -⟩ | ⟨other, phase⟩⟩ := call_happen_deed hc' hslot
    · cases same
      rw [Call.allowed, w.done c' hc'] at allowed
      exact w.listed allowed
    · rw [Call.allowed, phase] at allowed
      obtain ⟨a, ha, known⟩ := h.listed_other hc hslot allowed other
      exact ⟨a, List.mem_append_left _ ha, known⟩

/-- **One event** keeps a ledger. -/
theorem Accounted.happen (valid : q.Valid) (h : Accounted q slot r history ledger) {e : Event}
    (decides : ∀ c : Call, c.slot = slot → ∀ seen now,
      c.limiter.decide seen now = .ok (SlidingLog.decide q seen now))
    (kept : ∀ l k, e = .reset l k → l.slot k ≠ slot) (positive : 0 < r.now)
    (hlast : (r.happen e).now < Word.last) :
    ∃ ledger', Accounted q slot (r.happen e) (history ++ (r.deed? e).toList) ledger' := by
  by_cases commits : ∃ p seen entry, r.deed? e = some (.act p slot (.wrote seen entry true))
  · obtain ⟨p, seen, entry, deed⟩ := commits
    exact h.commit valid deed hlast
  · refine ⟨ledger, h.quiet decides (fun d hd => ⟨Bool.eq_false_iff.mpr fun writes => ?_, ?_⟩) positive
      hlast⟩
    · obtain ⟨p, seen, entry, rfl⟩ := Deed.exists_of_writes writes
      exact commits ⟨p, seen, entry, hd⟩
    · rintro rfl
      cases e with
      | reset l k => exact kept l k rfl (Deed.deleted.inj (Option.some.inj hd))
      | step p =>
        obtain ⟨c, -, hact⟩ := Option.bind_eq_some_iff.mp hd
        obtain ⟨act, -, same⟩ := Option.map_eq_some_iff.mp hact
        cases same
      | _ => cases hd

end

/-! ## Whole schedules -/

theorem le_now_run (r : Race) (s : List Event) : r.now ≤ (r.run s).now := by
  induction s using List.reverseRecOn with
  | nil => exact Nat.le_refl _
  | append_singleton s e ih =>
    rw [run_concat]
    exact Nat.le_trans ih (le_now_happen _ e)

/-- **Every schedule has a ledger**, if the key is absent in the beginning and nobody forgets it. -/
theorem accounted_run {q : Quota} (valid : q.Valid) {slot : String}
    (decides : ∀ c : Call, c.slot = slot → ∀ seen now,
      c.limiter.decide seen now = .ok (SlidingLog.decide q seen now))
    {r : Race} (fresh : r.Fresh) (absent : r.memory.live r.now slot = none) (positive : 0 < r.now)
    {s : List Event} (kept : ∀ l k, .reset l k ∈ s → l.slot k ≠ slot)
    (hlast : (r.run s).now < Word.last) :
    ∃ ledger, Accounted q slot (r.run s) (r.history s) ledger := by
  induction s using List.reverseRecOn with
  | nil => exact ⟨[], .fresh fresh q absent⟩
  | append_singleton s e ih =>
    rw [run_concat] at hlast ⊢
    rw [history_concat]
    obtain ⟨ledger, accounted⟩ := ih
      (fun l k h => kept l k (List.mem_append_left _ h))
      (Nat.lt_of_le_of_lt (le_now_happen _ e) hlast)
    refine accounted.happen valid decides (fun l k h => ?_)
      (Nat.lt_of_lt_of_le positive (le_now_run r s)) hlast
    exact kept l k (List.mem_append_right _ (by rw [h]; exact List.mem_singleton_self _))

/-- The sighted admissions that a ledger has in the window that ends at an instant. -/
def sightedIn (q : Quota) (u : Int) (ledger : List Entered) : List Entered :=
  ledger.filter fun a => a.sighted && decide (u - q.windowMs < a.date ∧ (a.date : Int) ≤ u)

/-- If every sighted admission has found room among those before it, no window of that length has more of
them than the limit. -/
theorem length_sightedIn_le {q : Quota} {ledger : List Entered}
    (room : ∀ before a after, ledger = before ++ a :: after → a.sighted = true →
      used q a.date (dates before) < q.limit) (u : Int) :
    (sightedIn q u ledger).length ≤ q.limit := by
  induction ledger using List.reverseRecOn with
  | nil => exact Nat.zero_le _
  | append_singleton ledger a ih =>
    have ih := ih fun before b after h hb => room before b (after ++ [a])
      (by rw [h, List.append_assoc]; rfl) hb
    rw [sightedIn, List.filter_append, List.length_append, ← sightedIn]
    by_cases counts : (a.sighted && decide (u - q.windowMs < a.date ∧ (a.date : Int) ≤ u)) = true
    · rw [List.filter_singleton, counts, cond_true, List.length_singleton]
      rw [Bool.and_eq_true, decide_eq_true_eq] at counts
      -- whatever lies in this window before `a` was in the window that `a` found room in
      have found := room ledger a [] rfl counts.1
      have sub : (sightedIn q u ledger).length ≤ used q a.date (dates ledger) := by
        rw [sightedIn, ← List.countP_eq_length_filter, used, dates, List.countP_map]
        apply List.countP_mono_left
        intro b _ hb
        simp only [Bool.and_eq_true, decide_eq_true_eq, Function.comp_apply] at hb ⊢
        omega
      omega
    · rw [List.filter_singleton, Bool.eq_false_iff.mpr counts, cond_false]
      exact ih

/-- Limiters that keep their state under the same key decide alike. -/
theorem decide_of_slot {q : Quota} {retries : Nat} {key : String} {c : Call}
    (h : c.slot = (SlidingLog.limiter q retries).slot key) (seen : Option ByteArray) (now : Nat) :
    c.limiter.decide seen now = .ok (SlidingLog.decide q seen now) := by
  have scope : c.limiter.scope c.key = (SlidingLog.limiter q retries).scope key :=
    Scope.slot_injective h
  obtain ⟨algorithm, limit, windowMs, -⟩ := Scope.mk.inj scope
  have algorithm : c.limiter.algorithm = .slidingWindow := algorithm
  rw [Limiter.decide, algorithm]
  exact congrArg Except.ok (SlidingLog.decide_congr limit windowMs seen now)

/-- **The window bound.** Any number of overlapping decisions of a sliding window on one key that is absent
in the beginning, among any others, while time passes and entries are swept: no window of that length has
more admissions than the limit and the blind ones in it. -/
theorem window_le_blind {q : Quota} (valid : q.Valid) (retries : Nat) (key : String) {r : Race}
    (fresh : r.Fresh)
    (absent : r.memory.live r.now ((SlidingLog.limiter q retries).slot key) = none)
    (positive : 1 ≤ r.now) {s : List Event}
    (kept : ∀ l k, .reset l k ∈ s → l.slot k ≠ (SlidingLog.limiter q retries).slot key)
    (hlast : (r.run s).now < Word.last) (u : Int) :
    let slot := (SlidingLog.limiter q retries).slot key
    let admitted := r.admittedIn s slot q.windowMs u
    admitted.encard ≤ q.limit + {p ∈ admitted | Blind slot p (r.history s)}.encard := by
  intro slot admitted
  obtain ⟨ledger, accounted⟩ :=
    accounted_run valid (fun _ => decide_of_slot) fresh absent positive kept hlast
  -- the ledger has a sighted admission for each call that is not blind
  have covered : admitted \ {p ∈ admitted | Blind slot p (r.history s)} ⊆
      (((sightedIn q u ledger).map Entered.position).toFinset : Set Nat) := by
    rintro p ⟨⟨c, t, hc, hslot, allowed, dated, inside⟩, sees⟩
    obtain ⟨a, ha, rfl, date, blind⟩ := accounted.listed p c hc hslot allowed
    cases dated.symm.trans date
    have sighted : a.sighted = true := by
      by_contra unseeing
      exact sees ⟨⟨c, a.date, hc, hslot, allowed, dated, inside⟩,
        blind (Bool.eq_false_iff.mpr unseeing)⟩
    simp only [List.coe_toFinset, List.mem_map, Set.mem_ofPred_eq]
    refine ⟨a, List.mem_filter.mpr ⟨ha, ?_⟩, rfl⟩
    rw [sighted, Bool.true_and]
    exact decide_eq_true inside
  have few : (((sightedIn q u ledger).map Entered.position).toFinset : Set Nat).encard ≤ q.limit := by
    rw [Set.encard_coe_eq_coe_finsetCard]
    have := List.toFinset_card_le ((sightedIn q u ledger).map Entered.position)
    rw [List.length_map] at this
    exact_mod_cast Nat.le_trans this (length_sightedIn_le accounted.room u)
  have parts := Set.encard_sdiff_add_encard_of_subset
    (Set.sep_subset admitted fun p => Blind slot p (r.history s))
  rw [← parts]
  gcongr
  exact (Set.encard_le_encard covered).trans few

/-! ## One blind write -/

/-- One request per ten milliseconds. -/
def oncePerTen : Quota := ⟨1, .ofMillis 10⟩

/-- Two callers at once, at 5. -/
def pair : Race :=
  let call : Call := .fresh (SlidingLog.limiter oncePerTen 0) "k"
  ⟨.bare .manual, 5, [call, call]⟩

/-- The first one reads nothing and decides at 5. The second one is admitted at 6. When its entry lapses,
at 16, the first one writes. -/
def belated : List Event :=
  [.step 0, .step 0, .elapse 1, .step 1, .step 1, .step 1, .elapse 10, .step 0]

theorem mem_admittedIn {r : Race} {s : List Event} {slot : String} {windowMs p t : Nat} {u : Int}
    (allowed : (r.run s).calls[p]?.map (fun c => (c.slot, c.allowed)) = some (slot, true))
    (dated : dated? p (r.history s) = some t) (inside : u - windowMs < t ∧ (t : Int) ≤ u) :
    p ∈ r.admittedIn s slot windowMs u := by
  obtain ⟨c, hc, same⟩ := Option.map_eq_some_iff.mp allowed
  obtain ⟨hslot, allowed⟩ := Prod.mk.inj same
  exact ⟨c, t, hc, hslot, allowed, dated, inside⟩

/-- Both are admitted, and dated 5 and 6. -/
theorem pair_admitted :
    {0, 1} ⊆ pair.admittedIn belated ((SlidingLog.limiter oncePerTen 0).slot "k")
      oncePerTen.windowMs 6 := by
  rintro p (rfl | rfl)
  · exact mem_admittedIn (t := 5) (by decide +kernel) (by decide +kernel) (by decide +kernel)
  · exact mem_admittedIn (t := 6) (by decide +kernel) (by decide +kernel) (by decide +kernel)

theorem pair_fresh : pair.Fresh := by
  intro c hc
  simp only [pair, List.mem_cons, List.not_mem_nil, or_false, or_self] at hc
  rw [hc]
  rfl

/-- The bound with the blind admissions holds of the two: one of them is blind. -/
theorem window_le_blind_of_belated :
    let slot := (SlidingLog.limiter oncePerTen 0).slot "k"
    let admitted := pair.admittedIn belated slot oncePerTen.windowMs 6
    (oncePerTen.Valid ∧ pair.Fresh ∧ pair.memory.live pair.now slot = none ∧ 1 ≤ pair.now ∧
        (∀ l k, .reset l k ∈ belated → l.slot k ≠ slot) ∧ (pair.run belated).now < Word.last) ∧
      admitted.encard ≤
        oncePerTen.limit + {p ∈ admitted | Blind slot p (pair.history belated)}.encard := by
  intro slot admitted
  have valid : oncePerTen.Valid := ⟨by decide, by decide, by decide⟩
  have absent : pair.memory.live pair.now slot = none := rfl
  have kept : ∀ l k, .reset l k ∈ belated → l.slot k ≠ slot := by
    intro l k h
    simp [belated] at h
  have hlast : (pair.run belated).now < Word.last := by decide +kernel
  exact ⟨⟨valid, pair_fresh, absent, by decide, kept, hlast⟩,
    window_le_blind valid 0 "k" pair_fresh absent (by decide) kept hlast 6⟩

/-- **The limit alone is no bound**: where one request is allowed per ten milliseconds, the window that ends
at 6 has two admissions. -/
theorem window_exceeded :
    let slot := (SlidingLog.limiter oncePerTen 0).slot "k"
    oncePerTen.Valid ∧ pair.Fresh ∧ pair.memory.live pair.now slot = none ∧ 1 ≤ pair.now ∧
      (∀ l k, .reset l k ∉ belated) ∧ (pair.run belated).now < Word.last ∧
      ¬ (pair.admittedIn belated slot oncePerTen.windowMs 6).encard ≤ oncePerTen.limit := by
  intro slot
  refine ⟨⟨by decide, by decide, by decide⟩, pair_fresh, rfl, by decide, by simp [belated],
    by decide +kernel, fun few => ?_⟩
  have both := (Set.encard_le_encard pair_admitted).trans few
  rw [Set.encard_pair Nat.zero_ne_one] at both
  exact absurd both (by decide)

end Race

end Admission

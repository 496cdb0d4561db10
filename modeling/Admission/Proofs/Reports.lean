/-
# Admission.Proofs.Reports — what becomes of the reports of denials

A service answers requests, and somebody takes its reports, wants no more of them, or leaves; all that in
any order, and in between anything may happen to the store. Three things are shown.

* Nobody who asks can tell whether denials are reported: the service answers as one that reports nothing,
  and has the same in its store (`heard`).
* A denial is reported once, with what was in force and the instant (`Denial.Tells`); and nothing else is
  reported (`checked`).
* No report gets lost unnoticed (`Accounted`), over any channel that does what is documented. As long as the
  taker does not leave, every denial has been taken, or waits, or was missed, and those that were missed are
  counted. The reports are taken in the order of the denials, and those that are missing found no room or
  were not wanted any more. It is enough to see that each happening moves the outbox by what is taken and
  what is due (`happen_moved`).
-/
import Admission.Proofs.Channel
import Admission.Proofs.Check
import Admission.Race
import Mathlib.Data.List.Induction

namespace Admission

/-! ## One request -/

/-- **What the report of a denied request tells**: what the request asks for, or the defaults for what it
leaves out, by which the limiter has decided; and the instant. -/
structure Denial.Tells (report : Denial) (d : Defaults) (r : Request) (l : Limiter) (now : Nat) :
    Prop where
  /-- It tells that a limit was exceeded. -/
  kind : report.kind = "limit_exceeded"
  /-- The caller key is that of the request. -/
  key : report.key = r.key
  /-- The algorithm is the one that is asked for. -/
  algorithm : report.algorithm = (Service.given r.algorithm).getD d.algorithm.name
  /-- The limiter has decided by it. -/
  decider : report.algorithm = l.algorithm.name
  /-- The limit is the one that is asked for. -/
  limit : report.limit = r.limit.getD d.limit
  /-- The window is the one that is asked for, as a text, and the limiter has decided by both. -/
  window : ∃ w, Service.window d r = .ok w ∧ report.window = w.format ∧ l.quota = ⟨report.limit, w⟩
  /-- The instant is what the clock reads. -/
  timestamp : report.timestamp = now
  /-- There is an explanation. -/
  message : report.message = "Rate limit exceeded"

namespace Service

variable {σ κ : Type} {d : Defaults} {r : Request} {spec : LimiterSpec} {l : Limiter}

/-- The report that a denied request calls for tells all that. -/
theorem reportOf_tells (enlisted : enlist d r = .ok (spec, l)) (now : Nat) :
    ∃ report, reportOf d r now = some report ∧ report.Tells d r l now := by
  obtain ⟨algorithm, limit, window⟩ := enlist_spec enlisted
  have quota := (Limiter.create_made (enlist_made enlisted).2).2
  rw [limit] at quota
  refine ⟨_, by rw [reportOf, window]; rfl, ?_⟩
  exact {
    kind := rfl
    key := rfl
    algorithm := rfl
    decider := algorithm.symm
    limit := rfl
    window := ⟨spec.window, window, rfl, quota⟩
    timestamp := rfl
    message := rfl }

/-- What becomes of a request: the answer, and the service after that. -/
inductive Checked (b : Backend σ) (c : Channel κ) (r : Request) (s : Service σ κ) :
    Except Failure Response × Service σ κ → Prop where
  /-- It fails, and nothing is reported. -/
  | failed (f : Failure) (store : σ) : Checked b c r s (.error f, { s with store := store })
  /-- It is allowed, and nothing is reported. -/
  | allowed (response : Response) (store : σ) (allowed : response.allowed = true) :
    Checked b c r s (.ok response, { s with store := store })
  /-- It is denied by a limiter, and that is reported once. -/
  | denied (response : Response) (store : σ) (report : Denial) (l : Limiter) (decision : Decision)
    (denied : response.allowed = false)
    (decided : l.allow b r.key s.store = (.ok decision, store)) (refused : decision.allowed = false)
    (called : reportOf s.defaults r (b.now store) = some report)
    (tells : report.Tells s.defaults r l (b.now store)) :
    Checked b c r s (.ok response,
      { s with store := store, outbox := s.outbox.map fun o => (o.publish c report).2 })

/-- **A denial is reported once**, and nothing else is. -/
theorem checked (s : Service σ κ) (b : Backend σ) (c : Channel κ) (r : Request) :
    Checked b c r s (s.check b c r) := by
  rw [check_eq]
  cases consulted : consult b s.defaults r s.store with
  | mk outcome store =>
    cases outcome with
    | error f => exact .failed f store
    | ok answered =>
      obtain ⟨response, due⟩ := answered
      obtain ⟨spec, l, decision, enlisted, decided, rfl, rfl⟩ := consult_ok consulted
      cases verdict : decision.allowed with
      | true => exact .allowed (respond decision) store verdict
      | false =>
        obtain ⟨report, called, tells⟩ := reportOf_tells enlisted (b.now store)
        simp only [Bool.false_eq_true, if_false, called]
        exact .denied _ store report l decision verdict decided verdict called tells

/-- The defaults stay. -/
theorem check_defaults (b : Backend σ) (c : Channel κ) (r : Request) (s : Service σ κ) :
    (s.check b c r).2.defaults = s.defaults := by
  rw [check_eq]

/-- **Whether denials are reported** makes no difference to an answer, nor to the store. -/
theorem check_heard (b : Backend σ) (c : Channel κ) (r : Request) {s t : Service σ κ}
    (store : t.store = s.store) (defaults : t.defaults = s.defaults) :
    (t.check b c r).1 = (s.check b c r).1 ∧ (t.check b c r).2.store = (s.check b c r).2.store := by
  rw [check_eq, check_eq, store, defaults]
  exact ⟨rfl, rfl⟩

end Service

/-! ## Whole runs -/

namespace Reports

variable {σ κ : Type}

/-- Something that happens to a service, or to whoever takes its reports. -/
inductive Happening (σ : Type) where
  /-- A request is answered. -/
  | check (request : Request)
  /-- The oldest report is taken, if one waits. -/
  | take
  /-- No more reports are wanted. -/
  | close
  /-- The taker leaves. -/
  | leave
  /-- Something happens to the store: time passes, entries are swept, or anything else. -/
  | other (change : σ → σ)

/-- What there is to see of it. -/
inductive Sight where
  /-- An answer. -/
  | answer (answer : Except Failure Response)
  /-- A report that was taken, if one was. -/
  | taken (report : Option Denial)
  /-- Nothing. -/
  | nothing

/-- What comes of it. -/
def happen (b : Backend σ) (c : Channel κ) (s : Service σ κ) : Happening σ → Sight × Service σ κ
  | .check r => let (answer, s) := s.check b c r; (.answer answer, s)
  | .take => (.taken (s.outbox.bind fun o => (o.receive c).1),
      { s with outbox := s.outbox.map fun o => (o.receive c).2 })
  | .close => (.nothing, { s with outbox := s.outbox.map fun o => o.close c })
  | .leave => (.nothing, { s with outbox := s.outbox.map fun o => o.hangUp c })
  | .other change => (.nothing, { s with store := change s.store })

/-- The answer, if it is one. -/
def Sight.answer? : Sight → Option (Except Failure Response)
  | answer a => some a
  | _ => none

/-- The report that was taken, if one was. -/
def Sight.taken? : Sight → Option Denial
  | taken report => report
  | _ => none

/-- The report that is due when something happens, if it is a denial. -/
def due? (b : Backend σ) (c : Channel κ) (s : Service σ κ) : Happening σ → Option Due
  | .check r =>
    match s.check b c r with
    | (.error _, _) => none
    | (.ok response, s') =>
      if response.allowed then none
      else (Service.reportOf s.defaults r (b.now s'.store)).map fun report =>
        ⟨report, s.outbox.any fun o => c.hasRoom o.channel⟩
  | _ => none

/-- Whether an answer is a denial. -/
def isDenial : Except Failure Response → Bool
  | .ok response => !response.allowed
  | .error _ => false

/-! ### One happening after the other -/

/-- The service after what happened. -/
def after (b : Backend σ) (c : Channel κ) (s : Service σ κ) (happenings : List (Happening σ)) :
    Service σ κ :=
  happenings.foldl (fun s h => (happen b c s h).2) s

/-- Something that can be told of every happening and the service right before it, told of all of
them. -/
def tell {α : Type} (b : Backend σ) (c : Channel κ) (tell? : Service σ κ → Happening σ → Option α) :
    Service σ κ → List (Happening σ) → List α
  | _, [] => []
  | s, h :: rest => (tell? s h).toList ++ tell b c tell? (happen b c s h).2 rest

/-- The answers. -/
def answers (b : Backend σ) (c : Channel κ) :
    Service σ κ → List (Happening σ) → List (Except Failure Response) :=
  tell b c fun s h => (happen b c s h).1.answer?

/-- The reports that were taken. -/
def taken (b : Backend σ) (c : Channel κ) : Service σ κ → List (Happening σ) → List Denial :=
  tell b c fun s h => (happen b c s h).1.taken?

/-- The reports that were due. -/
def dues (b : Backend σ) (c : Channel κ) : Service σ κ → List (Happening σ) → List Due :=
  tell b c (due? b c)

variable {b : Backend σ} {c : Channel κ} {s : Service σ κ} {happenings : List (Happening σ)}

theorem after_concat (h : Happening σ) :
    after b c s (happenings ++ [h]) = (happen b c (after b c s happenings) h).2 := by
  rw [after, List.foldl_append]
  rfl

theorem tell_concat {α : Type} (tell? : Service σ κ → Happening σ → Option α) (h : Happening σ) :
    tell b c tell? s (happenings ++ [h]) =
      tell b c tell? s happenings ++ (tell? (after b c s happenings) h).toList := by
  induction happenings generalizing s with
  | nil => exact List.append_nil _
  | cons first rest ih =>
    rw [List.cons_append, tell, tell, ih, List.append_assoc]
    rfl

/-! ### With and without reports -/

/-- One happening is answered alike from services that differ in their reports only. -/
theorem happen_heard (b : Backend σ) (c : Channel κ) {s t : Service σ κ} (store : t.store = s.store)
    (defaults : t.defaults = s.defaults) (h : Happening σ) :
    (happen b c t h).1.answer? = (happen b c s h).1.answer? ∧
      (happen b c t h).2.store = (happen b c s h).2.store ∧
      (happen b c t h).2.defaults = (happen b c s h).2.defaults := by
  cases h with
  | check r =>
    obtain ⟨answer, left⟩ := Service.check_heard b c r store defaults
    refine ⟨congrArg some answer, left, ?_⟩
    exact (Service.check_defaults b c r t).trans
      (defaults.trans (Service.check_defaults b c r s).symm)
  | take => exact ⟨rfl, store, defaults⟩
  | close => exact ⟨rfl, store, defaults⟩
  | leave => exact ⟨rfl, store, defaults⟩
  | other change => exact ⟨rfl, congrArg change store, defaults⟩

/-- **Nobody who asks can tell** whether denials are reported, nor can anybody who looks at the store. -/
theorem heard (b : Backend σ) (c : Channel κ) (s t : Service σ κ) (store : t.store = s.store)
    (defaults : t.defaults = s.defaults) (happenings : List (Happening σ)) :
    answers b c t happenings = answers b c s happenings ∧
      (after b c t happenings).store = (after b c s happenings).store := by
  induction happenings generalizing s t with
  | nil => exact ⟨rfl, store⟩
  | cons h rest ih =>
    obtain ⟨answer, store, defaults⟩ := happen_heard b c store defaults h
    obtain ⟨same, left⟩ := ih _ _ store defaults
    refine ⟨?_, left⟩
    rw [answers, tell, tell, answer]
    exact congrArg _ same

/-! ### Nothing gets lost -/

/-- A denial calls for a report, and nothing else does. -/
theorem length_due? (b : Backend σ) (c : Channel κ) (s : Service σ κ) (h : Happening σ) :
    (due? b c s h).toList.length = (happen b c s h).1.answer?.toList.countP isDenial := by
  cases h with
  | check r =>
    have checked := s.checked b c r
    simp only [due?, happen, Sight.answer?]
    generalize s.check b c r = result at checked
    cases checked with
    | failed f store => rfl
    | allowed response store allowed => simp [isDenial, allowed]
    | denied response store report l decision denied _ _ called => simp [isDenial, denied, called]
  | take => rfl
  | close => rfl
  | leave => rfl
  | other change => rfl

/-- As many reports are due as requests are denied. -/
theorem length_dues (b : Backend σ) (c : Channel κ) (s : Service σ κ) (happenings : List (Happening σ)) :
    (dues b c s happenings).length = (answers b c s happenings).countP isDenial := by
  induction happenings generalizing s with
  | nil => rfl
  | cons h rest ih =>
    rw [dues, answers, tell, tell, List.length_append, List.countP_append, length_due?]
    exact congrArg _ (ih _)

/-- What has become of all reports, when the taker has not left: the channel is there and keeps its
capacity, and each report that was due has been taken, waits, or is counted. -/
structure Accounted (b : Backend σ) (c : Channel κ) (s : Service σ κ) (capacity : Nat)
    (happenings : List (Happening σ)) (o : Outbox κ) : Prop where
  /-- The reports wait in the channel. -/
  there : (after b c s happenings).outbox = some o
  /-- There is room for at least one report. -/
  capacity_eq : c.capacity o.channel = max capacity 1
  /-- Reports are wanted as long as the taker has not said otherwise. -/
  wanted : c.wanted o.channel = true ↔ .close ∉ happenings
  /-- No more reports wait than there is room for. -/
  bounded : (c.waiting o.channel).length ≤ max capacity 1
  /-- The reports that were taken and those that wait are the ones that found room, in the order of the
  denials. -/
  order : taken b c s happenings ++ c.waiting o.channel =
    ((dues b c s happenings).filter Due.room).map Due.report
  /-- Those that found none are counted. The counter starts over when it is full. -/
  missing : o.dropped = (dues b c s happenings).countP Due.missed % (Word.last + 1)

namespace Accounted

variable {capacity : Nat} {o : Outbox κ}

/-- Every denial has been taken, waits, or was missed. -/
theorem total (h : Accounted b c s capacity happenings o) :
    (taken b c s happenings).length + (c.waiting o.channel).length +
        (dues b c s happenings).countP Due.missed =
      (answers b c s happenings).countP isDenial := by
  have kept := congrArg List.length h.order
  rw [List.length_append, List.length_map, ← List.countP_eq_length_filter] at kept
  have missed : (fun due : Due => decide ¬due.room = true) = Due.missed := by
    funext due
    simp [Due.missed]
  rw [kept, ← length_dues, List.length_eq_countP_add_countP Due.room, missed]

/-- Up to how often the counter has started over, it tells how many were missed. -/
theorem total_dropped (h : Accounted b c s capacity happenings o) :
    ((taken b c s happenings).length + (c.waiting o.channel).length + o.dropped) % (Word.last + 1) =
      (answers b c s happenings).countP isDenial % (Word.last + 1) := by
  rw [h.missing, Nat.add_mod_mod, h.total]

/-- As long as it has not started over, it tells that exactly. -/
theorem dropped_eq (h : Accounted b c s capacity happenings o)
    (few : (answers b c s happenings).countP isDenial ≤ Word.last) :
    o.dropped = (dues b c s happenings).countP Due.missed := by
  have total := h.total
  rw [h.missing]
  exact Nat.mod_eq_of_lt (by omega)

end Accounted

/-- **One happening** moves the outbox by what is taken and what is due, unless the taker leaves. -/
theorem happen_moved (documented : c.Documented) {o : Outbox κ} (queue : s.outbox = some o)
    {h : Happening σ} (stays : .leave ≠ h) :
    ∃ o', (happen b c s h).2.outbox = some o' ∧
      o.Moved c o' (happen b c s h).1.taken? (due? b c s h) ∧
      (c.wanted o'.channel = true ↔ c.wanted o.channel = true ∧ .close ≠ h) := by
  obtain ⟨sent, received, closed⟩ := documented.wanted o.channel
  cases h with
  | check r =>
    have checked := s.checked b c r
    simp only [happen, due?, Sight.taken?, queue, Option.any_some]
    generalize s.check b c r = result at checked
    cases checked with
    | failed f store => exact ⟨o, queue, o.moved_refl c, by simp⟩
    | allowed response store allowed =>
      refine ⟨o, queue, ?_, by simp⟩
      simp only [allowed, if_true]
      exact o.moved_refl c
    | denied response store report l decision denied _ _ called =>
      refine ⟨(o.publish c report).2, by simp [queue], ?_, by simp [Outbox.publish, sent]⟩
      simp only [denied, called, Option.map_some, Bool.false_eq_true, if_false]
      exact o.moved_publish documented report
  | take =>
    refine ⟨(o.receive c).2, by simp [happen, queue], ?_, by simp [Outbox.receive, received]⟩
    simp only [happen, queue, Sight.taken?, Option.bind_some]
    exact o.moved_receive documented
  | close =>
    exact ⟨o.close c, by simp [happen, queue], o.moved_close documented, by simp [Outbox.close, closed]⟩
  | leave => exact absurd rfl stays
  | other change => exact ⟨o, queue, o.moved_refl c, by simp⟩

/-- **Nothing gets lost**, whatever happens, as long as the taker does not leave. -/
theorem accounted (documented : c.Documented) {d : Defaults} {store : σ} {capacity : Nat} {k : κ}
    (room : c.capacity k = max capacity 1) (empty : c.waiting k = []) (wanted : c.wanted k = true)
    (stays : Happening.leave ∉ happenings) :
    ∃ o, Accounted b c ⟨store, d, some ⟨k, 0⟩⟩ capacity happenings o := by
  induction happenings using List.reverseRecOn with
  | nil => exact ⟨⟨k, 0⟩, rfl, room, by simp [wanted], by simp [empty], by rw [empty]; rfl, rfl⟩
  | append_singleton happenings h ih =>
    obtain ⟨before, now⟩ : Happening.leave ∉ happenings ∧ Happening.leave ≠ h := by
      simpa [not_or] using stays
    obtain ⟨o₁, known⟩ := ih before
    obtain ⟨o₂, queue, moved, wanted⟩ := happen_moved (b := b) documented known.there now
    have capacity_eq : c.capacity o₂.channel = max capacity 1 := moved.capacity.trans known.capacity_eq
    refine ⟨o₂, ?_, capacity_eq, ?_, ?_, ?_, ?_⟩
    · rw [after_concat, queue]
    · rw [wanted, known.wanted]
      simp [not_or]
    · rw [← known.capacity_eq]
      exact moved.bounded (by rw [known.capacity_eq]; exact known.bounded)
    · rw [taken, dues, tell_concat, tell_concat, List.append_assoc, moved.order, ← List.append_assoc,
        List.filter_append, List.map_append]
      exact congrArg (· ++ _) known.order
    · have small : o₁.dropped ≤ Word.last := by
        rw [known.missing]
        exact Nat.le_of_lt_succ (Nat.mod_lt _ (Nat.succ_pos _))
      rw [moved.missing small, known.missing, Nat.mod_add_mod, dues, tell_concat, List.countP_append]

/-- **Reports are apart from decisions, and accounted for.** Let a service begin with an empty channel that
does what is documented, of any capacity that a channel can have; then, whatever happens, in whatever order:

* the answers, and what is in the store, are those of a service that reports nothing;
* the next request, whatever it is, is reported once if it is denied, with its key, with the algorithm, the
  limit and the window that were in force, and with the instant, and is not reported otherwise;
* if the taker has not left, every denial has been taken, or waits, or was missed; no more reports wait than
  there is room for, the taken ones and those that wait are in the order of the denials, and one that is
  missing was not wanted any more at its moment, or found the channel full. Those that were missed are
  counted, on a counter of 64 bits: in its arithmetic the reports that were taken, those that wait and the
  count add up to the denials, and without it as long as the counter has not started over. -/
theorem reports_decoupled_and_accounted (b : Backend σ) {c : Channel κ} (documented : c.Documented)
    (d : Defaults) (store : σ) {capacity : Nat} (fits : capacity ≤ Channel.maxCapacity)
    (happenings : List (Happening σ)) :
    ∃ o, Outbox.make? c capacity = some o ∧
      let s : Service σ κ := ⟨store, d, some o⟩
      let mute : Service σ κ := ⟨store, d, none⟩
      (answers b c s happenings = answers b c mute happenings ∧
          (after b c s happenings).store = (after b c mute happenings).store) ∧
        (∀ r, Service.Checked b c r (after b c s happenings) ((after b c s happenings).check b c r)) ∧
        (.leave ∉ happenings → ∃ o', Accounted b c s capacity happenings o' ∧
          (taken b c s happenings).length + (c.waiting o'.channel).length +
              (dues b c s happenings).countP Due.missed =
            (answers b c s happenings).countP isDenial ∧
          ((taken b c s happenings).length + (c.waiting o'.channel).length + o'.dropped) %
              (Word.last + 1) = (answers b c s happenings).countP isDenial % (Word.last + 1) ∧
          ((answers b c s happenings).countP isDenial ≤ Word.last →
            (taken b c s happenings).length + (c.waiting o'.channel).length + o'.dropped =
              (answers b c s happenings).countP isDenial)) := by
  have some_room : 0 < max capacity 1 := Nat.lt_of_lt_of_le Nat.one_pos (Nat.le_max_right _ _)
  have fits : max capacity 1 ≤ Channel.maxCapacity := Nat.max_le.mpr ⟨fits, by decide⟩
  obtain ⟨k, made, room, empty, wanted⟩ := documented.make? _ some_room fits
  refine ⟨⟨k, 0⟩, by rw [Outbox.make?, made]; rfl, heard b c ⟨store, d, none⟩ ⟨store, d, some _⟩ rfl rfl
    happenings, fun r => Service.checked _ b c r, fun stays => ?_⟩
  obtain ⟨o', h⟩ := accounted documented room empty wanted stays
  refine ⟨o', h, h.total, h.total_dropped, fun few => ?_⟩
  rw [h.dropped_eq few]
  exact h.total

/-- One request per ten milliseconds, and room for one report. Of four denials the first is taken, the
second finds the channel full, the third waits, and the fourth is not wanted any more. The first and the
third are reported alike. -/
theorem reports_decoupled_and_accounted_in_small_queue :
    let d : Defaults := ⟨.slidingWindow, 1, .ofMillis 10⟩
    let store : Memory × Moment := (.bare .manual, ⟨1, false⟩)
    let ask : Happening (Memory × Moment) := .check (.plain "k")
    let happenings := [ask, ask, ask, .take, ask, .close, ask, .check (.plain " ")]
    let s : Service (Memory × Moment) Queue := ⟨store, d, some ⟨⟨1, [], true⟩, 0⟩⟩
    let report : Denial :=
      ⟨"limit_exceeded", "k", "sliding_window", 1, "10ms", 1, "Rate limit exceeded"⟩
    (Channel.queue.Documented ∧ 0 ≤ Channel.maxCapacity ∧ Happening.leave ∉ happenings ∧
        (answers Race.backend .queue s happenings).countP isDenial ≤ Word.last) ∧
      answers Race.backend .queue s happenings = answers Race.backend .queue ⟨store, d, none⟩ happenings ∧
      ∃ o', Accounted Race.backend .queue s 0 happenings o' ∧
        taken Race.backend .queue s happenings = [report] ∧
        (o'.channel.waiting, o'.dropped) = ([report], 2) ∧
        (answers Race.backend .queue s happenings).countP isDenial = 4 := by
  intro d store ask happenings s report
  have documented := Channel.queue_documented
  have stays : Happening.leave ∉ happenings := by simp [happenings, ask]
  have few : (answers Race.backend .queue s happenings).countP isDenial ≤ Word.last := by decide +kernel
  obtain ⟨o, made, same, -, counted⟩ :=
    reports_decoupled_and_accounted Race.backend documented d store (Nat.zero_le _) happenings
  cases made
  obtain ⟨o', h, -, -, total⟩ := counted stays
  have total := total few
  have one : taken Race.backend .queue s happenings = [report] := by decide +kernel
  have ends : (after Race.backend .queue s happenings).outbox.map
      (fun o => (o.channel.waiting, o.dropped)) = some ([report], 2) := by decide +kernel
  have there : (after Race.backend .queue s happenings).outbox = some o' := h.there
  rw [there] at ends
  obtain ⟨waits, dropped⟩ := Prod.mk.inj (Option.some.inj ends)
  have four : (answers Race.backend .queue s happenings).countP isDenial =
      (taken Race.backend .queue s happenings).length + o'.channel.waiting.length + o'.dropped :=
    total.symm
  rw [one, waits, dropped] at four
  exact ⟨⟨documented, Nat.zero_le _, stays, few⟩, same.1, o', h, one, Option.some.inj ends, four⟩

end Reports

end Admission

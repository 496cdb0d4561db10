/-
# Admission.Proofs.GivenUp — a caller who has given up leaves no trace

Whoever asks for something and has already given up is told so, and nothing else happens. This holds
at every place where one can ask: at the operations of a store of any make, at a limiter that decides or
forgets, and at a service. Nothing that is stored is read or removed, not even what has lapsed; no
request is counted, so that no later sweep comes at another time; no report is made; and nothing is said
to a server.

There is one exception, and it is none to the rule that nothing happens. A service looks at a request
before it asks anything of its store, so a request that is wrong is answered alike, whether or not the
caller has given up. Nothing else is blamed on the client, since operations that heed their callers do
not do so (`Ask.put_blames`).
-/
import Admission.Proofs.Check
import Admission.Proofs.Course
import Admission.Proofs.Heeding

namespace Admission

variable {σ κ : Type}

/-! ## Services -/

/-- What callers ask of a service, of a limiter over its store, or of the store itself. -/
inductive Ask where
  /-- Something that stores offer. -/
  | demand (demand : Demand)
  /-- To decide on a caller key. -/
  | allow (limiter : Limiter) (key : String)
  /-- To forget a caller key. -/
  | reset (limiter : Limiter) (key : String)
  /-- To answer a request. -/
  | check (request : Request)

/-- What they are told. -/
inductive Told where
  /-- The reply of the store. -/
  | stored (reply : Reply)
  /-- The decision. -/
  | decided (decision : Decision)
  /-- That it is forgotten. -/
  | forgotten
  /-- The response. -/
  | answered (response : Response)

/-- A service that consults its store heeds its caller. -/
theorem Service.heeding_consult {b : Backend σ} (h : b.Heedful) {d : Defaults} {r : Request}
    {spec : LimiterSpec} {l : Limiter} (enlisted : enlist d r = .ok (spec, l)) :
    Heeding b.toSurroundings (consult b d r) := by
  rw [funext (consult_enlisted b enlisted)]
  exact (l.heeding_allow h r.key).map (announce b d r)

namespace Ask

/-- A service is asked something. -/
def put (b : Backend σ) (c : Channel κ) (s : Service σ κ) :
    Ask → Except Failure Told × Service σ κ
  | demand d => let (r, store) := b.perform s.store d; (r.map .stored, { s with store := store })
  | allow l key => let (r, store) := l.allow b key s.store; (r.map .decided, { s with store := store })
  | reset l key =>
    let (r, store) := l.reset b key s.store; (r.map fun _ => .forgotten, { s with store := store })
  | check r => let (r, s) := s.check b c r; (r.map .answered, s)

/-- What a caller who has given up is told: that it is so, unless there is something wrong with the
request. -/
def refusal (d : Defaults) : Ask → Failure
  | check r =>
    match Service.enlist d r with
    | .error f => f
    | .ok _ => .cancelled
  | _ => .cancelled

variable {b : Backend σ} {c : Channel κ} {s : Service σ κ}

/-- Whoever has given up is refused, and the service is left as it was. -/
theorem put_given_up (h : b.Heedful) (given : b.cancelled s.store = true) (ask : Ask) :
    ask.put b c s = (.error (ask.refusal s.defaults), s) := by
  cases ask with
  | demand d => simp only [put, (h.perform d).cancelled s.store given, Except.map, refusal]
  | allow l key => simp only [put, (l.heeding_allow h key).cancelled s.store given, Except.map, refusal]
  | reset l key => simp only [put, (l.heeding_reset h key).cancelled s.store given, Except.map, refusal]
  | check r =>
    rw [put, Service.check_eq]
    cases enlisted : Service.enlist s.defaults r with
    | error f =>
      simp only [Service.consult_refused b enlisted, Except.map, Service.reported, refusal, enlisted]
    | ok limiter =>
      have refused := (Service.heeding_consult h enlisted).cancelled s.store given
      simp only [refused, Except.map, Service.reported, refusal, enlisted]

/-- The client is blamed for requests only, and only if there is something wrong with the request. -/
theorem put_blames (h : b.Heedful) (s : Service σ κ) (ask : Ask) :
    (ask.refusal s.defaults = .cancelled ∧
        ∀ f, (ask.put b c s).1 = .error f → f.isClientFault = false) ∨
      ((∃ r, ask = .check r) ∧ (ask.refusal s.defaults).isClientFault = true ∧
        (ask.put b c s).1 = .error (ask.refusal s.defaults)) := by
  cases ask with
  | demand d =>
    have told := (h.perform d).map fun _ => Told.stored
    exact .inl ⟨rfl, told.blameless s.store⟩
  | allow l key =>
    have told := (l.heeding_allow h key).map fun _ => Told.decided
    exact .inl ⟨rfl, told.blameless s.store⟩
  | reset l key =>
    have told := (l.heeding_reset h key).map fun _ _ => Told.forgotten
    exact .inl ⟨rfl, told.blameless s.store⟩
  | check r =>
    rw [put, Service.check_eq]
    cases enlisted : Service.enlist s.defaults r with
    | error f =>
      refine .inr ⟨⟨r, rfl⟩, ?_⟩
      simp only [Service.consult_refused b enlisted, Except.map, refusal, enlisted, and_true]
      exact Service.enlist_fault enlisted
    | ok limiter =>
      have heeding := (Service.heeding_consult h enlisted).map fun _ => Prod.fst
      have told := heeding.map fun _ => Told.answered
      exact .inl ⟨by simp only [refusal, enlisted], told.blameless s.store⟩

end Ask

namespace GivenUp

/-! ## Everything there is -/

/-- The makes of stores. -/
inductive Make where
  /-- The store inside the process. -/
  | memory
  /-- A store on a server. -/
  | remote
  /-- The store that a configuration chose. -/
  | chosen

/-- The way to a server, whatever it is: whether a connection is free, and what comes back for a
command. Meanwhile time may pass, and the caller may give up. -/
structure Wire (σ : Type) where
  /-- Whether a connection is free. -/
  free : σ × Moment → Bool
  /-- Sends a command and waits for what comes back. -/
  send : Remote.Command → σ × Moment → Remote.Answer × σ × Moment

/-- The far end of a wire, and all that was ever sent there. -/
structure Traffic (σ : Type) where
  /-- The far end. -/
  far : σ
  /-- The commands, in their order. -/
  sent : List Remote.Command

/-- A wire that keeps account of what is sent. -/
def Wire.link (w : Wire σ) : Remote.Link (Traffic σ × Moment) where
  now s := s.2.now
  cancelled s := s.2.cancelled
  free s := w.free (s.1.far, s.2)
  send command s :=
    let (answer, far, moment) := w.send command (s.1.far, s.2)
    (answer, ⟨far, s.1.sent ++ [command]⟩, moment)

namespace Make

/-- The state of a store. -/
def State : Make → Type
  | memory => Memory
  | remote => Remote.Client
  | chosen => Store

/-- A store of some make, with a wire in case that it needs one. -/
def backend (w : Wire σ) : (make : Make) → Backend (make.State × Traffic σ × Moment)
  | memory => Memory.backend w.link.toSurroundings
  | remote => Remote.Client.backend w.link
  | chosen => Store.backend w.link

theorem heedful (w : Wire σ) (make : Make) : (make.backend w).Heedful := by
  cases make with
  | memory => exact Memory.heedful _
  | remote => exact Remote.Client.heedful _
  | chosen => exact Store.heedful _

end Make

/-- A service with a store of some make, and a wire that may have been used before. -/
abbrev World (make : Make) (σ κ : Type) := Service (make.State × Traffic σ) κ

variable {make : Make}

namespace World

/-- A world at a moment. -/
def stamped (world : World make σ κ) (moment : Moment) :
    Service (make.State × Traffic σ × Moment) κ :=
  ⟨(world.store.1, world.store.2, moment), world.defaults, world.outbox⟩

/-- A world after a moment. -/
def ofStamped (s : Service (make.State × Traffic σ × Moment) κ) : World make σ κ :=
  ⟨(s.store.1, s.store.2.1), s.defaults, s.outbox⟩

/-- A caller asks for something at a moment. -/
def ask (w : Wire σ) (c : Channel κ) (world : World make σ κ) (moment : Moment) (ask : Ask) :
    Except Failure Told × World make σ κ :=
  let (told, s) := ask.put (make.backend w) c (world.stamped moment)
  (told, ofStamped s)

end World

/-- Something that happens to a world. -/
inductive Happening (make : Make) (σ κ : Type) where
  /-- Somebody asks for something. -/
  | ask (ask : Ask)
  /-- Something else: entries are swept, a report is taken, a store is closed, or anything at all. -/
  | other (change : World make σ κ → World make σ κ)

/-- What somebody is told if it is an answer, and the world after that. -/
def happen (w : Wire σ) (c : Channel κ) (world : World make σ κ) (moment : Moment) :
    Happening make σ κ → Option (Except Failure Told) × World make σ κ
  | .ask ask => let (told, world) := world.ask w c moment ask; (some told, world)
  | .other change => (none, change world)

/-- Whether nobody has given up. -/
def standing : Moment × Happening make σ κ → Bool
  | (moment, .ask _) => !moment.cancelled
  | (_, .other _) => true

/-- Whoever has given up is refused, and leaves the world as it was. -/
theorem ask_given_up (w : Wire σ) (c : Channel κ) (world : World make σ κ) (now : Nat) (ask : Ask) :
    world.ask w c ⟨now, true⟩ ask = (.error (ask.refusal world.defaults), world) := by
  have given : (make.backend w).cancelled (world.stamped ⟨now, true⟩).store = true := by
    cases make <;> rfl
  rw [World.ask, Ask.put_given_up (make.heedful w) given]
  rfl

/-- **A caller who has given up leaves everything as it was**: the entries, those that have lapsed
included, the count of requests, the reports that wait and the number of those that were dropped, and all
that was sent to a server. The caller is told so, unless it was a request with which something is wrong;
then it is told what anybody is told who has not given up. So everybody else is answered, and finds
everything, as if the caller had not asked. -/
theorem leaves_all_as_it_was (w : Wire σ) (c : Channel κ) (make : Make) (world : World make σ κ) :
    (∀ now ask, ∃ refusal, world.ask w c ⟨now, true⟩ ask = (.error refusal, world) ∧ ∀ now',
      (refusal = .cancelled ∧
          ∀ f, (world.ask w c ⟨now', false⟩ ask).1 = .error f → f.isClientFault = false) ∨
        ((∃ r, ask = .check r) ∧ refusal.isClientFault = true ∧
          (world.ask w c ⟨now', false⟩ ask).1 = .error refusal)) ∧
      ∀ course : Course (Happening make σ κ),
        let others : Course (Happening make σ κ) := course.filter standing
        others.leaves (happen w c) world = course.leaves (happen w c) world ∧
          others.zip (others.replies (happen w c) world) =
            (course.zip (course.replies (happen w c) world)).filter fun told => standing told.1 := by
  refine ⟨fun now ask => ⟨_, ask_given_up w c world now ask, fun now' => ?_⟩, fun course => ?_⟩
  · exact Ask.put_blames (make.heedful w) (world.stamped ⟨now', false⟩) ask
  · refine Course.idle standing (fun world moment happening gone => ?_) world course
    obtain ⟨now, cancelled⟩ := moment
    cases happening with
    | ask ask =>
      cases cancelled with
      | true => exact congrArg Prod.snd (ask_given_up w c world now ask)
      | false => cases gone
    | other change => cases gone

/-- The next request that is counted sweeps, there is an entry that has lapsed, and there is no room for
reports. Three callers who have given up change nothing of that; so it is the fourth, who has not, whose
request sweeps. To a server, too, nothing is sent for the three; the first command comes from the
fourth. -/
theorem leaves_all_as_it_was_before_a_sweep :
    let w : Wire Unit := ⟨fun _ => true, fun _ s => (.nil, s)⟩
    let lapsed : Entry := .make "a".toUTF8 (some 5)
    let m : Memory := ⟨Table.empty.insert "l" lapsed, .requests 3, 3, none⟩
    let full : Outbox Queue := ⟨⟨1, [.limitExceeded "k" "token_bucket" 1 .zero 0], true⟩, 3⟩
    let here : World .memory Unit Queue := ⟨(m, ⟨(), []⟩), .default, some full⟩
    let client : Remote.Client := ⟨"p:", .ofSeconds 1, true⟩
    let far : World .remote Unit Queue := ⟨(client, ⟨(), []⟩), .default, some full⟩
    let stamp {make : Make} (cancelled : Bool) (ask : Ask) : Moment × Happening make Unit Queue :=
      (⟨9, cancelled⟩, .ask ask)
    let given {make : Make} : Course (Happening make Unit Queue) :=
      [stamp true (.demand (.get "l")), stamp true (.check (.plain "k")),
        stamp true (.check (.plain " "))]
    let last {make : Make} : Course (Happening make Unit Queue) :=
      [stamp false (.check (.plain "k"))]
    let m' : Memory := ((given ++ last).leaves (happen w .queue) here).store.1
    let sent (course : Course (Happening .remote Unit Queue)) : List Remote.Command :=
      (course.leaves (happen w .queue) far).store.2.sent
    (last.leaves (happen w .queue) here = (given ++ last).leaves (happen w .queue) here ∧
        given.leaves (happen w .queue) here = here ∧
        ((here.ask w .queue ⟨9, true⟩ (.check (.plain " "))).1.toOption,
          (here.ask w .queue ⟨9, true⟩ (.check (.plain " "))).2) = (none, here) ∧
        (m'.size, m'.counted) = (1, 5)) ∧
      last.leaves (happen w .queue) far = (given ++ last).leaves (happen w .queue) far ∧
      given.leaves (happen w .queue) far = far ∧
      sent given = [] ∧ (sent (given ++ last)).head? = some (.get "p:token_bucket:100:60000:k") := by
  intro w lapsed m full here client far stamp given last m' sent
  obtain ⟨refused, others⟩ := leaves_all_as_it_was w .queue .memory here
  obtain ⟨f, blank, -⟩ := refused 9 (.check (.plain " "))
  obtain ⟨-, others'⟩ := leaves_all_as_it_was w .queue .remote far
  have unsent : given.leaves (happen w .queue) far = far := (others' given).1.symm
  have kept {make : Make} : (given ++ last : Course (Happening make Unit Queue)).filter standing = last :=
    rfl
  refine ⟨⟨kept ▸ (others (given ++ last)).1, (others given).1.symm, ?_, by decide +kernel⟩,
    kept ▸ (others' (given ++ last)).1, unsent, congrArg (·.store.2.sent) unsent, by decide +kernel⟩
  rw [blank]
  rfl

end GivenUp

end Admission

/-
# Admission.Proofs.Verdict — what a request is told

There are five things that can be wrong with a request (`Service.Objection`). They are looked for in a
fixed order, but in different places: the key and the text of the window where the gaps are filled, the
limit and the length of the window where a quota is made, and the algorithm where a limiter is. The first
that applies is what the client is told, and nothing else happens (`Service.enlist_verdict`).

If nothing is wrong, nothing can go wrong either. A quota that was checked always leads to a decision, and
over the store inside the process, where nobody interferes, the entry that goes with it is always accepted
(`Limiter.allow_answers`). So the request is answered with the decision of the limiter that was asked for
(`Service.check_classified`).
-/
import Admission.Proofs.Check
import Admission.Proofs.Deciding
import Admission.Proofs.Text
import Admission.Proofs.Update.Steps

namespace Admission

namespace Limiter

/-! ## Asking a limiter -/

/-- **Over the store inside the process**, a limiter with a checked quota answers with a decision. -/
theorem allow_answers {l : Limiter} (limit : 0 < l.quota.limit) (window : 0 < l.quota.windowMs)
    (key : String) (m : Memory) (now : Nat) : ∃ decision store,
      l.allow Race.backend key (m, ⟨now, false⟩) = (.ok decision, store) ∧
        decision.standing.resetAt = Word.add now l.quota.windowMs ∧
        (decision.allowed = false → decision.standing.remaining = 0) := by
  obtain ⟨entry, decision, decided, told⟩ := decide_answers limit window (m.live now (l.slot key)) now
  obtain ⟨m', ran, -⟩ :=
    @Update.run_undisturbed _ (l.slot key) l.maxRetries _ _ _ _ _ decided
  exact ⟨decision, (m', ⟨now, false⟩), ran, told⟩

/-! ## Making a limiter -/

variable {spec : LimiterSpec} {q : Quota} {cause : ConfigFailure} {a : Algorithm}

/-- A quota that is refused is told of. -/
theorem create_refused (stored : spec.hasStorage = true)
    (refused : Quota.make spec.limit spec.window = .error cause) :
    create spec = .error (.config cause) := by
  rw [create, stored, refused]
  rfl

/-- A name that is no algorithm's is told of, with a checked quota only. -/
theorem create_unnamed (stored : spec.hasStorage = true)
    (checked : Quota.make spec.limit spec.window = .ok q)
    (unnamed : Algorithm.ofName? spec.algorithm = none) :
    create spec = .error (.unsupportedAlgorithm spec.algorithm) := by
  rw [create, stored, checked, unnamed]
  rfl

theorem create_named (stored : spec.hasStorage = true)
    (checked : Quota.make spec.limit spec.window = .ok q)
    (named : Algorithm.ofName? spec.algorithm = some a) : create spec = .ok ⟨a, q, spec.maxRetries⟩ := by
  rw [create, stored, checked, named]
  rfl

end Limiter

namespace Service

variable {d : Defaults} {r : Request} {f : Failure} {w : Duration}

/-! ## What a request asks for -/

/-- The name of the algorithm that a request asks for; the default if it names none. -/
def askedAlgorithm (d : Defaults) (r : Request) : String := (given r.algorithm).getD d.algorithm.name

/-- The limit that a request asks for; the default if it names none. -/
def askedLimit (d : Defaults) (r : Request) : Nat := r.limit.getD d.limit

/-- The window that a request asks for, if it can be read; the default if it names none. -/
def askedWindow? (d : Defaults) (r : Request) : Option Duration :=
  match given r.window with
  | none => some d.window
  | some text => (Duration.parse text).toOption

/-! ## What can be wrong with it -/

/-- Something that can be wrong with a request. -/
inductive Objection where
  /-- There is nothing but white space in the key. -/
  | blankKey
  /-- The window is given, and is not a duration. -/
  | unreadableWindow
  /-- The limit is zero. -/
  | zeroLimit
  /-- The window is shorter than a millisecond. -/
  | shortWindow
  /-- There is no algorithm of that name. -/
  | unknownAlgorithm
deriving DecidableEq, Repr

namespace Objection

/-- The failure that tells of an objection, if it applies to a request. -/
def failure? (d : Defaults) (r : Request) : Objection → Option Failure
  | blankKey =>
    if Text.trim r.key.toList = [] then some (.invalidRequest "key is required") else none
  | unreadableWindow =>
    match (given r.window).map Duration.parse with
    | some (.error malformed) => some (.config (.invalidDuration malformed.message))
    | _ => none
  | zeroLimit => if askedLimit d r = 0 then some (.config (.invalidLimit 0)) else none
  | shortWindow =>
    (askedWindow? d r).bind fun w =>
      if w.nanoseconds < 1000000 then some (.config (.invalidWindow w)) else none
  | unknownAlgorithm =>
    if askedAlgorithm d r ∈ ["token_bucket", "sliding_window"] then none
    else some (.unsupportedAlgorithm (askedAlgorithm d r))

/-- The objections in the order in which they are looked for. -/
def order : List Objection :=
  [blankKey, unreadableWindow, zeroLimit, shortWindow, unknownAlgorithm]

/-- The failure that tells of the first of some objections that applies to a request. -/
def first? (d : Defaults) (r : Request) (objections : List Objection) : Option Failure :=
  objections.findSome? (·.failure? d r)

theorem first?_append (d : Defaults) (r : Request) (before after : List Objection) :
    first? d r (before ++ after) = (first? d r before).or (first? d r after) := List.findSome?_append

end Objection

/-- The failure that tells of the first objection to a request, if there is any. -/
def objection? (d : Defaults) (r : Request) : Option Failure := Objection.first? d r Objection.order

/-! ## The tests that a service makes -/

/-- A window that a service does not read is objected to. -/
theorem window_error (unread : window d r = .error f) :
    Objection.unreadableWindow.failure? d r = some f := by
  rw [window] at unread
  split at unread
  · cases unread
  · next text gave =>
    split at unread
    · cases unread
    · next malformed parsed =>
      cases unread
      simp only [Objection.failure?, gave, Option.map_some, parsed]

/-- One that it reads is the one that was asked for. -/
theorem window_ok (read : window d r = .ok w) :
    Objection.unreadableWindow.failure? d r = none ∧ askedWindow? d r = some w := by
  rw [window] at read
  split at read
  · next gave =>
    cases read
    simp only [Objection.failure?, askedWindow?, gave, Option.map_none, and_self]
  · next text gave =>
    split at read
    · next parsed =>
      cases read
      simp only [Objection.failure?, askedWindow?, gave, Option.map_some, parsed, Except.toOption,
        and_self]
    · cases read

/-- The two names of algorithms. -/
theorem named_iff {name : String} :
    name ∈ ["token_bucket", "sliding_window"] ↔ ∃ a, Algorithm.ofName? name = some a := by
  simp only [Algorithm.ofName?_eq_some_iff, List.mem_cons, List.not_mem_nil, or_false]
  constructor
  · rintro (rfl | rfl)
    · exact ⟨.tokenBucket, rfl⟩
    · exact ⟨.slidingWindow, rfl⟩
  · rintro ⟨a, rfl⟩
    cases a with
    | tokenBucket => exact .inl rfl
    | slidingWindow => exact .inr rfl

/-- A window below a millisecond has none. -/
theorem short_iff (w : Duration) : w.nanoseconds < 1000000 ↔ w.millis = 0 := by
  rw [Duration.millis]
  omega

/-! ## The first objection decides -/

/-- What a limiter is to be made of, for a request that can be read. -/
def askedSpec (d : Defaults) (r : Request) (w : Duration) : LimiterSpec :=
  ⟨askedAlgorithm d r, askedLimit d r, w, true, Limiter.defaultRetries⟩

/-- The first two objections are what keeps the gaps from being filled. -/
theorem limiter_verdict (d : Defaults) (r : Request) :
    (∃ f, Objection.first? d r [.blankKey, .unreadableWindow] = some f ∧ limiter d r = .error f) ∨
      Objection.first? d r [.blankKey, .unreadableWindow] = none ∧
        ∃ w, askedWindow? d r = some w ∧ limiter d r = .ok (askedSpec d r w) := by
  simp only [Objection.first?, List.findSome?]
  rw [limiter]
  by_cases blank : Text.blank r.key = true
  · have objects : Objection.blankKey.failure? d r = some _ := if_pos ((Text.blank_iff_trim _).mp blank)
    exact .inl ⟨_, by rw [objects], if_pos blank⟩
  have keyed : Objection.blankKey.failure? d r = none := if_neg (blank ∘ (Text.blank_iff_trim _).mpr)
  rw [if_neg blank, keyed]
  cases read : window d r with
  | error f => exact .inl ⟨f, by rw [window_error read], rfl⟩
  | ok w =>
    obtain ⟨readable, asked⟩ := window_ok read
    exact .inr ⟨by rw [readable], w, asked, rfl⟩

/-- The other three are what keeps a limiter from being made of it. -/
theorem create_verdict (asked : askedWindow? d r = some w) :
    (∃ f, Objection.first? d r [.zeroLimit, .shortWindow, .unknownAlgorithm] = some f ∧
        Limiter.create (askedSpec d r w) = .error f) ∨
      Objection.first? d r [.zeroLimit, .shortWindow, .unknownAlgorithm] = none ∧
        ∃ a, a.name = askedAlgorithm d r ∧ 0 < askedLimit d r ∧ 0 < w.millis ∧
          Limiter.create (askedSpec d r w) =
            .ok ⟨a, ⟨askedLimit d r, w⟩, Limiter.defaultRetries⟩ := by
  simp only [Objection.first?, List.findSome?, Objection.failure?, asked, Option.bind_some, short_iff]
  by_cases zero : askedLimit d r = 0
  · have refused : Quota.make (askedLimit d r) w = .error (.invalidLimit 0) := by
      rw [Quota.make, if_pos zero, zero]
    exact .inl ⟨_, by rw [if_pos zero], Limiter.create_refused rfl refused⟩
  rw [if_neg zero]
  by_cases short : w.millis = 0
  · have refused : Quota.make (askedLimit d r) w = .error (.invalidWindow w) := by
      rw [Quota.make, if_neg zero, if_pos short]
    exact .inl ⟨_, by rw [if_pos short], Limiter.create_refused rfl refused⟩
  have checked : Quota.make (askedLimit d r) w = .ok ⟨askedLimit d r, w⟩ := by
    rw [Quota.make, if_neg zero, if_neg short]
  rw [if_neg short]
  cases named : Algorithm.ofName? (askedAlgorithm d r) with
  | none =>
    have unknown : askedAlgorithm d r ∉ ["token_bucket", "sliding_window"] := by
      rw [named_iff, named]
      rintro ⟨a, known⟩
      cases known
    exact .inl ⟨.unsupportedAlgorithm (askedAlgorithm d r), by rw [if_neg unknown],
      Limiter.create_unnamed rfl checked named⟩
  | some a =>
    exact .inr ⟨by rw [if_pos (named_iff.mpr ⟨a, named⟩)], a,
      (Algorithm.ofName?_eq_some_iff.mp named).symm, Nat.pos_of_ne_zero zero,
      Nat.pos_of_ne_zero short, Limiter.create_named rfl checked named⟩

/-- **A request is objected to, or gets what it asks for.** The first objection is what keeps a service
from making a limiter of the request. If there is none, the limiter is the one asked for, and its quota
is checked. -/
theorem enlist_verdict (d : Defaults) (r : Request) :
    (∃ f, objection? d r = some f ∧ enlist d r = .error f) ∨
      objection? d r = none ∧ ∃ a w, a.name = askedAlgorithm d r ∧ askedWindow? d r = some w ∧
        0 < askedLimit d r ∧ 0 < w.millis ∧
        enlist d r = .ok (askedSpec d r w, ⟨a, ⟨askedLimit d r, w⟩, Limiter.defaultRetries⟩) := by
  have order : Objection.order =
      [.blankKey, .unreadableWindow] ++ [.zeroLimit, .shortWindow, .unknownAlgorithm] := rfl
  rw [objection?, order, Objection.first?_append, enlist]
  obtain ⟨f, objects, unmade⟩ | ⟨readable, w, asked, made⟩ := limiter_verdict d r
  · exact .inl ⟨f, by rw [objects, Option.some_or], by rw [unmade]⟩
  rw [readable, Option.none_or, made]
  obtain ⟨f, objects, uncreated⟩ | ⟨clear, a, named, limited, long, created⟩ := create_verdict asked
  · exact .inl ⟨f, objects, by simp only [uncreated]⟩
  · exact .inr ⟨clear, a, w, named, asked, limited, long, by simp only [created]⟩

/-! ## What a request is told -/

/-- A response tells a decision that was made at an instant: in its status, in the requests left, in the
message, and in the second at which a window will have passed. -/
structure Tells (decision : Decision) (windowMs now : Nat) (response : Response) : Prop where
  /-- An allowed request is told how many are left. A denied one is told why, and none are left. -/
  verdict :
    decision.allowed = true ∧ response.status = 200 ∧ response.message = none ∧
        response.remaining = some decision.standing.remaining ∨
      decision.allowed = false ∧ response.status = 429 ∧
        response.message = some "Rate limit exceeded" ∧ response.remaining = some 0
  /-- A window after the instant, in whole seconds. -/
  resetAt : response.resetAt = some (min (now + windowMs) Word.last / 1000)

theorem tells_respond {decision : Decision} {windowMs now : Nat}
    (reset : decision.standing.resetAt = Word.add now windowMs)
    (none_left : decision.allowed = false → decision.standing.remaining = 0) :
    Tells decision windowMs now (respond decision) where
  verdict := by
    cases verdict : decision.allowed with
    | true => exact .inl ⟨rfl, by simp [respond, Response.status, verdict]⟩
    | false =>
      exact .inr ⟨rfl, by simp [respond, Response.status, verdict, none_left verdict, deniedMessage]⟩
  resetAt := by
    rw [respond, Standing.resetAtSeconds, reset]
    rfl

/-- The limit, the window and the algorithm are wrong, and the limit is told of. -/
example : objection? ⟨.tokenBucket, 0, ⟨999999⟩⟩ ⟨" k", some "none", none, some ""⟩ =
    some (.config (.invalidLimit 0)) := by decide

end Service

end Admission

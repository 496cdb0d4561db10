/-
# Admission.Proofs.Omission — leaving a part out, and writing its default

A request may leave the algorithm, the limit and the window out, or write what the service would assume.
Nobody can tell which it did (`Service.check_alike`), and so it is all through a run
(`Reports.omission_unnoticed`).

With the algorithm and the limit that is plain, because the two requests come to the same limiter. With
the window it is not: a default is taken as it is, while a text that tells it leaves out what is shorter
than a millisecond. So the two limiters differ, but in nothing that they look at: everything counts in
whole milliseconds (`Limiter.allow_whole`), and the window is reported as the text that tells it.
-/
import Admission.Proofs.Duration.Text
import Admission.Proofs.Reports
import Mathlib.Data.List.Forall2
import Mathlib.Logic.Relation

namespace Admission

/-! ## Everything counts in whole milliseconds -/

/-- A quota without what its window has beyond whole milliseconds. -/
def Quota.whole (q : Quota) : Quota := { q with window := q.window.whole }

namespace Quota

variable (q : Quota)

@[simp] theorem limit_whole : q.whole.limit = q.limit := rfl

@[simp] theorem windowMs_whole : q.whole.windowMs = q.windowMs :=
  congrArg Word.clamp q.window.millis_whole

@[simp] theorem tokensFor?_whole (elapsed : Nat) : q.whole.tokensFor? elapsed = q.tokensFor? elapsed := by
  simp only [tokensFor?, windowMs_whole, limit_whole]

@[simp] theorem tokenPeriod?_whole : q.whole.tokenPeriod? = q.tokenPeriod? := by
  simp only [tokenPeriod?, windowMs_whole, limit_whole]

/-- A quota is refused or not, whichever way its window is written. -/
theorem make_whole {limit : Nat} {window : Duration} (long : window.millis ≠ 0) :
    make limit window.whole = (make limit window).map whole := by
  simp only [make, window.millis_whole, long, if_false]
  split <;> rfl

end Quota

namespace TokenBucket

variable (q : Quota)

theorem refill_whole (b : Bucket) (now : Nat) : refill q.whole b now = refill q b now := by
  simp only [refill, Quota.tokensFor?_whole]
  rfl

theorem wait_whole (b : Bucket) (now : Nat) : wait q.whole b now = wait q b now := by
  simp only [wait, Quota.tokenPeriod?_whole]

theorem standing_whole (remaining now : Nat) (retryAfter : Option Duration) :
    standing q.whole remaining now retryAfter = standing q remaining now retryAfter := by
  simp only [standing, Quota.limit_whole, Quota.windowMs_whole]

theorem entry_whole (b : Bucket) (now : Nat) : entry q.whole b now = entry q b now := by
  simp only [entry, Quota.windowMs_whole]

theorem decide_whole (stored : Option ByteArray) (now : Nat) :
    TokenBucket.decide q.whole stored now = TokenBucket.decide q stored now := by
  have begun : start q.whole stored now = start q stored now := rfl
  simp only [TokenBucket.decide, begun, refill_whole, wait_whole, standing_whole, entry_whole]

end TokenBucket

namespace SlidingLog

variable (q : Quota)

theorem counting_whole (instants : List Nat) (now : Nat) :
    counting q.whole instants now = counting q instants now := by
  simp only [counting, Quota.windowMs_whole]
  rfl

theorem standing_whole (remaining now : Nat) (retryAfter : Option Duration) :
    standing q.whole remaining now retryAfter = standing q remaining now retryAfter := by
  simp only [standing, Quota.limit_whole, Quota.windowMs_whole]

theorem entry_whole (instants : List Nat) (now : Nat) :
    entry q.whole instants now = entry q instants now := by
  simp only [entry, Quota.windowMs_whole]

theorem decide_whole (stored : Option ByteArray) (now : Nat) :
    SlidingLog.decide q.whole stored now = SlidingLog.decide q stored now := by
  simp only [SlidingLog.decide, wait, counting_whole, standing_whole, entry_whole,
    Quota.windowMs_whole]
  rfl

end SlidingLog

/-- What is to become a limiter, without what its window has beyond whole milliseconds. -/
def LimiterSpec.whole (spec : LimiterSpec) : LimiterSpec := { spec with window := spec.window.whole }

namespace Limiter

/-- A limiter without what its window has beyond whole milliseconds. -/
def whole (l : Limiter) : Limiter := { l with quota := l.quota.whole }

theorem slot_whole (l : Limiter) (key : String) : l.whole.slot key = l.slot key := by
  simp only [slot, scopedKey, whole, Quota.limit_whole, Quota.windowMs_whole]

theorem decide_whole (l : Limiter) : l.whole.decide = l.decide := by
  funext stored now
  obtain ⟨algorithm, q, retries⟩ := l
  cases algorithm with
  | tokenBucket => exact TokenBucket.decide_whole q stored now
  | slidingWindow => exact congrArg Except.ok (SlidingLog.decide_whole q stored now)

variable {σ : Type}

/-- **A limiter looks at whole milliseconds only**: under the same key of the store it decides the same. -/
theorem allow_whole (l : Limiter) (b : Backend σ) (key : String) (s : σ) :
    l.whole.allow b key s = l.allow b key s := by
  rw [allow, allow, slot_whole, decide_whole]
  rfl

theorem create_whole {spec : LimiterSpec} (long : spec.window.millis ≠ 0) :
    create spec.whole = (create spec).map whole := by
  simp only [create, LimiterSpec.whole, Quota.make_whole long]
  split
  · rfl
  · cases Quota.make spec.limit spec.window with
    | error cause => rfl
    | ok q => cases Algorithm.ofName? spec.algorithm <;> rfl

end Limiter

/-! ## Requests that ask the same -/

namespace Service

/-- A request in which a part that another leaves out is written as the service would assume it. An empty
text counts as left out. -/
inductive Spelled (d : Defaults) (r : Request) : Request → Prop where
  /-- The name of the algorithm is written. -/
  | algorithm (silent : r.algorithm = none ∨ r.algorithm = some "") :
    Spelled d r { r with algorithm := some d.algorithm.name }
  /-- The limit is written. -/
  | limit (silent : r.limit = none) : Spelled d r { r with limit := some d.limit }
  /-- The window is written. -/
  | window (silent : r.window = none ∨ r.window = some "") :
    Spelled d r { r with window := some d.window.format }

theorem given_silent {text : Option String} (silent : text = none ∨ text = some "") :
    given text = none := by
  obtain rfl | rfl := silent <;> rfl

theorem given_some {text : String} (written : text ≠ "") : given (some text) = some text :=
  Option.filter_eq_some_iff.mpr ⟨rfl, decide_eq_true written⟩

variable {d : Defaults} {r r' : Request}

theorem name_spelled (r : Request) (silent : r.algorithm = none ∨ r.algorithm = some "") :
    (given (some d.algorithm.name)).getD d.algorithm.name = (given r.algorithm).getD d.algorithm.name := by
  rw [given_silent silent, given_some (by cases d.algorithm <;> decide)]
  rfl

/-- A default is taken as it is. Where it is written, what it has beyond whole milliseconds is lost. -/
theorem window_spelled (silent : r.window = none ∨ r.window = some "")
    (fits : d.window.millis ≤ Word.last) :
    window d r = .ok d.window ∧
      window d { r with window := some d.window.format } = .ok d.window.whole := by
  refine ⟨?_, ?_⟩
  · rw [window, given_silent silent]
  · simp only [window, given_some (Duration.format_ne_empty fits), Duration.parse_format fits]

/-- The report of a denial tells the same. -/
theorem reportOf_spelled (spelled : Spelled d r r') (fits : d.window.millis ≤ Word.last) (now : Nat) :
    reportOf d r' now = reportOf d r now := by
  cases spelled with
  | algorithm silent => simp only [reportOf, window, name_spelled r silent]
  | limit silent => simp only [reportOf, window, silent, Option.getD]
  | window silent =>
    obtain ⟨assumed, written⟩ := window_spelled silent fits
    simp only [reportOf, assumed, written, Except.toOption, Option.map_some, Duration.format_whole]

/-- The limiter is to be made of the same, or of the same in whole milliseconds. -/
theorem limiter_spelled (spelled : Spelled d r r') (fits : d.window.millis ≤ Word.last) :
    limiter d r' = limiter d r ∨
      ∃ spec, limiter d r = .ok spec ∧ spec.window = d.window ∧ limiter d r' = .ok spec.whole := by
  cases spelled with
  | algorithm silent => exact .inl (by simp only [limiter, window, name_spelled r silent])
  | limit silent => exact .inl (by simp only [limiter, window, silent, Option.getD])
  | window silent =>
    obtain ⟨assumed, written⟩ := window_spelled silent fits
    simp only [limiter, assumed, written]
    by_cases blank : Text.blank r.key = true
    · exact .inl (by rw [if_pos blank, if_pos blank])
    · simp only [if_neg blank]
      exact .inr ⟨_, rfl, rfl, rfl⟩

/-- The limiter is the same, or the same in whole milliseconds. -/
theorem enlist_spelled (spelled : Spelled d r r') (least : 1 ≤ d.window.millis)
    (fits : d.window.millis ≤ Word.last) :
    enlist d r' = enlist d r ∨
      enlist d r' = (enlist d r).map fun (spec, l) => (spec.whole, l.whole) := by
  obtain same | ⟨spec, made, window, made'⟩ := limiter_spelled spelled fits
  · exact .inl (by rw [enlist, enlist, same])
  · have long : spec.window.millis ≠ 0 := by
      rw [window]
      exact Nat.ne_of_gt least
    simp only [enlist, made, made', Limiter.create_whole long]
    cases Limiter.create spec with
    | error f => exact .inl rfl
    | ok l => exact .inr rfl

variable {σ κ : Type}

theorem key_spelled (spelled : Spelled d r r') : r'.key = r.key := by
  cases spelled <;> rfl

/-- A request comes to the same if a default is written. -/
theorem consult_spelled (b : Backend σ) (spelled : Spelled d r r') (least : 1 ≤ d.window.millis)
    (fits : d.window.millis ≤ Word.last) (store : σ) :
    consult b d r' store = consult b d r store := by
  have announced : announce b d r' = announce b d r := by
    funext store decision
    rw [announce, announce, reportOf_spelled spelled fits]
  cases enlisted : enlist d r with
  | error f =>
    have refused : enlist d r' = .error f := by
      obtain same | whole := enlist_spelled spelled least fits
      · exact same.trans enlisted
      · rw [whole, enlisted]
        rfl
    rw [consult_refused b enlisted, consult_refused b refused]
  | ok limiter =>
    obtain ⟨spec, l⟩ := limiter
    obtain same | whole := enlist_spelled spelled least fits
    · rw [consult_enlisted b enlisted, consult_enlisted b (same.trans enlisted), announced,
        key_spelled spelled]
    · have enlisted' : enlist d r' = .ok (spec.whole, l.whole) := by
        rw [whole, enlisted]
        rfl
      rw [consult_enlisted b enlisted, consult_enlisted b enlisted', announced, key_spelled spelled,
        l.allow_whole]

/-- **Requests that ask the same**: one becomes the other when defaults are written for parts left out, or
parts are left out where the default is written, any number of times. -/
def Alike (d : Defaults) : Request → Request → Prop := Relation.EqvGen (Spelled d)

/-- **Nobody can tell them apart**: the answers are the same, the service is the same after that, and so
is a report, if there is one. -/
theorem check_alike (b : Backend σ) (c : Channel κ) (alike : Alike d r r')
    (least : 1 ≤ d.window.millis) (fits : d.window.millis ≤ Word.last) {s : Service σ κ}
    (defaults : s.defaults = d) :
    s.check b c r' = s.check b c r ∧ ∀ now, reportOf d r' now = reportOf d r now := by
  induction alike with
  | rel r r' spelled =>
    refine ⟨?_, fun now => reportOf_spelled spelled fits now⟩
    rw [check_eq, check_eq, defaults, consult_spelled b spelled least fits]
  | refl r => exact ⟨rfl, fun _ => rfl⟩
  | symm r r' _ ih => exact ⟨ih.1.symm, fun now => (ih.2 now).symm⟩
  | trans r r' r'' _ _ ih ih' => exact ⟨ih'.1.trans ih.1, fun now => (ih'.2 now).trans (ih.2 now)⟩

end Service

/-! ## Runs that ask the same -/

namespace Reports

variable {σ κ : Type} {d : Defaults} {h h' : Happening σ} {b : Backend σ} {c : Channel κ}

/-- The same happens, or a request is answered that asks the same. -/
inductive Reworded (d : Defaults) : Happening σ → Happening σ → Prop where
  /-- The same happens. -/
  | same (h : Happening σ) : Reworded d h h
  /-- A request is answered that asks the same. -/
  | request {r r' : Request} (alike : Service.Alike d r r') : Reworded d (.check r) (.check r')

/-- What comes of it is the same, and so is the report that is due. -/
theorem happen_reworded (b : Backend σ) (c : Channel κ) (reworded : Reworded d h h')
    (least : 1 ≤ d.window.millis) (fits : d.window.millis ≤ Word.last) {s : Service σ κ}
    (defaults : s.defaults = d) :
    happen b c s h' = happen b c s h ∧ due? b c s h' = due? b c s h := by
  cases reworded with
  | same h => exact ⟨rfl, rfl⟩
  | request alike =>
    obtain ⟨checked, reported⟩ := Service.check_alike b c alike least fits defaults
    simp only [happen, due?, checked, defaults, reported, and_self]

/-- The defaults stay, whatever happens. -/
theorem happen_defaults (b : Backend σ) (c : Channel κ) (s : Service σ κ) (h : Happening σ) :
    (happen b c s h).2.defaults = s.defaults := by
  cases h with
  | check r => exact Service.check_defaults b c r s
  | take => rfl
  | close => rfl
  | leave => rfl
  | other change => rfl

/-- What is told of a run is the same, if it is the same for every happening. -/
theorem tell_reworded {α : Type} {tell? : Service σ κ → Happening σ → Option α}
    (least : 1 ≤ d.window.millis) (fits : d.window.millis ≤ Word.last)
    (told : ∀ s h h', s.defaults = d → Reworded d h h' → tell? s h' = tell? s h)
    {happenings happenings' : List (Happening σ)}
    (reworded : List.Forall₂ (Reworded d) happenings happenings') {s : Service σ κ}
    (defaults : s.defaults = d) :
    tell b c tell? s happenings' = tell b c tell? s happenings := by
  induction reworded generalizing s with
  | nil => rfl
  | cons first _ ih =>
    rw [tell, tell, told s _ _ defaults first, (happen_reworded b c first least fits defaults).1,
      ih ((happen_defaults b c s _).trans defaults)]

theorem after_reworded (least : 1 ≤ d.window.millis) (fits : d.window.millis ≤ Word.last)
    {happenings happenings' : List (Happening σ)}
    (reworded : List.Forall₂ (Reworded d) happenings happenings') {s : Service σ κ}
    (defaults : s.defaults = d) :
    after b c s happenings' = after b c s happenings := by
  induction reworded generalizing s with
  | nil => rfl
  | cons first _ ih =>
    rw [after, List.foldl_cons, (happen_reworded b c first least fits defaults).1]
    exact ih ((happen_defaults b c s _).trans defaults)

/-- **Leaving a part out is the same as writing its default.** For defaults whose window has at least one
whole millisecond, and no more than an instant can hold: in whatever happens to a service, requests may be
exchanged for requests that ask the same. No answer changes, no report does, neither when it is due nor
when it is taken, and the service is the same after that, with all that is in its store. -/
theorem omission_unnoticed (b : Backend σ) (c : Channel κ) (d : Defaults)
    (least : 1 ≤ d.window.millis) (fits : d.window.millis ≤ Word.last) (store : σ)
    (outbox : Option (Outbox κ)) {happenings happenings' : List (Happening σ)}
    (reworded : List.Forall₂ (Reworded d) happenings happenings') :
    let s : Service σ κ := ⟨store, d, outbox⟩
    answers b c s happenings' = answers b c s happenings ∧
      after b c s happenings' = after b c s happenings ∧
      dues b c s happenings' = dues b c s happenings ∧
      taken b c s happenings' = taken b c s happenings := by
  intro s
  refine ⟨tell_reworded least fits ?_ reworded rfl, after_reworded least fits reworded rfl,
    tell_reworded least fits ?_ reworded rfl, tell_reworded least fits ?_ reworded rfl⟩
  · intro s h h' defaults first
    rw [(happen_reworded b c first least fits defaults).1]
  · intro s h h' defaults first
    exact (happen_reworded b c first least fits defaults).2
  · intro s h h' defaults first
    rw [(happen_reworded b c first least fits defaults).1]

/-- The default window is one and a half milliseconds. One request is spelled out, and in another there are
empty texts. -/
theorem omission_unnoticed_half_a_millisecond :
    let d : Defaults := ⟨.slidingWindow, 1, ⟨1500000⟩⟩
    let sweep : Happening (Memory × Moment) :=
      .other fun (m, moment) => (m.sweep moment.now, moment)
    let short : List (Happening (Memory × Moment)) :=
      [.check (.plain "k"), sweep, .check (.plain "k"), .take]
    let long : List (Happening (Memory × Moment)) :=
      [.check ⟨"k", some "sliding_window", some 1, some "1ms"⟩, sweep,
        .check ⟨"k", some "", none, some ""⟩, .take]
    let s : Service (Memory × Moment) Queue :=
      ⟨(.bare .manual, ⟨7, false⟩), d, some ⟨⟨1, [], true⟩, 0⟩⟩
    (1 ≤ d.window.millis ∧ d.window.millis ≤ Word.last ∧ List.Forall₂ (Reworded d) short long) ∧
      answers Race.backend .queue s long = answers Race.backend .queue s short ∧
      after Race.backend .queue s long = after Race.backend .queue s short ∧
      dues Race.backend .queue s long = dues Race.backend .queue s short ∧
      taken Race.backend .queue s long = taken Race.backend .queue s short := by
  intro d sweep short long s
  have least : 1 ≤ d.window.millis := by decide
  have fits : d.window.millis ≤ Word.last := by decide
  have written : d.window.format = "1ms" := by decide
  have spelled : Service.Alike d (.plain "k") ⟨"k", some "sliding_window", some 1, some "1ms"⟩ := by
    rw [← written]
    exact .trans _ _ _ (.rel _ _ (.algorithm (.inl rfl)))
      (.trans _ _ _ (.rel _ _ (.limit rfl)) (.rel _ _ (.window (.inl rfl))))
  have unnamed : Service.Alike d (.plain "k") ⟨"k", some "", none, none⟩ :=
    .trans _ _ _ (.rel _ _ (.algorithm (.inl rfl))) (.symm _ _ (.rel _ _ (.algorithm (.inr rfl))))
  have untimed : Service.Alike d ⟨"k", some "", none, none⟩ ⟨"k", some "", none, some ""⟩ :=
    .trans _ _ _ (.rel _ _ (.window (.inl rfl))) (.symm _ _ (.rel _ _ (.window (.inr rfl))))
  have reworded : List.Forall₂ (Reworded d) short long :=
    .cons (.request spelled) (.cons (.same _)
      (.cons (.request (.trans _ _ _ unnamed untimed)) (.cons (.same _) .nil)))
  exact ⟨⟨least, fits, reworded⟩,
    omission_unnoticed Race.backend .queue d least fits s.store s.outbox reworded⟩

end Reports

end Admission

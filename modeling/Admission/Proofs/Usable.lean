/-
# Admission.Proofs.Usable — the quotas that the arithmetic works on

A quota divides time among tokens and tokens among time. That takes a limit and a window that are not zero,
and nothing else: with them every operation has its result, whatever is stored and whatever the clock reads,
and without them one has none (`Quota.usable_iff`).

There are several ways to come by a quota (`Quota.Origin`). All but one lead through the same check, which
lets nothing else pass (`Quota.make_eq_ok_iff`). Reading is the exception: what is read from JSON has the
right form, but its numbers are not looked at, so that it is usable exactly if it would have passed the check.
-/
import Admission.Proofs.Deciding

namespace Admission.Quota

variable {q : Quota}

/-! ## Usable quotas -/

/-- A quota with which every operation has a result. -/
structure Usable (q : Quota) : Prop where
  /-- In any time some number of tokens is earned. -/
  earns : ∀ elapsed, ∃ tokens, q.tokensFor? elapsed = some tokens
  /-- One token is earned in some time. -/
  refills : ∃ interval, q.refillInterval? = some interval
  /-- A limiter decides, whatever is stored and whatever the clock reads. -/
  decides : ∀ l : Limiter, l.quota = q → ∀ stored now, ∃ decided, l.decide stored now = .ok decided

/-- **A quota is usable** exactly if neither its limit nor its window is zero. -/
theorem usable_iff : q.Usable ↔ 0 < q.limit ∧ 0 < q.windowMs := by
  constructor
  · intro usable
    refine ⟨Nat.pos_of_ne_zero fun none_allowed => ?_, Nat.pos_of_ne_zero fun no_window => ?_⟩
    · obtain ⟨interval, refills⟩ := usable.refills
      rw [refillInterval?, if_pos none_allowed] at refills
      cases refills
    · obtain ⟨tokens, earns⟩ := usable.earns 0
      rw [tokensFor?, if_pos no_window] at earns
      cases earns
  · rintro ⟨limit, window⟩
    refine ⟨fun elapsed => ⟨_, tokensFor?_of_pos window elapsed⟩, ⟨_, refillInterval?_of_pos limit⟩, ?_⟩
    rintro l rfl stored now
    obtain ⟨entry, decision, decided, -⟩ := Limiter.decide_answers limit window stored now
    exact ⟨_, decided⟩

/-! ## Where quotas come from -/

/-- A way to come by a quota. -/
inductive Origin where
  /-- It is made of a limit and a window. -/
  | make (limit : Nat) (window : Duration)
  /-- It is made of a limit per second. -/
  | perSecond (limit : Nat)
  /-- It is made of a limit per minute. -/
  | perMinute (limit : Nat)
  /-- It is made of a limit per hour. -/
  | perHour (limit : Nat)
  /-- It is the one that is used when none is given. -/
  | default
  /-- It is read from a JSON text. -/
  | read (text : ByteArray)

/-- The quota that comes of it, unless it is refused. -/
def Origin.quota? : Origin → Option Quota
  | make limit window => (Quota.make limit window).toOption
  | perSecond limit => (Quota.perSecond limit).toOption
  | perMinute limit => (Quota.perMinute limit).toOption
  | perHour limit => (Quota.perHour limit).toOption
  | default => some Quota.default
  | read text => (Json.Tree.parse text).bind ofJson?

/-- A window of a millisecond or more has whole milliseconds, however long it is. -/
theorem windowMs_pos_iff : 0 < q.windowMs ↔ q.window.millis ≠ 0 := by
  rw [windowMs, Word.clamp, Nat.lt_min, Nat.pos_iff_ne_zero]
  exact and_iff_left (by decide)

/-- **What passes the check** is the quota that was asked for, and neither its limit nor its window is
zero. -/
theorem make_eq_ok_iff {limit : Nat} {window : Duration} :
    make limit window = .ok q ↔ q = ⟨limit, window⟩ ∧ 0 < q.limit ∧ 0 < q.windowMs := by
  rw [windowMs_pos_iff, Nat.pos_iff_ne_zero, make]
  by_cases none_allowed : limit = 0
  · rw [if_pos none_allowed]
    refine ⟨fun refused => (by cases refused), ?_⟩
    rintro ⟨rfl, positive, -⟩
    exact absurd none_allowed positive
  · rw [if_neg none_allowed]
    by_cases short : window.millis = 0
    · rw [if_pos short]
      refine ⟨fun refused => (by cases refused), ?_⟩
      rintro ⟨rfl, -, long⟩
      exact absurd short long
    · rw [if_neg short]
      constructor
      · rintro ⟨⟩
        exact ⟨rfl, none_allowed, short⟩
      · rintro ⟨rfl, -, -⟩
        rfl

/-- Whatever is made passes the check. -/
theorem pos_of_make {limit : Nat} {window : Duration}
    (made : (make limit window).toOption = some q) : 0 < q.limit ∧ 0 < q.windowMs := by
  cases checked : make limit window with
  | error f =>
    rw [checked] at made
    cases made
  | ok q' =>
    rw [checked] at made
    cases made
    exact (make_eq_ok_iff.mp checked).2

/-- **Where a quota comes from** does not matter, but for those that are read: of every other origin a quota
is usable, with a limit and a window that are not zero, and a quota that is read is so exactly if it would
pass the check. -/
theorem usable_iff_checked (origin : Origin) (obtained : origin.quota? = some q) :
    0 < q.limit ∧ 0 < q.windowMs ∧ q.Usable ↔
      ∀ text, origin = .read text → make q.limit q.window = .ok q := by
  have positive : 0 < q.limit ∧ 0 < q.windowMs ∧ q.Usable ↔ 0 < q.limit ∧ 0 < q.windowMs := by
    rw [usable_iff, ← and_assoc, and_self]
  rw [positive]
  cases origin with
  | make | perSecond | perMinute | perHour =>
    exact iff_of_true (pos_of_make obtained) fun _ read => by cases read
  | default =>
    cases obtained
    exact iff_of_true (by decide) fun _ read => by cases read
  | read text =>
    rw [make_eq_ok_iff]
    constructor
    · exact fun positive _ _ => ⟨rfl, positive⟩
    · exact fun checked => (checked text rfl).2

/-- A quota that is read from a list, of five requests in a window of a millisecond and a half. -/
theorem usable_iff_checked_of_list :
    let q : Quota := ⟨5, ⟨1500000⟩⟩
    let origin : Origin := .read "[5,[0,1500000]]".toUTF8
    origin.quota? = some q ∧ (0 < q.limit ∧ 0 < q.windowMs ∧ q.Usable) ∧ q.tokensFor? 1 = some 5 := by
  intro q origin
  have obtained : origin.quota? = some q := by decide +kernel
  have checked : make q.limit q.window = .ok q := make_eq_ok_iff.mpr ⟨rfl, by decide, by decide⟩
  exact ⟨obtained, (usable_iff_checked origin obtained).mpr fun _ _ => checked, by decide⟩

/-- **What is read may be unusable**: a limit of zero is read as it is written. -/
theorem read_unusable : ¬ ∀ (origin : Origin) (q : Quota), origin.quota? = some q →
    0 < q.limit ∧ 0 < q.windowMs ∧ q.Usable := by
  intro all
  let text := "\x7b\"limit\":0,\"window\":\x7b\"secs\":60,\"nanos\":0\x7d\x7d".toUTF8
  have obtained : (Origin.read text).quota? = some ⟨0, .ofSeconds 60⟩ := by decide +kernel
  exact absurd (all _ _ obtained).1 (Nat.lt_irrefl 0)

end Admission.Quota

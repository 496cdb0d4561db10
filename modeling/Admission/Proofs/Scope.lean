/-
# Admission.Proofs.Scope — whom a state belongs to

What is recorded for a caller key belongs to an algorithm, a limit, a window in whole milliseconds and
that key: a *scope*. Its storage key spells the four out, with colons in between. The caller key may
hold colons and digits itself, but it comes last, and there is no colon in the other parts; so the first
three colons tell the parts apart, and no two scopes share a storage key (`Scope.slot_injective`).
-/
import Admission.Limiter
import Admission.Proofs.Text
import Admission.Text.Delimited

namespace Admission

/-- Whom a recorded state belongs to. -/
structure Scope where
  /-- The algorithm that recorded it. -/
  algorithm : Algorithm
  /-- The number of requests per window. -/
  limit : Nat
  /-- The window in milliseconds. -/
  windowMs : Nat
  /-- The caller key. -/
  key : String
deriving DecidableEq, Repr

/-- The storage key of a scope. -/
def Scope.slot (s : Scope) : String :=
  s.algorithm.name ++ ":" ++ toString s.limit ++ ":" ++ toString s.windowMs ++ ":" ++ s.key

/-- The scope in which a limiter decides on a caller key. -/
def Limiter.scope (l : Limiter) (key : String) : Scope :=
  ⟨l.algorithm, l.quota.limit, l.quota.windowMs, key⟩

/-- That is where it keeps its state. -/
theorem Limiter.slot_eq (l : Limiter) (key : String) : l.slot key = (l.scope key).slot := rfl

namespace Scope

/-! ## Where the colons are -/

theorem colon_not_mem_name (a : Algorithm) : ':' ∉ a.name.toList := by
  cases a <;> decide

theorem colon_not_mem_toString (n : Nat) : ':' ∉ (toString n).toList := by
  intro h
  exact absurd (Text.isDigit_toString n ':' h) (by decide)

/-- The digits of a number can be read back. -/
theorem toString_inj {n n' : Nat} (h : (toString n).toList = (toString n').toList) : n = n' := by
  rw [← Text.ofDigitChars_toString n, h, Text.ofDigitChars_toString]

/-- The letters of a storage key: three parts without a colon, each with one behind it, and the caller
key. -/
theorem toList_slot (s : Scope) :
    s.slot.toList = s.algorithm.name.toList ++ ':' :: ((toString s.limit).toList ++
      ':' :: ((toString s.windowMs).toList ++ ':' :: s.key.toList)) := by
  have colon : ":".toList = [':'] := rfl
  simp only [slot, String.toList_append, colon, List.append_assoc, List.cons_append, List.nil_append]

/-- **A storage key says which scope it is of.** -/
theorem slot_injective : Function.Injective slot := by
  intro s s' h
  have letters := congrArg String.toList h
  rw [toList_slot, toList_slot,
    Text.append_delimiter_inj (colon_not_mem_name _) (colon_not_mem_name _),
    Text.append_delimiter_inj (colon_not_mem_toString _) (colon_not_mem_toString _),
    Text.append_delimiter_inj (colon_not_mem_toString _) (colon_not_mem_toString _)] at letters
  obtain ⟨name, limit, window, key⟩ := letters
  have algorithm : s.algorithm = s'.algorithm := by
    have h := Algorithm.ofName?_name s.algorithm
    rw [String.toList_inj.mp name, Algorithm.ofName?_name] at h
    exact (Option.some.inj h).symm
  cases s
  cases s'
  rw [mk.injEq]
  exact ⟨algorithm, toString_inj limit, toString_inj window, String.toList_inj.mp key⟩

end Scope

/-- **Two storage keys are the same** exactly if algorithm, limit, window in milliseconds and caller key are,
whatever the caller keys hold. -/
theorem scopedKey_eq_iff (a a' : Algorithm) (q q' : Quota) (key key' : String) :
    scopedKey a.name q key = scopedKey a'.name q' key' ↔
      a = a' ∧ q.limit = q'.limit ∧ q.windowMs = q'.windowMs ∧ key = key' := by
  have slots : scopedKey a.name q key = scopedKey a'.name q' key' ↔
      Scope.slot ⟨a, q.limit, q.windowMs, key⟩ = Scope.slot ⟨a', q'.limit, q'.windowMs, key'⟩ := Iff.rfl
  rw [slots, Scope.slot_injective.eq_iff, Scope.mk.injEq]

/-- A caller key that looks like the end of another storage key makes no difference. -/
example : scopedKey Algorithm.tokenBucket.name ⟨1, .ofSeconds 1⟩ "1000:" ≠
    scopedKey Algorithm.tokenBucket.name ⟨1, .ofMillis 1⟩ "000:1000:" := by decide

end Admission

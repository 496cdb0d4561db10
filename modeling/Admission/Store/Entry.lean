/-
# Admission.Store.Entry — what a store keeps under a key

An entry is a value that the store does not look into, and the instant at which it lapses. At that
instant and after it the entry counts as absent. An entry without such an instant never lapses.
-/
import Admission.Word

namespace Admission

/-- Stored bytes can be compared. Libraries bring other ways to do so; this is the one that stores
use. -/
instance decidableEqBytes : DecidableEq ByteArray := ByteArray.instDecidableEq

/-- A stored value and its expiry. -/
structure Entry where
  /-- The stored bytes. -/
  value : ByteArray
  /-- When the entry lapses, in milliseconds; never if there is no such instant. -/
  expiresAt : Option Nat
deriving DecidableEq

namespace Entry

/-- A new entry. An expiry at the epoch means that the entry never lapses. -/
def make (value : ByteArray) (expiresAt : Option Nat) : Entry :=
  ⟨value, expiresAt.filter (0 < ·)⟩

/-- An entry that never lapses. -/
def persistent (value : ByteArray) : Entry := make value none

/-- Whether the entry has lapsed. -/
def expired (e : Entry) (now : Nat) : Bool :=
  match e.expiresAt with
  | none => false
  | some t => t ≤ now

/-- The value, unless the entry has lapsed. -/
def live? (e : Entry) (now : Nat) : Option ByteArray := if e.expired now then none else some e.value

/-- The milliseconds left before the entry lapses. -/
def timeToLive (e : Entry) (now : Nat) : Option Nat := e.expiresAt.map (· - now)

theorem expired_mono {e : Entry} {t u : Nat} (h : e.expired t) (le : t ≤ u) : e.expired u := by
  cases he : e.expiresAt with
  | none => simp [expired, he] at h
  | some x =>
    simp only [expired, he, decide_eq_true_eq] at h ⊢
    omega

end Entry

end Admission

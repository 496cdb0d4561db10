/-
# Admission.Proofs.Lapse — how long a recorded state lasts

Both algorithms store their state with an expiry one window ahead. As long as the clock reads less
than its last instant, saturation changes nothing about that: the state is there strictly before the
window has passed, and gone from then on (`live?_window`).
-/
import Admission.Quota
import Admission.Store.Entry

namespace Admission

namespace Word

/-- A saturated sum is no later than an ordinary instant exactly if the sum itself is not. -/
theorem add_le_iff {a b t : Nat} (h : t < last) : add a b ≤ t ↔ a + b ≤ t := by
  simp only [add, clamp]
  omega

theorem lt_add {a b t : Nat} (h : t < last) : t < add a b ↔ t < a + b := by
  simp only [add, clamp]
  omega

end Word

namespace Quota

theorem Valid.limit_pos {q : Quota} (valid : q.Valid) : 0 < q.limit := valid.1

theorem Valid.limit_le {q : Quota} (valid : q.Valid) : q.limit ≤ Word.last := valid.2.1

theorem Valid.windowMs_pos {q : Quota} (valid : q.Valid) : 0 < q.windowMs := valid.2.2

end Quota

namespace Entry

/-- An expiry one window ahead is a real one. -/
theorem make_window {q : Quota} (valid : q.Valid) (value : ByteArray) (now : Nat) :
    make value (some (Word.add now q.windowMs)) = ⟨value, some (Word.add now q.windowMs)⟩ := by
  have positive : 0 < Word.add now q.windowMs := (Word.lt_add (by decide)).mpr (by
    have := valid.windowMs_pos
    omega)
  simp [make, positive]

/-- A recorded state lapses when the window has passed. -/
theorem expired_window {q : Quota} (valid : q.Valid) (value : ByteArray) (now : Nat) {t : Nat}
    (h : t < Word.last) :
    (make value (some (Word.add now q.windowMs))).expired t = true ↔ now + q.windowMs ≤ t := by
  rw [make_window valid]
  simp only [expired, decide_eq_true_eq, Word.add_le_iff h]

/-- It has not lapsed at the instant it is recorded at. -/
theorem unexpired_window {q : Quota} (valid : q.Valid) (value : ByteArray) {now : Nat}
    (h : now < Word.last) : (make value (some (Word.add now q.windowMs))).expired now = false := by
  have positive := valid.windowMs_pos
  rw [← Bool.not_eq_true, expired_window valid value now h]
  omega

/-- **A recorded state** is found until the window has passed. -/
theorem live?_window {q : Quota} (valid : q.Valid) (value : ByteArray) (now : Nat) {t : Nat}
    (h : t < Word.last) :
    (make value (some (Word.add now q.windowMs))).live? t =
      if now + q.windowMs ≤ t then none else some value := by
  simp only [live?, expired_window valid value now h]
  rfl

end Entry

end Admission

/-
# Admission.Proofs.Course — one thing after another, each at a moment of its own

A *course* is what happens to something that answers: a store, a map, a server. Each happening has its
moment, and the clock never goes back in between.

Two such things that stay related, whatever happens to both of them next, cannot be told apart by
their answers over a whole course (`Course.lockstep`). So it is enough to look at one happening at a
time. And a happening that leaves everything as it was might as well not have happened: to the others its
absence makes no difference (`Course.idle`).
-/
import Admission.Store.Backend

namespace Admission

/-- Happenings, one after another, each at a moment. -/
abbrev Course (ε : Type) := List (Moment × ε)

namespace Course

variable {σ τ ε ρ : Type}

/-- The clock never goes back. -/
def Chronological (course : Course ε) : Prop := course.Pairwise fun a b => a.1.now ≤ b.1.now

/-- Nothing happens before what happens first. -/
theorem Chronological.head_le {course : Course ε} (ordered : course.Chronological) {first : Moment × ε}
    (head : first ∈ course.head?) : ∀ happening ∈ course, first.1.now ≤ happening.1.now := by
  cases course with
  | nil => cases head
  | cons h rest =>
    cases head
    exact List.forall_mem_cons.mpr ⟨Nat.le_refl _, (List.pairwise_cons.mp ordered).1⟩

/-- The answers to what happens. -/
def replies (step : σ → Moment → ε → ρ × σ) : σ → Course ε → List ρ
  | _, [] => []
  | s, (moment, e) :: rest => (step s moment e).1 :: replies step (step s moment e).2 rest

/-- What is there in the end. -/
def leaves (step : σ → Moment → ε → ρ × σ) (s : σ) (course : Course ε) : σ :=
  course.foldl (fun s happening => (step s happening.1 happening.2).2) s

/-- One course after another. -/
theorem replies_append (step : σ → Moment → ε → ρ × σ) (s : σ) (before after : Course ε) :
    replies step s (before ++ after) =
      replies step s before ++ replies step (leaves step s before) after := by
  induction before generalizing s with
  | nil => rfl
  | cons happening rest ih => rw [List.cons_append, replies, ih, replies]; rfl

/-- **Lockstep.** If every happening of some kind is answered alike from related states, and leaves
related states at its moment, then a whole course of that kind is answered alike. -/
theorem lockstep {step : σ → Moment → ε → ρ × σ} {step' : τ → Moment → ε → ρ × τ}
    (kind : Moment → ε → Prop) (related : Nat → σ → τ → Prop)
    (keeps : ∀ now s t moment e, related now s t → now ≤ moment.now → kind moment e →
      (step s moment e).1 = (step' t moment e).1 ∧
        related moment.now (step s moment e).2 (step' t moment e).2)
    {course : Course ε} (ordered : course.Chronological)
    (all : ∀ happening ∈ course, kind happening.1 happening.2) {now : Nat} {s : σ} {t : τ}
    (start : related now s t) (after : ∀ happening ∈ course, now ≤ happening.1.now) :
    course.replies step s = course.replies step' t := by
  induction course generalizing now s t with
  | nil => rfl
  | cons happening rest ih =>
    obtain ⟨moment, e⟩ := happening
    obtain ⟨first, all⟩ := List.forall_mem_cons.mp all
    obtain ⟨later, ordered⟩ := List.pairwise_cons.mp ordered
    obtain ⟨alike, next⟩ := keeps now s t moment e start (after _ List.mem_cons_self) first
    rw [replies, replies, alike, ih ordered all next later]

/-- **Idling.** If all that is left out of a course would have left everything as it was, then what
remains is answered as it was, and there is the same in the end. -/
theorem idle {step : σ → Moment → ε → ρ × σ} (kept : Moment × ε → Bool)
    (still : ∀ s moment e, kept (moment, e) = false → (step s moment e).2 = s) (s : σ)
    (course : Course ε) :
    leaves step s (course.filter kept) = leaves step s course ∧
      (course.filter kept).zip (replies step s (course.filter kept)) =
        (course.zip (replies step s course)).filter fun answered => kept answered.1 := by
  induction course generalizing s with
  | nil => exact ⟨rfl, rfl⟩
  | cons happening rest ih =>
    obtain ⟨moment, e⟩ := happening
    obtain ⟨there, answers⟩ := ih (step s moment e).2
    rw [replies, List.zip_cons_cons]
    cases keeps : kept (moment, e) with
    | true =>
      rw [List.filter_cons_of_pos keeps, List.filter_cons_of_pos (by exact keeps), replies,
        List.zip_cons_cons, answers]
      exact ⟨there, rfl⟩
    | false =>
      have same : (step s moment e).2 = s := still s moment e keeps
      have along : leaves step s ((moment, e) :: rest) = leaves step (step s moment e).2 rest := rfl
      rw [List.filter_cons_of_neg (by simp [keeps]), List.filter_cons_of_neg (by simp [keeps]), along]
      rw [same] at there answers ⊢
      exact ⟨there, answers⟩

end Course

end Admission

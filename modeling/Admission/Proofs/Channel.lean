/-
# Admission.Proofs.Channel — what is relied on of a channel

The channel over which reports leave is somebody else's program. What a service relies on is said here, each
part of it by name (`Channel.Documented`): any capacity up to the largest can be had; a report is sent
exactly if somebody wants it and there is room, and goes to the end; the one that is taken comes from the
head. A queue does all that (`Channel.queue_documented`).

So the outbox of a service moves by what is taken and what is due (`Outbox.Moved`). A report that is not sent
is counted, on a counter that starts over when it is full.
-/
import Admission.Outbox

namespace Admission

namespace Channel

variable {κ : Type}

/-- Whether a report would be sent: somebody wants it, and the channel is not full. -/
def hasRoom (c : Channel κ) (k : κ) : Bool := c.wanted k && (c.waiting k).length < c.capacity k

/-- What is documented of a channel. -/
structure Documented (c : Channel κ) : Prop where
  /-- It can be made with room for as many reports as one likes, up to the largest number. It is empty then,
  and reports are wanted. -/
  make? : ∀ capacity > 0, capacity ≤ maxCapacity → ∃ k, c.make? capacity = some k ∧
    c.capacity k = capacity ∧ c.waiting k = [] ∧ c.wanted k = true
  /-- A report is sent exactly if there is room for it. -/
  send : ∀ d k, (c.send d k).1 = c.hasRoom k
  /-- One that is sent waits behind all others. -/
  send_waiting : ∀ d k, c.waiting (c.send d k).2 = c.waiting k ++ if c.hasRoom k then [d] else []
  /-- The oldest report is taken. -/
  receive : ∀ k, (c.receive k).1 = (c.waiting k).head?
  /-- The others go on waiting. -/
  receive_waiting : ∀ k, c.waiting (c.receive k).2 = (c.waiting k).tail
  /-- All reports go on waiting when no more are wanted. -/
  close_waiting : ∀ k, c.waiting (c.close k) = c.waiting k
  /-- Reports are wanted until the taker says otherwise. -/
  wanted : ∀ k, (∀ d, c.wanted (c.send d k).2 = c.wanted k) ∧ c.wanted (c.receive k).2 = c.wanted k ∧
    c.wanted (c.close k) = false
  /-- The capacity stays. -/
  capacity : ∀ k, (∀ d, c.capacity (c.send d k).2 = c.capacity k) ∧
    c.capacity (c.receive k).2 = c.capacity k ∧ c.capacity (c.close k) = c.capacity k

/-- What sending a report to a queue comes to. -/
theorem queue_send (d : Denial) (q : Queue) :
    queue.send d q =
      (queue.hasRoom q, { q with waiting := q.waiting ++ if queue.hasRoom q then [d] else [] }) := by
  show (if queue.hasRoom q then _ else _ : Bool × Queue) = _
  cases queue.hasRoom q <;> simp

/-- A queue does what is documented of a channel. -/
theorem queue_documented : queue.Documented where
  make? capacity positive fits := ⟨⟨capacity, [], true⟩, if_pos ⟨positive, fits⟩, rfl, rfl, rfl⟩
  send d q := by rw [queue_send]
  send_waiting d q := by
    rw [queue_send]
    rfl
  receive _ := rfl
  receive_waiting _ := rfl
  close_waiting _ := rfl
  wanted q := ⟨fun d => by rw [queue_send]; rfl, rfl, rfl⟩
  capacity q := ⟨fun d => by rw [queue_send]; rfl, rfl, rfl⟩

end Channel

/-- A report that a denial calls for. -/
structure Due where
  /-- The report. -/
  report : Denial
  /-- Whether it is wanted at that moment, and the channel is not full. -/
  room : Bool

/-- Whether a report that is due finds no room. -/
def Due.missed (due : Due) : Bool := !due.room

namespace Outbox

variable {κ : Type} {c : Channel κ}

/-- How an outbox moves when a report is taken, or one is due that is sent, or dropped and counted if there
is no room. -/
structure Moved (c : Channel κ) (o o' : Outbox κ) (taken : Option Denial) (due : Option Due) : Prop where
  /-- The channel keeps its capacity. -/
  capacity : c.capacity o'.channel = c.capacity o.channel
  /-- No more reports wait than that. -/
  bounded : (c.waiting o.channel).length ≤ c.capacity o.channel →
    (c.waiting o'.channel).length ≤ c.capacity o.channel
  /-- What is taken and what waits is what has waited, and what has found room. -/
  order : taken.toList ++ c.waiting o'.channel =
    c.waiting o.channel ++ (due.toList.filter Due.room).map Due.report
  /-- What has found none is counted. -/
  missing : o.dropped ≤ Word.last →
    o'.dropped = (o.dropped + due.toList.countP Due.missed) % (Word.last + 1)

/-- A count that stays is the count. -/
theorem counted_none {n : Nat} (h : n ≤ Word.last) : n = (n + 0) % (Word.last + 1) :=
  (Nat.mod_eq_of_lt (Nat.lt_succ_of_le h)).symm

theorem moved_refl (c : Channel κ) (o : Outbox κ) : o.Moved c o none none :=
  ⟨rfl, id, by simp, counted_none⟩

theorem moved_close (documented : c.Documented) (o : Outbox κ) : o.Moved c (o.close c) none none where
  capacity := (documented.capacity o.channel).2.2
  bounded := by
    intro bounded
    rw [close, documented.close_waiting]
    exact bounded
  order := by simp [close, documented.close_waiting]
  missing := counted_none

/-- The report that is taken was the head of what waited. -/
theorem moved_receive (documented : c.Documented) (o : Outbox κ) :
    o.Moved c (o.receive c).2 (o.receive c).1 none where
  capacity := (documented.capacity o.channel).2.1
  bounded := by
    intro bounded
    simp only [receive, documented.receive_waiting, List.length_tail]
    omega
  order := by
    simp only [receive, documented.receive, documented.receive_waiting]
    cases c.waiting o.channel <;> simp
  missing := counted_none

/-- A report that is published was due. -/
theorem moved_publish (documented : c.Documented) (o : Outbox κ) (d : Denial) :
    o.Moved c (o.publish c d).2 none (some ⟨d, c.hasRoom o.channel⟩) where
  capacity := (documented.capacity o.channel).1 d
  bounded := by
    intro bounded
    simp only [publish, documented.send_waiting, List.length_append]
    cases room : c.hasRoom o.channel with
    | true =>
      rw [Channel.hasRoom, Bool.and_eq_true] at room
      exact of_decide_eq_true room.2
    | false => exact bounded
  order := by
    simp only [publish, documented.send_waiting]
    cases room : c.hasRoom o.channel <;> simp
  missing := by
    intro small
    simp only [publish, documented.send]
    cases room : c.hasRoom o.channel with
    | true => exact counted_none small
    | false => rfl

end Outbox

end Admission

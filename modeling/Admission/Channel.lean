/-
# Admission.Channel — how reports leave

Reports are sent at one end of a channel and taken at the other. The channel is somebody else's program:
it is given by what it does when it is made, when a report is sent or taken, and when the taker wants no
more or leaves. Whoever relies on a channel that does all that well has to say so.

One channel is at hand, a queue of bounded length (`Channel.queue`).
-/
import Admission.Denial

namespace Admission

/-- A channel for reports with the state `κ`, and what can be found out about that. -/
structure Channel (κ : Type) where
  /-- An empty channel with room for so many reports, if there can be one. -/
  make? : Nat → Option κ
  /-- Sends a report without waiting for room: whether it was sent, and the channel. -/
  send : Denial → κ → Bool × κ
  /-- Takes the oldest report, if there is one. -/
  receive : κ → Option Denial × κ
  /-- The taker wants no more reports. It can still take those that wait. -/
  close : κ → κ
  /-- The taker leaves. -/
  leave : κ → κ
  /-- How many reports may wait. -/
  capacity : κ → Nat
  /-- The reports that wait, oldest first. -/
  waiting : κ → List Denial
  /-- Whether there is still somebody who wants reports. -/
  wanted : κ → Bool

/-- A queue of reports. -/
structure Queue where
  /-- How many reports may wait. -/
  capacity : Nat
  /-- The reports that wait, oldest first. -/
  waiting : List Denial
  /-- Whether there is still somebody who wants reports. -/
  wanted : Bool
deriving DecidableEq, Repr

namespace Channel

/-- The largest number of reports that any channel has room for. -/
def maxCapacity : Nat := 1 <<< 61 - 1

/-- A queue as a channel. Nothing is sent that finds it full, or nobody on the other side, and whoever
leaves takes nothing along of what still waits. -/
def queue : Channel Queue where
  make? capacity :=
    if 0 < capacity ∧ capacity ≤ maxCapacity then some ⟨capacity, [], true⟩ else none
  send d q :=
    if q.wanted && q.waiting.length < q.capacity then (true, { q with waiting := q.waiting ++ [d] })
    else (false, q)
  receive q := (q.waiting.head?, { q with waiting := q.waiting.tail })
  close q := { q with wanted := false }
  leave q := { q with waiting := [], wanted := false }
  capacity := Queue.capacity
  waiting := Queue.waiting
  wanted := Queue.wanted

end Channel

end Admission

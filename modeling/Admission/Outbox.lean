/-
# Admission.Outbox — reports on their way out

Reports wait in a channel for somebody to take them. Publishing never waits: a report that finds the
channel full, or nobody on the other side any more, is dropped and counted.
-/
import Admission.Channel
import Admission.Word

namespace Admission

/-- The reports on their way out, over a channel with the state `κ`. -/
structure Outbox (κ : Type) where
  /-- The channel. -/
  channel : κ
  /-- How many reports were dropped, on a 64-bit counter. -/
  dropped : Nat
deriving DecidableEq, Repr

namespace Outbox

variable {κ : Type}

/-- An empty outbox with room for at least one report, if there is a channel for so many. -/
def make? (c : Channel κ) (capacity : Nat) : Option (Outbox κ) :=
  (c.make? (max capacity 1)).map fun channel => ⟨channel, 0⟩

/-- Publishes a report: whether it was sent, and the outbox. -/
def publish (c : Channel κ) (o : Outbox κ) (d : Denial) : Bool × Outbox κ :=
  let (sent, channel) := c.send d o.channel
  (sent, ⟨channel, if sent then o.dropped else (o.dropped + 1) % (Word.last + 1)⟩)

/-- Takes the oldest report, if there is one. -/
def receive (c : Channel κ) (o : Outbox κ) : Option Denial × Outbox κ :=
  let (d, channel) := c.receive o.channel
  (d, { o with channel := channel })

/-- The other side wants no more reports. It can still take those that wait. -/
def close (c : Channel κ) (o : Outbox κ) : Outbox κ := { o with channel := c.close o.channel }

/-- The other side leaves. -/
def hangUp (c : Channel κ) (o : Outbox κ) : Outbox κ := { o with channel := c.leave o.channel }

end Outbox

end Admission

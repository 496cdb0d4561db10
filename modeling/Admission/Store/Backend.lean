/-
# Admission.Store.Backend — what a store offers to a limiter

A backend answers five operations, each of which may fail and may change the backend's state `σ`. The
state also tells what the clock reads and whether the caller has given up, so that both may change in
the middle of an operation. A caller that has given up is told so before anything else happens
(`guarded`).
-/
import Admission.Failure
import Admission.Store.Memory

namespace Admission

/-- What every part of a service can see of its surroundings. -/
structure Surroundings (σ : Type) where
  /-- What the wall clock reads. -/
  now : σ → Nat
  /-- Whether the caller has given up. -/
  cancelled : σ → Bool

/-- The operations of a store with the state `σ`. -/
structure Backend (σ : Type) extends Surroundings σ where
  /-- The value under a key, if there is one that has not lapsed. -/
  get : String → σ → Except Failure (Option ByteArray) × σ
  /-- Stores an entry under a key. -/
  set : String → Entry → σ → Except Failure Unit × σ
  /-- Removes the entry of a key. -/
  delete : String → σ → Except Failure Unit × σ
  /-- Stores an entry under a key if the value there is the expected one. -/
  swap : String → Option ByteArray → Entry → σ → Except Failure Bool × σ
  /-- Gives up what the store holds besides its entries. -/
  close : σ → Except Failure Unit × σ

/-- Runs an operation unless the caller has given up. -/
def Surroundings.guarded {σ α : Type} (around : Surroundings σ) (operation : σ → Except Failure α × σ)
    (s : σ) : Except Failure α × σ :=
  if around.cancelled s then (.error .cancelled, s) else operation s

/-- Surroundings in which nothing happens: a clock reading, and whether the caller has given up. -/
structure Moment where
  /-- What the wall clock reads. -/
  now : Nat
  /-- Whether the caller has given up. -/
  cancelled : Bool
deriving DecidableEq, Repr

/-- The surroundings of a single moment. -/
def Moment.surroundings : Surroundings Moment := ⟨Moment.now, Moment.cancelled⟩

/-- The store inside the process as a backend. -/
def Memory.backend {σ : Type} (around : Surroundings σ) : Backend (Memory × σ) :=
  let outer : Surroundings (Memory × σ) :=
    ⟨fun s => around.now s.2, fun s => around.cancelled s.2⟩
  { outer with
    get := fun key => outer.guarded fun (m, s) =>
      let (value, m) := m.get (around.now s) key
      (.ok value, m, s)
    set := fun key entry => outer.guarded fun (m, s) =>
      (.ok (), m.set (around.now s) key entry, s)
    delete := fun key => outer.guarded fun (m, s) => (.ok (), m.delete key, s)
    swap := fun key expected entry => outer.guarded fun (m, s) =>
      let (swapped, m) := m.swap (around.now s) key expected entry
      (.ok swapped, m, s)
    close := fun (m, s) => (.ok (), m.close, s) }

end Admission

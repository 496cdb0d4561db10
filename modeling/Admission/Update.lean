/-
# Admission.Update — reading, deciding and writing as one

A decision reads the state of a key, computes a new one and writes it back on the condition that the
state is still the one that was read. If another writer came first, everything starts over with a
fresh reading, a limited number of times. So a decision is always written over the very state it was
made on.

What is decided comes from an action (`Action`), which is called once a round. It may keep something in
mind from one round to the next, as one that counts its calls does. Those of the limiters keep nothing
(`Operation.action`).

An update is a machine that stands at one of four places (`Phase`): before its reading, before it
looks at the clock and decides, before its writing, and at its end. It moves from one place to the
next at a time (`Phase.step`). `run` takes the steps one after the other; in an interleaving of
several updates, other steps may come between them, and so may the passing of time.
-/
import Admission.Store.Backend

namespace Admission.Update

variable {σ α : Type}

/-- What an update computes from the value it read and the clock reading after that: the entry to
write, and the result to return once it is written. -/
abbrev Operation (α : Type) := Option ByteArray → Nat → Except Failure (Entry × α)

/-- An operation that finds something when it is called, and leaves something behind: what it keeps from
one round to the next is a part of the state, beside the store. -/
abbrev Action (σ α : Type) := Option ByteArray → Nat → σ → Except Failure (Entry × α) × σ

/-- An operation that keeps nothing. -/
def Operation.action (operation : Operation α) : Action σ α := fun seen now s => (operation seen now, s)

/-- Where an update stands. -/
inductive Phase (α : Type) where
  /-- About to read, after so many lost writes. -/
  | reading (lost : Nat)
  /-- About to look at the clock and decide, after so many lost writes: the value that was read. -/
  | deciding (lost : Nat) (seen : Option ByteArray)
  /-- About to write, after so many lost writes: the value that was read, the entry to write in its
  place, and the result that goes with it. -/
  | writing (lost : Nat) (seen : Option ByteArray) (entry : Entry) (result : α)
  /-- At its end. -/
  | done (outcome : Except Failure α)

/-- Another write was lost: the update starts over, or gives up when it has started over `retries`
times. -/
def Phase.afterLoss (retries lost : Nat) : Phase α :=
  if retries < lost + 1 then .done (.error (.storage (.conflict (lost + 1))))
  else .reading (lost + 1)

/-- One place further. A caller that has given up is told so before a storage operation. -/
def Phase.step (b : Backend σ) (key : String) (retries : Nat) (action : Action σ α)
    (phase : Phase α) (s : σ) : Phase α × σ :=
  match phase with
  | .done outcome => (.done outcome, s)
  | .reading lost =>
    if b.cancelled s then (.done (.error .cancelled), s)
    else
      match b.get key s with
      | (.error f, s) => (.done (.error f), s)
      | (.ok seen, s) => (.deciding lost seen, s)
  | .deciding lost seen =>
    match action seen (b.now s) s with
    | (.error f, s) => (.done (.error f), s)
    | (.ok (entry, result), s) => (.writing lost seen entry result, s)
  | .writing lost seen entry result =>
    if b.cancelled s then (.done (.error .cancelled), s)
    else
      match b.swap key seen entry s with
      | (.error f, s) => (.done (.error f), s)
      | (.ok true, s) => (.done (.ok result), s)
      | (.ok false, s) => (.afterLoss retries lost, s)

/-- Tries up to `attempts` rounds of a reading, a decision and a writing, after `lost` lost writes. -/
def attempt (b : Backend σ) (key : String) (retries : Nat) (action : Action σ α) :
    (attempts lost : Nat) → σ → Except Failure α × σ
  | 0, lost, s => (.error (.storage (.conflict lost)), s)
  | attempts + 1, lost, s =>
    let (phase, s) := Phase.step b key retries action (.reading lost) s
    let (phase, s) := Phase.step b key retries action phase s
    let (phase, s) := Phase.step b key retries action phase s
    match phase with
    | .done outcome => (outcome, s)
    | _ => attempt b key retries action attempts (lost + 1) s

/-- Reads, decides and writes, starting over at most `retries` times. -/
def run (b : Backend σ) (key : String) (retries : Nat) (action : Action σ α) (s : σ) :
    Except Failure α × σ :=
  attempt b key retries action (retries + 1) 0 s

end Admission.Update

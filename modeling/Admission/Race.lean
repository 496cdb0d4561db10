/-
# Admission.Race — several decisions at once

Calls of limiters over one store inside the process proceed one storage operation or one look at the
clock at a time, and any of them may be the next to proceed. A race is the store and the calls; an
event lets one call take a step, lets a caller give up or a limiter forget a key, lets time pass or
sweeps. A schedule is a list of events.
-/
import Admission.Limiter

namespace Admission

/-- A request that is being decided on. -/
structure Call where
  /-- Who decides. -/
  limiter : Limiter
  /-- The caller key. -/
  key : String
  /-- How far the decision is. -/
  phase : Update.Phase Decision
  /-- Whether the caller has given up. -/
  cancelled : Bool

/-- A request before its first step. -/
def Call.fresh (limiter : Limiter) (key : String) : Call := ⟨limiter, key, .reading 0, false⟩

/-- The outcome of a request that has been decided on. -/
def Call.outcome? (c : Call) : Option (Except Failure Decision) :=
  match c.phase with
  | .done outcome => some outcome
  | _ => none

/-- A call takes one step. -/
def Call.step {σ : Type} (c : Call) (b : Backend σ) (s : σ) : Call × σ :=
  let (phase, s) := c.phase.step b (c.limiter.slot c.key) c.limiter.maxRetries c.limiter.decide.action s
  ({ c with phase := phase }, s)

/-- A store and the requests that are being decided on over it. -/
structure Race where
  /-- The store. -/
  memory : Memory
  /-- What the clock reads. -/
  now : Nat
  /-- The requests. -/
  calls : List Call

namespace Race

/-- Something that happens in a race. -/
inductive Event where
  /-- The call at a position takes a step. -/
  | step (position : Nat)
  /-- The caller at a position gives up. -/
  | cancel (position : Nat)
  /-- A limiter forgets a caller key. -/
  | reset (limiter : Limiter) (key : String)
  /-- The clock moves forward. -/
  | elapse (ms : Nat)
  /-- Lapsed entries are swept. -/
  | sweep

/-- The store of a race as its calls see it. -/
def backend : Backend (Memory × Moment) := Memory.backend Moment.surroundings

/-- The call at a position takes a step. -/
def advance (r : Race) (position : Nat) : Race :=
  match r.calls[position]? with
  | none => r
  | some call =>
    let (call, memory, _) := call.step backend (r.memory, ⟨r.now, call.cancelled⟩)
    { r with memory := memory, calls := r.calls.set position call }

/-- What an event does. -/
def happen (r : Race) : Event → Race
  | .step position => r.advance position
  | .cancel position => { r with calls := r.calls.modify position fun c => { c with cancelled := true } }
  | .reset limiter key => { r with memory := r.memory.delete (limiter.slot key) }
  | .elapse ms => { r with now := r.now + ms }
  | .sweep => { r with memory := r.memory.sweep r.now }

/-- What a schedule does. -/
def run (r : Race) (schedule : List Event) : Race := schedule.foldl happen r

/-- Every call takes a step, one after the other. -/
def round (r : Race) : Race := (List.range r.calls.length).foldl advance r

/-- So many rounds. -/
def rounds : Nat → Race → Race
  | 0, r => r
  | n + 1, r => rounds n r.round

/-- The rounds after which every call is decided: each takes a step in every round, and needs three
for every write it may lose and three for the last one. -/
def enough (r : Race) : Nat :=
  (r.calls.map fun c => 3 * (c.limiter.maxRetries + 1)).foldl max 0

/-- All calls proceed in turn until each of them is decided. -/
def finish (r : Race) : Race := rounds r.enough r

/-- How many of the calls for a key were allowed, denied, and not decided. -/
def tally (r : Race) (key : String) : Nat × Nat × Nat :=
  let outcomes := (r.calls.filter (·.key = key)).map (·.outcome?)
  (outcomes.countP fun o => match o with
    | some (.ok d) => d.allowed
    | _ => false,
   outcomes.countP fun o => match o with
    | some (.ok d) => !d.allowed
    | _ => false,
   outcomes.countP fun o => match o with
    | some (.ok _) => false
    | _ => true)

end Race

end Admission

/-
# Admission.Store.Chosen — the store that a configuration chose

Which kind of store a service uses is chosen once, when it starts. From then on the service does not
care.
-/
import Admission.Remote.Client

namespace Admission

/-- The kinds of stores. -/
inductive StoreKind where
  /-- Inside the process. -/
  | memory
  /-- On a server. -/
  | remote
deriving DecidableEq, Repr

namespace StoreKind

/-- The kind used when none is named. -/
def default : StoreKind := .memory

/-- The name of a kind in a configuration. -/
def name : StoreKind → String
  | .memory => "memory"
  | .remote => "redis"

/-- The kind of a name. -/
def ofName? (s : String) : Option StoreKind :=
  if s = "memory" then some .memory
  else if s = "redis" then some .remote
  else none

/-- The kind of a name, or what is wrong with the name. -/
def parse (s : String) : Except ConfigFailure StoreKind :=
  match ofName? s with
  | some kind => .ok kind
  | none => .error (.invalidStorage ("unsupported storage type: " ++ s))

/-- Reads a kind from JSON. -/
def ofJson? (t : Json.Tree) : Option StoreKind := t.choice?.bind ofName?

end StoreKind

/-- A store of either kind. -/
inductive Store where
  /-- A store inside the process. -/
  | memory (m : Memory)
  /-- A store on a server. -/
  | remote (c : Remote.Client)

namespace Store

/-- The kind of a store. -/
def kind : Store → StoreKind
  | .memory _ => .memory
  | .remote _ => .remote

/-- The store in words. -/
def describe : Store → String
  | .memory m => "Memory(" ++ m.describe ++ ")"
  | .remote c => "Redis(" ++ c.describe

variable {σ α : Type}

/-- Does what the kind of the store asks for. -/
def dispatch (s : Store × σ) (inside : Memory × σ → α × Memory × σ)
    (outside : Remote.Client × σ → α × Remote.Client × σ) : α × Store × σ :=
  match s with
  | (.memory m, rest) => let (r, m, rest) := inside (m, rest); (r, .memory m, rest)
  | (.remote c, rest) => let (r, c, rest) := outside (c, rest); (r, .remote c, rest)

/-- A store of either kind as a backend. -/
def backend (link : Remote.Link σ) : Backend (Store × σ) :=
  let inside := Memory.backend link.toSurroundings
  let outside := Remote.Client.backend link
  { now := fun s => link.now s.2
    cancelled := fun s => link.cancelled s.2
    get := fun key s => dispatch s (inside.get key) (outside.get key)
    set := fun key entry s => dispatch s (inside.set key entry) (outside.set key entry)
    delete := fun key s => dispatch s (inside.delete key) (outside.delete key)
    swap := fun key expected entry s =>
      dispatch s (inside.swap key expected entry) (outside.swap key expected entry)
    close := fun s => dispatch s inside.close outside.close }

end Store

end Admission

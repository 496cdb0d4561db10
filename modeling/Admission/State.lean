/-
# Admission.State — what an algorithm remembers about a key

Each algorithm has a state of its own. Both are stored as JSON with the algorithm's name in front, so
that a state is never taken for the other algorithm's. What cannot be read is *corrupted*; that is
not a failure, since a decision then starts from a fresh state.
-/
import Admission.Algorithm

namespace Admission

/-- The state of a token bucket. -/
structure Bucket where
  /-- The tokens left. -/
  tokens : Nat
  /-- The instant from which the refill counts. -/
  refilledAt : Nat
deriving DecidableEq, Repr

/-- A full bucket. -/
def Bucket.full (limit now : Nat) : Bucket := ⟨limit, now⟩

/-- The state of a sliding window: the instants of the admitted requests, oldest first. -/
structure Log where
  /-- The instants, in milliseconds. -/
  instants : List Nat
deriving DecidableEq, Repr

/-- A stored state. -/
inductive State where
  /-- The state of a token bucket. -/
  | bucket (state : Bucket)
  /-- The state of a sliding window. -/
  | log (state : Log)
deriving DecidableEq, Repr

/-- Why stored bytes are not the state of an algorithm. -/
inductive Corruption where
  /-- They are not a state at all. -/
  | unreadable
  /-- They are the state of the other algorithm. -/
  | mismatch (expected found : Algorithm)
deriving DecidableEq, Repr

/-- The corruption in words. -/
def Corruption.message : Corruption → String
  | .unreadable => "corrupted limiter state: unreadable"
  | .mismatch expected found =>
    "corrupted limiter state: expected " ++ expected.name ++ " state, found " ++ found.name

namespace State

/-- The algorithm a state belongs to. -/
def algorithm : State → Algorithm
  | .bucket _ => .tokenBucket
  | .log _ => .slidingWindow

/-! ## Writing -/

/-- A state as it is written in JSON. -/
def toJson (s : State) : Json.Value :=
  let name := ("algorithm", s.algorithm.toJson)
  match s with
  | .bucket b => .object [name, ("tokens", .number b.tokens), ("last_refill_ms", .number b.refilledAt)]
  | .log l => .object [name, ("timestamps", .array (l.instants.map .number))]

/-- A state as it is stored. -/
def encode (s : State) : ByteArray := s.toJson.render.toUTF8

/-! ## Reading -/

/-- Reads the state of a token bucket, without the name. -/
def bucketOfJson? (t : Json.Tree) : Option Bucket := do
  let [tokens, refilledAt] ← t.fields? ["tokens", "last_refill_ms"] false | none
  return ⟨← Json.Field.required Json.Tree.count? tokens,
    ← Json.Field.required Json.Tree.count? refilledAt⟩

/-- Reads the state of a sliding window, without the name. -/
def logOfJson? (t : Json.Tree) : Option Log := do
  let [instants] ← t.fields? ["timestamps"] false | none
  return ⟨← Json.Field.required (Json.Tree.list? Json.Tree.count?) instants⟩

/-- Reads a state. -/
def ofJson? (t : Json.Tree) : Option State := do
  let (name, rest) ← t.tagged? "algorithm"
  match ← Algorithm.ofName? name with
  | .tokenBucket => return .bucket (← bucketOfJson? rest)
  | .slidingWindow => return .log (← logOfJson? rest)

/-- Reads stored bytes. -/
def decode (bytes : ByteArray) : Except Corruption State :=
  match (Json.Tree.parse bytes).bind ofJson? with
  | some s => .ok s
  | none => .error .unreadable

/-- Reads stored bytes as the state of a token bucket. -/
def decodeBucket (bytes : ByteArray) : Except Corruption Bucket := do
  match ← decode bytes with
  | .bucket b => .ok b
  | s => .error (.mismatch .tokenBucket s.algorithm)

/-- Reads stored bytes as the state of a sliding window. -/
def decodeLog (bytes : ByteArray) : Except Corruption Log := do
  match ← decode bytes with
  | .log l => .ok l
  | s => .error (.mismatch .slidingWindow s.algorithm)

end State

end Admission

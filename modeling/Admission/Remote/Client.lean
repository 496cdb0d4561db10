/-
# Admission.Remote.Client — a store on a server

A client turns each store operation into one command, and makes something of the server's answer. It
needs a free connection for that, and gives up on a command that takes too long.

A caller may give up while a command is under way. A read is abandoned then. A write is not: once it
has been sent its outcome is waited for, so that a caller who is told `cancelled` knows that nothing
was written. A write that takes too long carries no such promise.
-/
import Admission.Remote.Command
import Admission.Remote.Endpoint
import Admission.Store.Backend
import Admission.Text.Digits

namespace Admission.Remote

/-- What comes back for a command. -/
inductive Answer where
  /-- A value. -/
  | bulk (value : ByteArray)
  /-- No value. -/
  | nil
  /-- A number. -/
  | integer (n : Int)
  /-- A word. -/
  | status (word : String)
  /-- The server refuses the command. -/
  | refusal (reason : String)
  /-- Nothing, for as long as one may wait. -/
  | silence
  /-- The server closes the connection. -/
  | hungUp
deriving DecidableEq

/-- The way to a server, with the state `σ`. -/
structure Link (σ : Type) extends Surroundings σ where
  /-- Whether a connection is free, or becomes free in time. -/
  free : σ → Bool
  /-- Sends a command and waits for what comes back. -/
  send : Command → σ → Answer × σ

/-- A store on a server. -/
structure Client where
  /-- What stands before every key. -/
  keyPrefix : String
  /-- How long a command may take. -/
  commandTimeout : Duration
  /-- Whether it has not been closed. -/
  isOpen : Bool
deriving DecidableEq, Repr

/-! ## What answers mean -/

namespace Answer

/-- The failure that an answer without a meaning stands for. -/
def unusable : Answer → Failure
  | .refusal reason => .storage (.unavailable reason true)
  | .hungUp => .storage (.unavailable "the connection was closed" true)
  | _ => .storage (.unavailable "unexpected answer" true)

/-- The answer to the question for a value. -/
def value : Answer → Except Failure (Option ByteArray)
  | .bulk bytes => .ok (some bytes)
  | .nil => .ok none
  | answer => .error answer.unusable

/-- The answer to a write: whatever the server says, as long as it does not refuse. -/
def written : Answer → Except Failure Unit
  | .refusal reason => .error (Answer.refusal reason).unusable
  | .hungUp => .error Answer.hungUp.unusable
  | _ => .ok ()

/-- The number an answer stands for: the number itself, or the text of one. -/
def number? : Answer → Option Int
  | .integer n => some n
  | .bulk bytes => (String.fromUTF8? bytes).bind fun text => Text.integer? text.toList
  | .status word => Text.integer? word.toList
  | _ => none

/-- The answer to a conditional write: one means that it took place. -/
def swapped (answer : Answer) : Except Failure Bool :=
  match answer.number? with
  | some n => .ok (n = 1)
  | none => .error answer.unusable

end Answer

namespace Client

/-! ## Connecting -/

/-- The most connections a pool can have room for. -/
def maxPool : Nat := 1 <<< 48

/-- Connects to a server, given how it answers the first greeting; `none` if there is nobody at all. -/
def connect (a : Address) (greeting : Option Answer) : Except Failure Client :=
  match greeting with
  | none => .error (.connection (.refused "nobody there"))
  | some .silence => .error (.connection (.timeout a.connectionTimeout))
  | some (.refusal reason) => .error (.connection (.refused reason))
  | some .hungUp => .error (.connection (.refused "the connection was closed"))
  | some _ => .ok ⟨a.keyPrefix, a.commandTimeout, true⟩

/-- What a new connection says before anything else: the password if there is one, with the user if
one is named, and the database if it is not the first. -/
def login (e : Endpoint) : List (List String) :=
  let credentials := e.password.toList.map fun password => "AUTH" :: e.user.toList ++ [password]
  if e.db = 0 then credentials else credentials ++ [["SELECT", toString e.db]]

/-! ## Commands -/

variable {σ α : Type}

/-- The key on the server. -/
def fullKey (c : Client) (key : String) : String := c.keyPrefix ++ key

/-- Goes on with a connection if the caller wants one and one can be had. -/
def withConnection (link : Link σ) (c : Client) (s : σ) (use : σ → Except Failure α × σ) :
    Except Failure α × σ :=
  if link.cancelled s then (.error .cancelled, s)
  else if !c.isOpen then (.error (.storage (.unavailable "the pool is closed" true)), s)
  else if !link.free s then (.error (.storage .poolExhausted), s)
  else use s

/-- Sends a read. A caller that gives up meanwhile does not wait for the answer. -/
def read (link : Link σ) (c : Client) (command : σ → Command)
    (meaning : Answer → Except Failure α) (s : σ) : Except Failure α × σ :=
  withConnection link c s fun s =>
    let (answer, s) := link.send (command s) s
    if link.cancelled s then (.error .cancelled, s)
    else if answer = .silence then (.error (.storage (.timeout c.commandTimeout)), s)
    else (meaning answer, s)

/-- Sends a write, and waits for the answer. -/
def write (link : Link σ) (c : Client) (command : σ → Command)
    (meaning : Answer → Except Failure α) (s : σ) : Except Failure α × σ :=
  withConnection link c s fun s =>
    let (answer, s) := link.send (command s) s
    if answer = .silence then (.error (.storage (.timeout c.commandTimeout)), s)
    else (meaning answer, s)

/-- The value of a key. -/
def get (link : Link σ) (c : Client) (key : String) : σ → Except Failure (Option ByteArray) × σ :=
  read link c (fun _ => .get (c.fullKey key)) Answer.value

/-- Stores an entry. -/
def set (link : Link σ) (c : Client) (key : String) (entry : Entry) : σ → Except Failure Unit × σ :=
  write link c (fun s => .ofSet (c.fullKey key) entry (link.now s)) Answer.written

/-- Removes a key. -/
def delete (link : Link σ) (c : Client) (key : String) : σ → Except Failure Unit × σ :=
  write link c (fun _ => .delete (c.fullKey key)) Answer.written

/-- Stores an entry if the value there is the expected one. -/
def swap (link : Link σ) (c : Client) (key : String) (expected : Option ByteArray)
    (entry : Entry) : σ → Except Failure Bool × σ :=
  write link c (fun s => .ofSwap (c.fullKey key) expected entry (link.now s)) Answer.swapped

/-- The client without its connections. -/
def close (c : Client) : Client := { c with isOpen := false }

/-- The client in words, up to the state of its connections. -/
def describe (c : Client) : String :=
  "RedisStorage \x7b key_prefix: " ++ Text.quoted c.keyPrefix

/-- A store on a server as a backend. -/
def backend (link : Link σ) : Backend (Client × σ) where
  now s := link.now s.2
  cancelled s := link.cancelled s.2
  get key s := let (r, rest) := s.1.get link key s.2; (r, s.1, rest)
  set key entry s := let (r, rest) := s.1.set link key entry s.2; (r, s.1, rest)
  delete key s := let (r, rest) := s.1.delete link key s.2; (r, s.1, rest)
  swap key expected entry s := let (r, rest) := s.1.swap link key expected entry s.2; (r, s.1, rest)
  close s := (.ok (), s.1.close, s.2)

end Client

end Admission.Remote

/-
# Admission.Remote.Endpoint — where a client connects to, and as whom

An endpoint is what a URL means to a client: the host and port to connect to, the credentials to
give there, and the database to choose. Many URLs mean nothing: the host may be none, the port too
large, the credentials no text, the path no number, or the protocol unheard of.

Tabs and line ends in a URL do not count, wherever they stand.
-/
import Admission.Remote.Address
import Admission.Remote.Host
import Admission.Remote.Url

namespace Admission.Remote

/-- Where a client connects to, and as whom. -/
structure Endpoint where
  /-- The host. -/
  host : String
  /-- The port. -/
  port : Nat
  /-- The user, if one is named. -/
  user : Option String
  /-- The password, if there is one. -/
  password : Option String
  /-- The number of the database. -/
  db : Int
deriving DecidableEq, Repr

namespace Endpoint

/-- The port of a server that names none. -/
def defaultPort : Nat := 6379

/-! ## The number in a path -/

/-- How many dots a segment of a path consists of, if it consists of dots only. A dot may be
percent-encoded. -/
def dots? : List Char → Option Nat
  | [] => some 0
  | '.' :: rest => (dots? rest).map (· + 1)
  | '%' :: '2' :: 'e' :: rest => (dots? rest).map (· + 1)
  | '%' :: '2' :: 'E' :: rest => (dots? rest).map (· + 1)
  | _ => none

/-- Whether a segment is the letter of a drive: a letter and a colon or a bar, with a backslash or
nothing behind it. -/
def isDrive : List Char → Bool
  | letter :: mark :: rest =>
    letter.isAlpha && (mark = ':' || mark = '|') && (rest = [] || rest.head? = some '\\')
  | _ => false

/-- One step along a path, to a segment from the ones above it, the nearest first. One dot stays;
two dots go up, but never above the letter of a drive. -/
def step (above : List (List Char)) (segment : List Char) : List (List Char) :=
  if dots? segment = some 1 then above
  else if dots? segment = some 2 then
    match above with
    | [] => []
    | nearest :: others => if isDrive nearest then above else others
  else segment :: above

/-- The number of the database that a path names. Slashes at its ends do not count, and without
anything else it names the first. -/
def database? (path : List Char) : Option Int :=
  match ((Text.pieces '/' path).foldl step []).filter (· ≠ []) with
  | [] => some 0
  | [segment] => Text.integer? segment
  | _ => none

/-! ## The protocol in a query -/

/-- The bytes of a name in ASCII. -/
def ascii (s : String) : List UInt8 := s.toList.map fun c => UInt8.ofNat c.toNat

/-- Whether a query leaves the protocol open or asks for one that exists. The last word counts. -/
def speaks (u : Url) : Bool :=
  match (u.parameters.filter (·.1 = ascii "protocol")).getLast? with
  | none => true
  | some (_, version) => ["2", "resp2", "3", "resp3"].any (version = ascii ·)

/-! ## Reading -/

/-- An optional text, percent-decoded. It must be one. -/
def decoded? : Option (List Char) → Option (Option String)
  | none => some none
  | some cs => (Text.Percent.decodeText? cs).map some

/-- What a URL means. A backslash behind the port belongs to the path. -/
def ofUrl? (u : Url) : Option Endpoint := do
  let (host, afterColon) := Host.cutPort false u.site
  guard (Host.isHost host)
  let (port, tail) ← Host.port? (afterColon.getD [])
  let user ← decoded? u.user?
  let password ← decoded? u.password?
  let db ← database? (tail ++ u.path)
  guard (speaks u)
  return ⟨String.ofList host, port.getD defaultPort, user, password, db⟩

/-- Whether a character of a URL does not count. -/
def isIgnored (c : Char) : Bool := c = '\t' || c = '\n' || c = '\r'

/-- Reads a URL. -/
def read? (url : String) : Option Endpoint :=
  (Url.read? (url.toList.filter (!isIgnored ·))).bind ofUrl?

end Endpoint

/-- Where the settings of a shared store lead to, if they lead anywhere. -/
def Address.endpoint? (a : Address) : Option Endpoint := Endpoint.read? a.url

end Admission.Remote

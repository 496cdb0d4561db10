/-
# Admission.Remote.Host — hosts and ports

A host is a name or, in brackets, an IPv6 address. A name is not looked into, but for some
characters that no name may have. A colon outside brackets stands before the port; what follows the
digits of a port is none of the host's business, as long as it starts with a backslash.
-/
import Admission.Text.Delimited
import Admission.Text.Digits

namespace Admission.Remote.Host

/-! ## Names -/

/-- Whether a character cannot be part of a name. -/
def isForbidden (c : Char) : Bool :=
  c ∈ ['\x00', '\t', '\n', '\r', ' ', '#', '/', ':', '<', '>', '?', '@', '[', '\\', ']', '^', '|']

/-- Whether a text is a name. -/
def isName (cs : List Char) : Bool := cs ≠ [] && cs.all (!isForbidden ·)

/-! ## IPv6 addresses -/

/-- Whether a text is a group of an address: up to four hexadecimal digits, and at least one. -/
def isGroup (cs : List Char) : Bool :=
  cs ≠ [] && cs.length ≤ 4 && cs.all fun c => (Text.hexDigit? c).isSome

/-- Whether a text is a decimal number below 256 without needless zeros. -/
def isOctet (cs : List Char) : Bool :=
  cs ≠ [] && cs.all Char.isDigit && (cs.length = 1 || cs.head? ≠ some '0') &&
    Nat.ofDigitChars 10 cs 0 ≤ 255

/-- Whether a text is an IPv4 address. -/
def isDotted (cs : List Char) : Bool :=
  let octets := Text.pieces '.' cs
  octets.length = 4 && octets.all isOctet

/-- How many of the eight groups of an address these are. The last may be an IPv4 address, which
stands for two. -/
def width? : List (List Char) → Option Nat
  | [] => some 0
  | [last] => if isGroup last then some 1 else if isDotted last then some 2 else none
  | group :: rest => if isGroup group then (width? rest).map (· + 1) else none

/-- The groups in a part of an address, which may be empty. -/
def groups (cs : List Char) : List (List Char) := if cs = [] then [] else Text.pieces ':' cs

/-- What stands on either side of the first double colon. -/
def cutGap? : List Char → Option (List Char × List Char)
  | ':' :: ':' :: rest => some ([], rest)
  | c :: rest => (cutGap? rest).map fun (front, back) => (c :: front, back)
  | [] => none

/-- Whether a text is an IPv6 address: eight groups, or fewer with a double colon for the rest. -/
def isAddress (cs : List Char) : Bool :=
  match cutGap? cs with
  | none => width? (groups cs) = some 8
  | some (front, back) =>
    (groups front).all isGroup &&
      (width? (groups back)).any fun n => (groups front).length + n ≤ 7

/-! ## Hosts -/

/-- Whether a text is a host. -/
def isHost : List Char → Bool
  | '[' :: rest => rest.getLast? = some ']' && isAddress rest.dropLast
  | cs => isName cs

/-- The host, and what follows the first colon outside brackets if there is one. -/
def cutPort (bracketed : Bool) : List Char → List Char × Option (List Char)
  | [] => ([], none)
  | c :: rest =>
    if c = ':' && !bracketed then ([], some rest)
    else
      let (host, port) := cutPort (c = '[' || bracketed && c ≠ ']') rest
      (c :: host, port)

/-- The port that digits write, none for no digits, and what follows them. -/
def port? (cs : List Char) : Option (Option Nat × List Char) :=
  let digits := cs.takeWhile Char.isDigit
  let rest := cs.dropWhile Char.isDigit
  let port := Nat.ofDigitChars 10 digits 0
  if 65535 < port || !(rest = [] || rest.head? = some '\\') then none
  else some (if digits = [] then none else some port, rest)

end Admission.Remote.Host

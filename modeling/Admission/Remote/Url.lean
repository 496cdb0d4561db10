/-
# Admission.Remote.Url — the parts of a server's URL

After the scheme comes the authority, which ends at the first slash, question mark or number sign.
Its last at sign ends the credentials; what follows it is the site, a host with a port. The first
colon of the credentials stands between user and password. The rest of the URL is a path, then a
query behind a question mark, then a fragment behind a number sign.

`Url.read?` only takes a text apart. What a part means, and whether it means anything, is a question
for whoever uses it.
-/
import Admission.Text.Delimited
import Admission.Text.Percent

namespace Admission.Remote

/-- The parts of a URL, as they are written. -/
structure Url where
  /-- User and password, if there is an at sign. -/
  credentials : Option (List Char)
  /-- The host, and the port if one is given. -/
  site : List Char
  /-- The path with its leading slash, or nothing. -/
  path : List Char
  /-- The query, if there is a question mark. -/
  query : Option (List Char)
deriving DecidableEq, Repr

namespace Url

/-! ## Taking a text apart -/

/-- A text without the scheme that it starts with. -/
def dropScheme? : List Char → Option (List Char)
  | 'r' :: 'e' :: 'd' :: 'i' :: 's' :: ':' :: '/' :: '/' :: rest => some rest
  | _ => none

/-- Whether a character ends the authority. -/
def endsAuthority (c : Char) : Bool := c = '/' || c = '?' || c = '#'

/-- Takes a URL apart. -/
def read? (text : List Char) : Option Url := do
  let rest ← dropScheme? text
  let (credentials, site) := Text.cutLast? '@' (rest.takeWhile (!endsAuthority ·))
  let (unmarked, _fragment) := Text.cut '#' (rest.dropWhile (!endsAuthority ·))
  let (path, query) := Text.cut '?' unmarked
  return ⟨credentials, site, path, query⟩

/-! ## Credentials -/

/-- The user as written, unless it is empty. -/
def user? (u : Url) : Option (List Char) :=
  (u.credentials.map fun cs => (Text.cut ':' cs).1).filter (· ≠ [])

/-- The password as written, unless it is empty. -/
def password? (u : Url) : Option (List Char) :=
  (u.credentials.bind fun cs => (Text.cut ':' cs).2).filter (· ≠ [])

/-! ## Query -/

/-- The bytes that a name or a value of a query stands for. A plus sign is a space. -/
def formBytes (cs : List Char) : List UInt8 :=
  Text.Percent.decode (cs.map fun c => if c = '+' then ' ' else c)

/-- The pairs of name and value in a query, in order. A name alone has the empty value. -/
def parameters (u : Url) : List (List UInt8 × List UInt8) :=
  let pairs := (Text.pieces '&' (u.query.getD [])).filter (· ≠ [])
  pairs.map fun pair =>
    let (name, value) := Text.cut '=' pair
    (formBytes name, formBytes (value.getD []))

end Url

end Admission.Remote

/-
# Admission.Remote.Address — where a shared store is, and how to talk to it

A shared store is a server that several processes talk to. Its settings name the server, the
credentials, the prefix of every key, and how long to wait: for a connection to be made, for one to
become free, and for a command to be answered.

`url` puts server, credentials and database into one text.
-/
import Admission.Duration.Json
import Admission.Text.Digits

namespace Admission.Remote

/-- Where a shared store is, and how to talk to it. -/
structure Address where
  /-- The server, as host and port. -/
  address : String
  /-- The password, if there is one. -/
  password : Option String
  /-- The number of the database. -/
  db : Int
  /-- What stands before every key. -/
  keyPrefix : String
  /-- How many connections to keep. -/
  poolSize : Nat
  /-- How long making a connection may take. -/
  connectionTimeout : Duration
  /-- How long to wait for a connection to become free. -/
  waitTimeout : Duration
  /-- How long a command may take. -/
  commandTimeout : Duration
deriving DecidableEq, Repr

namespace Address

/-- The settings used when none are given. -/
def default : Address where
  address := "localhost:6379"
  password := none
  db := 0
  keyPrefix := "rl:"
  poolSize := 10
  connectionTimeout := .ofSeconds 5
  waitTimeout := .ofSeconds 1
  commandTimeout := .ofSeconds 3

/-- The default settings for a server. -/
def ofServer (address : String) : Address := { default with address := address }

/-! ## URL -/

/-- A server without the schemes in front of it. -/
def dropSchemes : List Char → List Char
  | 'r' :: 'e' :: 'd' :: 'i' :: 's' :: ':' :: '/' :: '/' :: rest => dropSchemes rest
  | cs => cs

/-- A server without the slashes behind it. -/
def dropSlashes (cs : List Char) : List Char := (cs.reverse.dropWhile (· = '/')).reverse

/-- The server alone. -/
def server (a : Address) : String := String.ofList (dropSlashes (dropSchemes a.address.toList))

/-- The password, unless it is empty. -/
def secret? (a : Address) : Option String := a.password.filter (· ≠ "")

/-- The URL: scheme, password, server and database. -/
def url (a : Address) : String :=
  let credentials :=
    match a.secret? with
    | none => ""
    | some password => ":" ++ password ++ "@"
  "redis://" ++ credentials ++ a.server ++ "/" ++ toString a.db

/-! ## JSON -/

/-- Reads settings from JSON; what is missing keeps its default. -/
def ofJson? (t : Json.Tree) : Option Address := do
  let [address, password, db, keyPrefix, poolSize, connection, wait, command] ←
    t.fields? ["address", "password", "db", "key_prefix", "pool_size", "connection_timeout",
      "wait_timeout", "command_timeout"] false | none
  let text := fun (d : String) => Json.Field.withDefault d Json.Tree.text?
  let database := Json.Tree.integer? Text.integerBounds.1 Text.integerBounds.2
  let duration := fun (d : Duration) => Json.Field.withDefault d Duration.ofJson?
  return {
    address := ← text default.address address
    password := ← Json.Field.optional Json.Tree.text? password
    db := ← Json.Field.withDefault default.db database db
    keyPrefix := ← text default.keyPrefix keyPrefix
    poolSize := ← Json.Field.withDefault default.poolSize Json.Tree.count? poolSize
    connectionTimeout := ← duration default.connectionTimeout connection
    waitTimeout := ← duration default.waitTimeout wait
    commandTimeout := ← duration default.commandTimeout command }

end Address

end Admission.Remote

/-
# Admission.Remote.Command — what is said to a shared store

A command is sent as a list of byte strings. Expiries are sent as the milliseconds left, at least
one. The conditional write is a script that the server runs as a whole: it compares the value of the
key with the expected one, or looks that there is none, and only then stores the new value.
-/
import Admission.Store.Entry

namespace Admission.Remote

/-- The conditional write, in the server's scripting language. Its key is the key to write. Its
arguments are whether a value is expected, the expected value, the new value, and the milliseconds
left for it, zero for no expiry. -/
def swapScript : String :=
"
local current = redis.call('GET', KEYS[1])
if ARGV[1] == '1' then
  if current ~= ARGV[2] then return 0 end
elseif current then
  return 0
end
if tonumber(ARGV[4]) > 0 then
  redis.call('SET', KEYS[1], ARGV[3], 'PX', ARGV[4])
else
  redis.call('SET', KEYS[1], ARGV[3])
end
return 1
"

/-- A command to a shared store. -/
inductive Command where
  /-- The value of a key. -/
  | get (key : String)
  /-- Stores a value for good. -/
  | set (key : String) (value : ByteArray)
  /-- Stores a value for some milliseconds. -/
  | setFor (key : String) (ms : Nat) (value : ByteArray)
  /-- Removes a key. -/
  | delete (key : String)
  /-- Runs the conditional write; zero milliseconds stand for no expiry. -/
  | swap (key : String) (expected : Option ByteArray) (value : ByteArray) (ms : Nat)
deriving DecidableEq

namespace Command

/-- Stores an entry at an instant. -/
def ofSet (key : String) (entry : Entry) (now : Nat) : Command :=
  match entry.timeToLive now with
  | none => .set key entry.value
  | some ms => .setFor key (max ms 1) entry.value

/-- Stores an entry at an instant if the value there is the expected one. -/
def ofSwap (key : String) (expected : Option ByteArray) (entry : Entry) (now : Nat) : Command :=
  let ms :=
    match entry.timeToLive now with
    | none => 0
    | some ms => max ms 1
  .swap key expected entry.value ms

/-- The byte strings that are sent. -/
def arguments : Command → List ByteArray
  | .get key => ["GET".toUTF8, key.toUTF8]
  | .set key value => ["SET".toUTF8, key.toUTF8, value]
  | .setFor key ms value => ["PSETEX".toUTF8, key.toUTF8, (toString ms).toUTF8, value]
  | .delete key => ["DEL".toUTF8, key.toUTF8]
  | .swap key expected value ms =>
    ["EVAL".toUTF8, swapScript.toUTF8, "1".toUTF8, key.toUTF8,
      (if expected.isSome then "1" else "0").toUTF8, expected.getD ByteArray.empty, value,
      (toString ms).toUTF8]

end Command

end Admission.Remote

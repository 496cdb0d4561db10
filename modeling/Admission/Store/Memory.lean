/-
# Admission.Store.Memory — a store inside the process

Entries live in a table. A lapsed entry is invisible from the instant it lapses on, whether or not it
is still in the table; *sweeping* only gives its room back. Lapsed entries are swept

* on demand;
* every so many requests, counted over `get`, `set` and `swap`: the request that finds the count at a
  multiple of the threshold sweeps first, except for the very first request;
* in the background, at a steady rhythm (`Sweeper`), until the store is closed.

Besides, reading a lapsed entry removes it.
-/
import Admission.Clock
import Admission.Duration.Scaled
import Admission.Store.Entry
import Admission.Store.Sweeper
import Admission.Store.Table

namespace Admission

/-- When lapsed entries are swept. -/
inductive SweepPolicy where
  /-- In the background, at an interval. -/
  | every (interval : Duration)
  /-- Every so many requests. -/
  | requests (count : Nat)
  /-- On demand only. -/
  | manual
deriving DecidableEq, Repr

namespace SweepPolicy

/-- The policy used when none is given: every minute. -/
def default : SweepPolicy := .every (.ofSeconds 60)

/-- Sweeping every `count` requests, at least every single one. -/
def onRequests (count : Nat) : SweepPolicy := .requests (max count 1)

/-- The policy in words. -/
def describe : SweepPolicy → String
  | .every interval => "Duration(" ++ interval.scaled ++ ")"
  | .requests count => "Requests(" ++ toString count ++ ")"
  | .manual => "Manual"

end SweepPolicy

/-- A store inside the process. -/
structure Memory where
  /-- The entries, lapsed ones included. -/
  table : Table Entry
  /-- When lapsed entries are swept. -/
  policy : SweepPolicy
  /-- The requests counted so far, on a 64-bit counter. -/
  counted : Nat
  /-- The background sweep, if one is running. -/
  sweeper : Option Sweeper

namespace Memory

/-- An empty store without a background sweep. -/
def bare (policy : SweepPolicy) : Memory := ⟨.empty, policy, 0, none⟩

/-- An empty store that was made at `uptime`, with a background sweep if the policy asks for one. -/
def make (ticker : Ticker) (policy : SweepPolicy) (uptime : Nat) : Memory :=
  match policy with
  | .every interval => { bare policy with sweeper := some (.start ticker interval uptime) }
  | _ => bare policy

/-! ## Sweeping

A sweep first picks the keys whose entries have lapsed, and then removes them one by one. Others may have
written in between, so each entry is looked at once more before it is removed. -/

/-- The keys whose entries have lapsed. -/
def lapsedKeys (m : Memory) (now : Nat) : List String :=
  (m.table.rows.filter (·.2.expired now)).map Prod.fst

/-- Looks at the entry of a key, and removes it if it has lapsed: whether it was removed, and the store. -/
def discard (now : Nat) (m : Memory) (key : String) : Bool × Memory :=
  if (m.table.get? key).any (·.expired now) then (true, { m with table := m.table.erase key })
  else (false, m)

/-- Discards a key, and counts it if its entry was removed. -/
def weed (now : Nat) (swept : Nat × Memory) (key : String) : Nat × Memory :=
  let (removed, m) := swept.2.discard now key
  (if removed then swept.1 + 1 else swept.1, m)

/-- Sweeps: how many entries were removed, and the store without them. -/
def collect (m : Memory) (now : Nat) : Nat × Memory := (m.lapsedKeys now).foldl (weed now) (0, m)

/-- The store after a sweep. -/
def sweep (m : Memory) (now : Nat) : Memory := (m.collect now).2

/-- Whether the next counted request sweeps. -/
def sweepsNext (m : Memory) : Bool :=
  match m.policy with
  | .requests count => 0 < m.counted && m.counted % max count 1 = 0
  | _ => false

/-- Counts a request, and sweeps if it is its turn. -/
def count (m : Memory) (now : Nat) : Memory :=
  let swept := if m.sweepsNext then m.sweep now else m
  match m.policy with
  | .requests _ => { swept with counted := (m.counted + 1) % (Word.last + 1) }
  | _ => swept

/-! ## Operations -/

/-- The value under a key that has not lapsed. A lapsed entry is removed. -/
def get (m : Memory) (now : Nat) (key : String) : Option ByteArray × Memory :=
  let m := m.count now
  match m.table.get? key with
  | none => (none, m)
  | some e =>
    if e.expired now then (none, { m with table := m.table.erase key })
    else (some e.value, m)

/-- Stores an entry under a key. -/
def set (m : Memory) (now : Nat) (key : String) (entry : Entry) : Memory :=
  let m := m.count now
  { m with table := m.table.insert key entry }

/-- Removes the entry of a key. -/
def delete (m : Memory) (key : String) : Memory := { m with table := m.table.erase key }

/-- Stores an entry under a key if the value that has not lapsed is the expected one: whether it was
stored, and the store. -/
def swap (m : Memory) (now : Nat) (key : String) (expected : Option ByteArray) (entry : Entry) :
    Bool × Memory :=
  let m := m.count now
  if (m.table.get? key).bind (·.live? now) = expected then
    (true, { m with table := m.table.insert key entry })
  else (false, m)

/-- Removes every entry. -/
def clear (m : Memory) : Memory := { m with table := .empty }

/-- Stops the background sweep. Everything else goes on working. -/
def close (m : Memory) : Memory := { m with sweeper := none }

/-- The number of entries, lapsed ones included. -/
def size (m : Memory) : Nat := m.table.size

/-- The store in words. -/
def describe (m : Memory) : String :=
  "MemoryStorage \x7b entries: " ++ toString m.size ++ ", gc_config: GcConfig \x7b interval: " ++
    m.policy.describe ++ " \x7d \x7d"

/-! ## The passing of time -/

/-- The background sweep wakes if it is time. -/
def wake (m : Memory) (clock : Clock) : Memory :=
  match m.sweeper with
  | none => m
  | some s =>
    if s.due clock.uptime then
      { m.sweep clock.reading with sweeper := some (s.woken clock.uptime) }
    else m

/-- Time passes in one step, at whose end the background sweep may wake. -/
def elapse (m : Memory) (clock : Clock) (ms : Nat) : Memory × Clock :=
  let clock := clock.elapse ms
  (m.wake clock, clock)

/-- Time passes continuously, so that the background sweep wakes in time at each of its deadlines,
and the wall clock does not start over. Only the last waking needs a step of its own: what an earlier
one would remove has lapsed at the last one too. -/
def glide (m : Memory) (clock : Clock) (ms : Nat) : Memory × Clock :=
  match m.sweeper with
  | none => m.elapse clock ms
  | some s =>
    let target := clock.uptime + ms
    if s.due target then
      let last := s.beforeLast target
      let lead := last.waking - clock.uptime
      let (m, clock) := { m with sweeper := some last }.elapse clock lead
      m.elapse clock (ms - lead)
    else m.elapse clock ms

/-- Time passes continuously. When the wall clock has read the last instant it starts over, and what
had lapsed has not lapsed any more; so the time up to that instant is a stretch of its own. Within
`Word.last` milliseconds the clock starts over once at most. -/
def advance (m : Memory) (clock : Clock) (ms : Nat) : Memory × Clock :=
  let before := Word.last - clock.reading
  if ms ≤ before then m.glide clock ms
  else
    let (m, clock) := m.glide clock before
    m.glide clock (ms - before)

end Memory

end Admission

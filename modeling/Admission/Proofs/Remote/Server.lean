/-
# Admission.Proofs.Remote.Server — a server that does what is documented

A server is somebody else's program: nothing is known of it but how it answers. This module says what a
client relies on (`Server.Documented`). The server reads and stores values under byte strings, lets
them lapse when their time is over, and runs a script as it reads, with nothing in between; whatever a
command is about, nothing else changes (`Server.Concerns`). From that it follows what the commands of a
client do, the conditional write among them (`Server.Documented.effect`).

There are such servers. One that keeps its entries, lapsed ones included, and reads the text of each
script that it is sent does what is documented (`Keyspace.documented`).
-/
import Admission.Proofs.Remote.Script
import Admission.Remote.Client
import Mathlib.Data.Set.Insert
import Mathlib.Logic.Function.Basic

namespace Admission.Remote

/-- A server with the state `σ`, and what can be found out about that. -/
structure Server (σ : Type) where
  /-- Runs a command, which is a list of byte strings, at an instant. -/
  execute : Nat → List ByteArray → σ → Answer × σ
  /-- The value that a key has at an instant, if nothing is done until then. -/
  live : σ → Nat → ByteArray → Option ByteArray
  /-- The keys that commands were about so far. -/
  touched : σ → Set ByteArray

/-- The answer to a question for a value. -/
def Answer.found : Option ByteArray → Answer
  | some value => .bulk value
  | none => .nil

namespace Server

variable {σ : Type}

/-! ## Scripts -/

/-- What a script gets for an answer. -/
def received : Answer → Except String Script.Value
  | .bulk value => .ok (.text value)
  | .nil => .ok (.boolean false)
  | .integer n => .ok (.number n)
  | .status word => .ok (.status word)
  | .refusal reason => .error reason
  | .silence => .error ""
  | .hungUp => .error ""

/-- The answer that a script comes to. -/
def returned : Option Script.Value → Answer
  | some (.text value) => .bulk value
  | some (.number n) => .integer n
  | some (.status word) => .status word
  | some (.boolean true) => .integer 1
  | some (.boolean false) => .nil
  | some .nil => .nil
  | none => .nil

/-- A command in a script. -/
def call (execute : Nat → List ByteArray → σ → Answer × σ) (now : Nat) (words : List ByteArray) :
    Script.Run σ Script.Value := fun s =>
  let (answer, s) := execute now words s
  (received answer, s)

/-- Runs a script from beginning to end, with nothing in between. -/
def runBlock (execute : Nat → List ByteArray → σ → Answer × σ) (now : Nat) (block : Script.Block)
    (keys arguments : List ByteArray) (s : σ) : Answer × σ :=
  match block.run (call execute now) ⟨keys, arguments, []⟩ s with
  | (.ok value, s) => (returned value, s)
  | (.error reason, s) => (.refusal reason, s)

section

variable {execute : Nat → List ByteArray → σ → Answer × σ} {now ms : Nat} {key value : ByteArray}
  {current expected : Option ByteArray} {s s' s'' : σ}

/-- What the conditional write answers and leaves, given what its two commands do. -/
theorem runBlock_swap (read : execute now ["GET".toUTF8, key] s = (.found current, s'))
    (stored : execute now (Script.storeWords key value ms) s' = (.status "OK", s'')) :
    runBlock execute now Script.swapBlock [key] (Script.swapArguments expected value ms) s =
      if current = expected then (.integer 1, s'') else (.integer 0, s') := by
  have read : call execute now ["GET".toUTF8, key] s = (.ok (Script.found current), s') := by
    rw [call, read]
    cases current <;> rfl
  have stored : call execute now (Script.storeWords key value ms) s' = (.ok (.status "OK"), s'') := by
    rw [call, stored]
    rfl
  rw [runBlock, Script.run_swapBlock expected read stored]
  by_cases same : current = expected
  · rw [if_pos same, if_pos same]
    rfl
  · rw [if_neg same, if_neg same]
    rfl

end

/-! ## What is documented -/

/-- Something was done at an instant that was about one key, and that left values there for the time
after it. -/
structure Concerns (server : Server σ) (now : Nat) (key : ByteArray) (left : Nat → Option ByteArray)
    (s s' : σ) : Prop where
  /-- Nothing else has changed. -/
  live : ∀ t, now ≤ t → server.live s' t = Function.update (server.live s t) key (left t)
  /-- No other key was touched. -/
  touched : ∀ other ∈ server.touched s', other = key ∨ other ∈ server.touched s

/-- A command gets an answer, and is about one key. -/
def Does (server : Server σ) (now : Nat) (words : List ByteArray) (s : σ) (key : ByteArray)
    (answer : Answer) (left : Nat → Option ByteArray) : Prop :=
  ∃ s', server.execute now words s = (answer, s') ∧ server.Concerns now key left s s'

/-- A server does what is documented of the commands that clients and their script send. -/
structure Documented (server : Server σ) : Prop where
  /-- The value of a key is read. -/
  get : ∀ now key s, server.Does now ["GET".toUTF8, key] s key (.found (server.live s now key))
    fun t => server.live s t key
  /-- A value is stored for good. -/
  set : ∀ now key value s, server.Does now ["SET".toUTF8, key, value] s key (.status "OK")
    (Entry.live? ⟨value, none⟩)
  /-- A value is stored for some milliseconds, and is gone when these are over. -/
  setFor : ∀ now key value s, ∀ ms > 0,
    server.Does now ["PSETEX".toUTF8, key, (toString ms).toUTF8, value] s key (.status "OK")
      (Entry.live? ⟨value, some (now + ms)⟩)
  /-- The same, said in another way. -/
  setPx : ∀ now key value s, ∀ ms > 0,
    server.Does now ["SET".toUTF8, key, value, "PX".toUTF8, (toString ms).toUTF8] s key (.status "OK")
      (Entry.live? ⟨value, some (now + ms)⟩)
  /-- A key is removed. -/
  delete : ∀ now key s, server.Does now ["DEL".toUTF8, key] s key
    (.integer (if (server.live s now key).isSome then 1 else 0)) fun _ => none
  /-- The conditional write is run as it reads. -/
  script : ∀ now key expected value ms s block, Script.read? swapScript.toList = some block →
    server.execute now ("EVAL".toUTF8 :: swapScript.toUTF8 :: "1".toUTF8 :: key ::
      Script.swapArguments expected value ms) s =
      runBlock server.execute now block [key] (Script.swapArguments expected value ms) s

variable {server : Server σ} {s s' s'' : σ} {key : ByteArray} {now : Nat}

/-- One thing after another about the same key. -/
theorem Concerns.trans {left left' : Nat → Option ByteArray}
    (h : server.Concerns now key left s s') (h' : server.Concerns now key left' s' s'') :
    server.Concerns now key left' s s'' := by
  refine ⟨fun t ht => ?_, fun other hother => ?_⟩
  · rw [h'.live t ht, h.live t ht, Function.update_idem]
  · rcases h'.touched other hother with here | before
    · exact .inl here
    · exact h.touched other before

/-- What does nothing is about any key. -/
theorem Concerns.refl (server : Server σ) (now : Nat) (key : ByteArray) (s : σ) :
    server.Concerns now key (fun t => server.live s t key) s s :=
  ⟨fun t _ => (Function.update_eq_self key (server.live s t)).symm, fun _ => .inr⟩

end Server

/-! ## What a command means -/

namespace Command

/-- The key that a command is about. -/
def key : Command → String
  | get key => key
  | set key _ => key
  | setFor key _ _ => key
  | delete key => key
  | swap key _ _ _ => key

/-- A value that is stored for some time is stored for one millisecond at least. -/
def Timed : Command → Prop
  | setFor _ ms _ => 0 < ms
  | _ => True

/-- What comes of a command, and of the values of its key from now on. -/
def effect (now : Nat) (values : Nat → Option ByteArray) : Command → Answer × (Nat → Option ByteArray)
  | get _ => (.found (values now), values)
  | set _ value => (.status "OK", Entry.live? ⟨value, none⟩)
  | setFor _ ms value => (.status "OK", Entry.live? ⟨value, some (now + ms)⟩)
  | delete _ => (.integer (if (values now).isSome then 1 else 0), fun _ => none)
  | swap _ expected value ms =>
    if values now = expected then
      (.integer 1, Entry.live? ⟨value, if ms = 0 then none else some (now + ms)⟩)
    else (.integer 0, values)

end Command

namespace Server.Documented

variable {σ : Type} {server : Server σ}

/-- The command with which the conditional write stores a value. -/
theorem storeWords (documented : server.Documented) (now : Nat) (key value : ByteArray) (ms : Nat)
    (s : σ) : server.Does now (Script.storeWords key value ms) s key (.status "OK")
      (Entry.live? ⟨value, if ms = 0 then none else some (now + ms)⟩) := by
  rcases Nat.eq_zero_or_pos ms with rfl | positive
  · exact documented.set now key value s
  · rw [Script.storeWords, if_neg (Nat.ne_of_gt positive), if_neg (Nat.ne_of_gt positive)]
    exact documented.setPx now key value s ms positive

/-- **A command** of a client means what it is documented to mean. -/
theorem effect (documented : server.Documented) (now : Nat) {c : Command} (timed : c.Timed) (s : σ) :
    server.Does now c.arguments s c.key.toUTF8
      (c.effect now fun t => server.live s t c.key.toUTF8).1
      (c.effect now fun t => server.live s t c.key.toUTF8).2 := by
  cases c with
  | get key => exact documented.get now key.toUTF8 s
  | set key value => exact documented.set now key.toUTF8 value s
  | setFor key ms value => exact documented.setFor now key.toUTF8 value s ms timed
  | delete key => exact documented.delete now key.toUTF8 s
  | swap key expected value ms =>
    obtain ⟨s', read, afterRead⟩ := documented.get now key.toUTF8 s
    obtain ⟨s'', stored, afterStore⟩ := documented.storeWords now key.toUTF8 value ms s'
    have ran := (documented.script now key.toUTF8 expected value ms s _ Script.read?_swapScript).trans
      (runBlock_swap read stored)
    by_cases same : server.live s now key.toUTF8 = expected
    · rw [if_pos same] at ran
      rw [Command.effect, Command.key, if_pos same]
      exact ⟨s'', ran, afterRead.trans afterStore⟩
    · rw [if_neg same] at ran
      rw [Command.effect, Command.key, if_neg same]
      exact ⟨s', ran, afterRead⟩

end Server.Documented

/-! ## A server that keeps entries -/

/-- The entries under the keys, lapsed ones included, and the keys that commands were about. -/
structure Keyspace where
  /-- What is kept under a key. -/
  held : ByteArray → Option Entry
  /-- The keys that commands were about so far. -/
  touched : Set ByteArray

namespace Keyspace

/-- Nothing is kept, and nothing has been done. -/
def empty : Keyspace := ⟨fun _ => none, ∅⟩

/-- The value under a key that has not lapsed. -/
def live (s : Keyspace) (now : Nat) (key : ByteArray) : Option ByteArray :=
  (s.held key).bind (·.live? now)

/-- A command about a key leaves an entry there, or none. -/
def leave (s : Keyspace) (key : ByteArray) (e : Option Entry) : Keyspace :=
  ⟨Function.update s.held key e, insert key s.touched⟩

/-- Answers with the value of a key. -/
def get (now : Nat) (key : ByteArray) (s : Keyspace) : Answer × Keyspace :=
  (.found (s.live now key), s.leave key (s.held key))

/-- Stores a value for good. -/
def set (key value : ByteArray) (s : Keyspace) : Answer × Keyspace :=
  (.status "OK", s.leave key (some ⟨value, none⟩))

/-- Stores a value for the milliseconds that a word writes, of which there must be some. -/
def setFor (now : Nat) (key ms value : ByteArray) (s : Keyspace) : Answer × Keyspace :=
  match Script.decimal? ms with
  | none => (.refusal "ERR value is not an integer or out of range", s)
  | some 0 => (.refusal "ERR invalid expire time", s)
  | some ms => (.status "OK", s.leave key (some ⟨value, some (now + ms)⟩))

/-- Removes a key, and answers with the number of values that were removed. -/
def delete (now : Nat) (key : ByteArray) (s : Keyspace) : Answer × Keyspace :=
  (.integer (if (s.live now key).isSome then 1 else 0), s.leave key none)

/-- Runs a command other than a script. -/
def command (now : Nat) (words : List ByteArray) (s : Keyspace) : Answer × Keyspace :=
  match words with
  | [name, key] =>
    if name = "GET".toUTF8 then s.get now key
    else if name = "DEL".toUTF8 then s.delete now key
    else unknown
  | [name, key, value] => if name = "SET".toUTF8 then s.set key value else unknown
  | [name, key, ms, value] => if name = "PSETEX".toUTF8 then s.setFor now key ms value else unknown
  | [name, key, value, unit, ms] =>
    if name = "SET".toUTF8 ∧ unit = "PX".toUTF8 then s.setFor now key ms value else unknown
  | _ => unknown
where
  /-- Nothing is done. -/
  unknown : Answer × Keyspace := (.refusal "ERR unknown command", s)

/-- Reads a script and runs it. The words after its text are the number of its keys, its keys and its
arguments. A script cannot run scripts. -/
def script (now : Nat) (text count : ByteArray) (rest : List ByteArray) (s : Keyspace) :
    Answer × Keyspace :=
  match (String.fromUTF8? text).bind fun text => Script.read? text.toList, Script.decimal? count with
  | some block, some count => Server.runBlock command now block (rest.take count) (rest.drop count) s
  | _, _ => (.refusal "ERR cannot read script", s)

/-- Runs a command. -/
def execute (now : Nat) (words : List ByteArray) (s : Keyspace) : Answer × Keyspace :=
  match words with
  | name :: text :: count :: rest =>
    if name = "EVAL".toUTF8 then s.script now text count rest else s.command now words
  | _ => s.command now words

/-- The server. -/
def server : Server Keyspace := ⟨execute, live, touched⟩

theorem concerns_leave (s : Keyspace) (now : Nat) (key : ByteArray) (e : Option Entry) :
    server.Concerns now key (fun t => e.bind (·.live? t)) s (s.leave key e) := by
  refine ⟨fun t _ => funext fun other => ?_, fun _ => Set.mem_insert_iff.mp⟩
  show (Function.update s.held key e other).bind (·.live? t) = _
  rw [Function.update_apply, Function.update_apply]
  split <;> rfl

/-- A value is stored for some milliseconds. -/
theorem setFor_toString (now : Nat) (key value : ByteArray) {ms : Nat} (positive : ms > 0)
    (s : Keyspace) : s.setFor now key (toString ms).toUTF8 value =
      (.status "OK", s.leave key (some ⟨value, some (now + ms)⟩)) := by
  obtain ⟨n, rfl⟩ := Nat.exists_eq_succ_of_ne_zero (Nat.ne_of_gt positive)
  rw [setFor, Script.decimal?_toString]
  rfl

theorem command_storeWords (now : Nat) (key value : ByteArray) (ms : Nat) (s : Keyspace) :
    s.command now (Script.storeWords key value ms) =
      (.status "OK", s.leave key (some ⟨value, if ms = 0 then none else some (now + ms)⟩)) := by
  rcases Nat.eq_zero_or_pos ms with rfl | positive
  · rfl
  · rw [Script.storeWords, if_neg (Nat.ne_of_gt positive), if_neg (Nat.ne_of_gt positive),
      ← setFor_toString now key value positive]
    rfl

/-- What the conditional write stores a value with is not a script. -/
theorem execute_storeWords (now : Nat) (key value : ByteArray) (ms : Nat) (s : Keyspace) :
    s.execute now (Script.storeWords key value ms) =
      s.command now (Script.storeWords key value ms) := by
  rw [Script.storeWords]
  split <;> rfl

/-- The conditional write is run as it reads. -/
theorem execute_script (now : Nat) (key : ByteArray) (arguments : List ByteArray) (s : Keyspace) :
    s.execute now ("EVAL".toUTF8 :: swapScript.toUTF8 :: "1".toUTF8 :: key :: arguments) =
      Server.runBlock command now Script.swapBlock [key] arguments s := by
  have one : "1".toUTF8 = (toString 1).toUTF8 := rfl
  rw [execute, if_pos rfl, one, script, Script.fromUTF8?_toUTF8, Option.bind_some,
    Script.read?_swapScript, Script.decimal?_toString]
  rfl

/-- **The server that keeps entries** does what is documented. -/
theorem documented : server.Documented where
  get now key s := ⟨_, rfl, s.concerns_leave now key (s.held key)⟩
  set now key value s := ⟨_, rfl, s.concerns_leave now key (some ⟨value, none⟩)⟩
  setFor now key value s ms positive := ⟨_, setFor_toString now key value positive s,
    s.concerns_leave now key (some ⟨value, some (now + ms)⟩)⟩
  setPx now key value s ms positive := ⟨_, setFor_toString now key value positive s,
    s.concerns_leave now key (some ⟨value, some (now + ms)⟩)⟩
  delete now key s := ⟨_, rfl, s.concerns_leave now key none⟩
  script now key expected value ms s block reads := by
    obtain rfl := Option.some.inj (reads.symm.trans Script.read?_swapScript)
    have read : s.command now ["GET".toUTF8, key] =
        (.found (s.live now key), s.leave key (s.held key)) := rfl
    have stored := command_storeWords now key value ms (s.leave key (s.held key))
    -- a script runs commands other than scripts, but those are all that this one runs
    have read' : s.execute now ["GET".toUTF8, key] = _ := read
    have stored' := (execute_storeWords now key value ms (s.leave key (s.held key))).trans stored
    have itself : server.execute = execute := rfl
    rw [itself, execute_script, Server.runBlock_swap read stored, Server.runBlock_swap read' stored']

end Keyspace

end Admission.Remote

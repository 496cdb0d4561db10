/-
# Admission.Proofs.Remote.Agreement — a store on a server is the store inside the process

A client of a server and the store inside the process have little in common: entries travel as commands,
an expiry as the milliseconds that are left, "no entry" and an empty value as the same argument, and
the conditional write is a script. Still both do what a plain store does. The server *mirrors* a plain
store if it has, under the full key of each key, the value of that key at every instant from now on
(`Client.Mirrors`). If the server does what is documented, every demand keeps it so
(`Client.perform_mirrors`), as long as an entry that is stored has not lapsed by then. As the store
inside the process holds what the plain store holds, callers cannot tell the two apart
(`Client.agrees_with_memory`).
-/
import Admission.Proofs.Remote.Server
import Admission.Proofs.Store.Plain

namespace Admission

namespace Demand

/-- An entry to be stored has not lapsed yet. -/
def Lasting (now : Nat) : Demand → Prop
  | set _ entry => ¬ entry.expired now
  | swap _ _ entry => ¬ entry.expired now
  | _ => True

instance (now : Nat) : DecidablePred (Lasting now) := fun demand =>
  match demand with
  | get _ => isTrue trivial
  | set _ entry => inferInstanceAs (Decidable (¬ entry.expired now))
  | delete _ => isTrue trivial
  | swap _ _ entry => inferInstanceAs (Decidable (¬ entry.expired now))

end Demand

namespace Remote

/-- The way to a server that is at hand: there is always a connection, every command is answered, and the
server's clock is the client's. -/
def Server.link {σ : Type} (server : Server σ) : Link (σ × Moment) where
  now s := s.2.now
  cancelled s := s.2.cancelled
  free _ := true
  send c s :=
    let (answer, rest) := server.execute s.2.now c.arguments s.1
    (answer, rest, s.2)

namespace Client

variable {σ : Type} {server : Server σ} {c : Client} {s s' : σ} {now : Nat}

/-- A client does what is asked of it at a moment. -/
def perform (server : Server σ) (c : Client) (s : σ) (moment : Moment) (demand : Demand) :
    Except Failure Reply × σ :=
  let (reply, _, s, _) := (backend server.link).perform (c, s, moment) demand
  (reply, s)

/-- The command that a demand is sent as. -/
def command (c : Client) (now : Nat) : Demand → Command
  | .get key => .get (c.fullKey key)
  | .set key entry => .ofSet (c.fullKey key) entry now
  | .delete key => .delete (c.fullKey key)
  | .swap key expected entry => .ofSwap (c.fullKey key) expected entry now

/-- What the answer to the command of a demand means. -/
def meaning (answer : Answer) : Demand → Except Failure Reply
  | .get _ => answer.value.map .value
  | .set _ _ => answer.written.map fun _ => .done
  | .delete _ => answer.written.map fun _ => .done
  | .swap _ _ _ => answer.swapped.map .swapped

theorem perform_cancelled (demand : Demand) :
    c.perform server s ⟨now, true⟩ demand = (.error .cancelled, s) := by
  cases demand <;> rfl

/-- A write that is answered means what the answer means. -/
theorem write_answered {α : Type} (isOpen : c.isOpen) (command : σ × Moment → Command)
    {answer : Answer}
    (sent : server.execute now (command (s, ⟨now, false⟩)).arguments s = (answer, s'))
    (spoken : answer ≠ .silence) (interpret : Answer → Except Failure α) :
    write server.link c command interpret (s, ⟨now, false⟩) =
      (interpret answer, s', ⟨now, false⟩) := by
  simp only [write, withConnection, Server.link, isOpen, sent, spoken, Bool.not_true,
    Bool.false_eq_true, if_false]

/-- So does a read, when nobody gives up meanwhile. -/
theorem read_answered {α : Type} (isOpen : c.isOpen) (command : σ × Moment → Command)
    {answer : Answer}
    (sent : server.execute now (command (s, ⟨now, false⟩)).arguments s = (answer, s'))
    (spoken : answer ≠ .silence) (interpret : Answer → Except Failure α) :
    read server.link c command interpret (s, ⟨now, false⟩) =
      (interpret answer, s', ⟨now, false⟩) := by
  simp only [read, withConnection, Server.link, isOpen, sent, spoken, Bool.not_true,
    Bool.false_eq_true, if_false]

/-- A demand on an open client is one command. -/
theorem perform_sent (isOpen : c.isOpen) {demand : Demand} {answer : Answer}
    (sent : server.execute now (c.command now demand).arguments s = (answer, s'))
    (spoken : answer ≠ .silence) :
    c.perform server s ⟨now, false⟩ demand = (meaning answer demand, s') := by
  cases demand with
  | get key =>
    have answered : c.get server.link key (s, ⟨now, false⟩) = _ :=
      read_answered isOpen (fun _ => .get (c.fullKey key)) sent spoken Answer.value
    simp only [perform, Backend.perform, backend, answered, meaning]
  | set key entry =>
    have answered : c.set server.link key entry (s, ⟨now, false⟩) = _ :=
      write_answered isOpen (fun s => .ofSet (c.fullKey key) entry s.2.now) sent spoken Answer.written
    simp only [perform, Backend.perform, backend, answered, meaning]
  | delete key =>
    have answered : c.delete server.link key (s, ⟨now, false⟩) = _ :=
      write_answered isOpen (fun _ => .delete (c.fullKey key)) sent spoken Answer.written
    simp only [perform, Backend.perform, backend, answered, meaning]
  | swap key expected entry =>
    have answered : c.swap server.link key expected entry (s, ⟨now, false⟩) = _ :=
      write_answered isOpen (fun s => .ofSwap (c.fullKey key) expected entry s.2.now) sent spoken
        Answer.swapped
    simp only [perform, Backend.perform, backend, answered, meaning]

/-! ## What the commands of a client mean -/

theorem command_key (demand : Demand) : (c.command now demand).key = c.fullKey demand.key := by
  cases demand with
  | get key => rfl
  | set key entry =>
    rw [command, Command.ofSet]
    cases entry.timeToLive now <;> rfl
  | delete key => rfl
  | swap key expected entry => rfl

/-- A client sends no time of zero milliseconds. -/
theorem command_timed (demand : Demand) : (c.command now demand).Timed := by
  cases demand with
  | get key => trivial
  | set key entry =>
    rw [command, Command.ofSet]
    cases entry.timeToLive now with
    | none => trivial
    | some ms => exact Nat.le_max_right ms 1
  | delete key => trivial
  | swap key expected entry => trivial

/-- The milliseconds that are left of an entry that has not lapsed: there are some, and they end when
the entry lapses. -/
theorem milliseconds_left {value : ByteArray} {t : Nat} (lasting : ¬ Entry.expired ⟨value, some t⟩ now) :
    max (t - now) 1 ≠ 0 ∧ now + max (t - now) 1 = t := by
  have later : ¬ t ≤ now := fun lapsed => lasting (decide_eq_true lapsed)
  omega

/-- Storing an entry that has not lapsed leaves that entry. -/
theorem effect_ofSet (key : String) {entry : Entry} (lasting : ¬ entry.expired now)
    (values : Nat → Option ByteArray) :
    (Command.ofSet key entry now).effect now values = (.status "OK", entry.live?) := by
  obtain ⟨value, expiresAt⟩ := entry
  cases expiresAt with
  | none => rfl
  | some t => simp only [Command.ofSet, Entry.timeToLive, Option.map_some, Command.effect,
      (milliseconds_left lasting).2]

/-- The conditional write of an entry that has not lapsed leaves that entry if it takes place. -/
theorem effect_ofSwap (key : String) (expected : Option ByteArray) {entry : Entry}
    (lasting : ¬ entry.expired now) (values : Nat → Option ByteArray) :
    (Command.ofSwap key expected entry now).effect now values =
      if values now = expected then (.integer 1, entry.live?) else (.integer 0, values) := by
  obtain ⟨value, expiresAt⟩ := entry
  cases expiresAt with
  | none => rfl
  | some t =>
    obtain ⟨positive, ends⟩ := milliseconds_left lasting
    simp only [Command.ofSwap, Entry.timeToLive, Option.map_some, Command.effect, if_neg positive, ends]

/-- Every command is answered. -/
theorem effect_spoken (command : Command) (now : Nat) (values : Nat → Option ByteArray) :
    (command.effect now values).1 ≠ .silence := by
  cases command with
  | get key => cases h : values now <;> simp [Command.effect, Answer.found, h]
  | set key value => simp [Command.effect]
  | setFor key ms value => simp [Command.effect]
  | delete key => simp [Command.effect]
  | swap key expected value ms => by_cases h : values now = expected <;> simp [Command.effect, h]

/-- What a plain store has under its keys after an entry was put there. -/
theorem live_update (p : Plain) (key : String) (e : Option Entry) (t : Nat) :
    Plain.live (Function.update p key e) t = Function.update (p.live t) key (e.bind (·.live? t)) := by
  funext other
  rw [Plain.live, Function.update_apply, Function.update_apply]
  split <;> rfl

/-- **A demand as a command** is answered as a plain store answers the demand, and leaves the same values
under its key. -/
theorem effect_grant (c : Client) (p : Plain) {demand : Demand} (lasting : demand.Lasting now)
    {values left : Nat → Option ByteArray} (mirrored : ∀ t, now ≤ t → values t = p.live t demand.key)
    {answer : Answer} (effect : (c.command now demand).effect now values = (answer, left)) :
    meaning answer demand = .ok (p.grant now demand).1 ∧
      ∀ t, now ≤ t → (p.grant now demand).2.live t = Function.update (p.live t) demand.key (left t) := by
  -- where nothing is stored, the values are those that were there
  have kept : ∀ t, now ≤ t → p.live t = Function.update (p.live t) demand.key (values t) := by
    intro t ht
    rw [mirrored t ht, Function.update_eq_self]
  have current : values now = p.live now demand.key := mirrored now le_rfl
  cases demand with
  | get key =>
    obtain ⟨rfl, rfl⟩ := Prod.mk.inj effect
    rw [current]
    refine ⟨?_, kept⟩
    rw [Demand.key, Plain.grant, meaning]
    cases p.live now key <;> rfl
  | set key entry =>
    rw [command, effect_ofSet _ lasting] at effect
    cases effect
    exact ⟨rfl, fun t _ => live_update p key (some entry) t⟩
  | delete key =>
    cases effect
    exact ⟨rfl, fun t _ => live_update p key none t⟩
  | swap key expected entry =>
    rw [command, effect_ofSwap _ _ lasting, current] at effect
    by_cases same : p.live now key = expected
    · rw [Demand.key, if_pos same] at effect
      cases effect
      rw [Plain.grant, if_pos same]
      exact ⟨rfl, fun t _ => live_update p key (some entry) t⟩
    · rw [Demand.key, if_neg same] at effect
      cases effect
      rw [Plain.grant, if_neg same]
      exact ⟨rfl, kept⟩

/-! ## Whole courses -/

/-- The server has the values of a plain store from now on, each under the full key. -/
def Mirrors (server : Server σ) (c : Client) (now : Nat) (s : σ) (p : Plain) : Prop :=
  ∀ t, now ≤ t → ∀ key, server.live s t (c.fullKey key).toUTF8 = p.live t key

theorem Mirrors.later {p : Plain} {later : Nat} (h : c.Mirrors server now s p) (le : now ≤ later) :
    c.Mirrors server later s p := fun t ht => h t (le.trans ht)

/-- Different keys have different full keys. -/
theorem fullKey_bytes_injective (c : Client) :
    Function.Injective fun key => (c.fullKey key).toUTF8 := by
  intro key key' same
  have full : c.fullKey key = c.fullKey key' := String.toByteArray_inj.mp same
  have letters := congrArg String.toList full
  rw [fullKey, fullKey, String.toList_append, String.toList_append, List.append_cancel_left_eq]
    at letters
  exact String.toList_inj.mp letters

/-- What is about one key changes the mirror image of that key. -/
theorem Mirrors.concerns {p p' : Plain} (h : c.Mirrors server now s p) {key : String}
    {left : Nat → Option ByteArray}
    (concerns : server.Concerns now (c.fullKey key).toUTF8 left s s')
    (image : ∀ t, now ≤ t → p'.live t = Function.update (p.live t) key (left t)) :
    c.Mirrors server now s' p' := by
  intro t ht other
  rw [concerns.live t ht, image t ht, Function.update_apply, Function.update_apply]
  by_cases here : other = key
  · rw [if_pos here, if_pos (congrArg (fun key => (c.fullKey key).toUTF8) here)]
  · rw [if_neg here, if_neg fun same => here (c.fullKey_bytes_injective same)]
    exact h t ht other

/-- **A demand** is answered as a plain store answers it, the server goes on mirroring that one, and no
key but the one demanded is touched. -/
theorem perform_mirrors (documented : server.Documented) (isOpen : c.isOpen) {p : Plain}
    (moment : Moment) (h : c.Mirrors server moment.now s p) {demand : Demand}
    (lasting : demand.Lasting moment.now) :
    (c.perform server s moment demand).1 = (p.perform moment demand).1 ∧
      c.Mirrors server moment.now (c.perform server s moment demand).2 (p.perform moment demand).2 ∧
      ∃ left, server.Concerns moment.now (c.fullKey demand.key).toUTF8 left s
        (c.perform server s moment demand).2 := by
  obtain ⟨now, cancelled⟩ := moment
  cases cancelled with
  | true =>
    rw [perform_cancelled]
    exact ⟨rfl, h, _, .refl server now _ s⟩
  | false =>
    obtain ⟨s', sent, concerns⟩ := documented.effect now (c.command_timed demand) s
    rw [command_key] at sent concerns
    obtain ⟨answered, granted⟩ := effect_grant c p lasting (fun t ht => h t ht demand.key) rfl
    have mirrors : c.Mirrors server now s' (p.grant now demand).2 := h.concerns concerns granted
    rw [perform_sent isOpen sent (effect_spoken _ now _)]
    exact ⟨answered, mirrors, _, concerns⟩

/-- Over a whole course no key is touched but those demanded. -/
theorem leaves_touched (documented : server.Documented) (isOpen : c.isOpen) {course : Course Demand}
    (ordered : course.Chronological)
    (lasting : ∀ happening ∈ course, happening.2.Lasting happening.1.now) {p : Plain}
    (h : c.Mirrors server now s p) (after : ∀ happening ∈ course, now ≤ happening.1.now)
    {key : ByteArray}
    (elsewhere : ∀ happening ∈ course, key ≠ (c.fullKey happening.2.key).toUTF8) :
    (∀ t, (∀ happening ∈ course, happening.1.now ≤ t) →
        server.live (course.leaves (c.perform server) s) t key = server.live s t key) ∧
      (key ∈ server.touched (course.leaves (c.perform server) s) → key ∈ server.touched s) := by
  induction course generalizing now s p with
  | nil => exact ⟨fun _ _ => rfl, id⟩
  | cons happening rest ih =>
    obtain ⟨moment, demand⟩ := happening
    obtain ⟨later, ordered⟩ := List.pairwise_cons.mp ordered
    obtain ⟨first, lasting⟩ := List.forall_mem_cons.mp lasting
    obtain ⟨le, -⟩ := List.forall_mem_cons.mp after
    obtain ⟨other, elsewhere⟩ := List.forall_mem_cons.mp elsewhere
    obtain ⟨-, mirrors, left, concerns⟩ :=
      perform_mirrors documented isOpen moment (h.later le) first
    obtain ⟨live, touched⟩ := ih ordered lasting mirrors later elsewhere
    refine ⟨fun t ht => ?_, fun still => ?_⟩
    · obtain ⟨here, ht⟩ := List.forall_mem_cons.mp ht
      rw [← Function.update_of_ne other (left t) (server.live s t), ← concerns.live t here]
      exact live t ht
    · exact (concerns.touched key (touched still)).resolve_left other

/-- **A store on a server agrees with the store inside the process**: if the server does what is
documented, a course of demands that begins where both are empty is answered alike, whatever the prefix
of the client and the policy of the store. On the server no key is touched but the full keys of the
demands. -/
theorem agrees_with_memory (documented : server.Documented)
    (vacant : ∀ now key, server.live s now key = none) (isOpen : c.isOpen) {m : Memory}
    (empty : m.table = .empty) {course : Course Demand} (ordered : course.Chronological)
    (lasting : ∀ happening ∈ course, happening.2.Lasting happening.1.now) :
    course.replies (c.perform server) s = course.replies Memory.perform m ∧
      ∀ key, (∀ happening ∈ course, key ≠ (c.fullKey happening.2.key).toUTF8) →
        (∀ now, (∀ happening ∈ course, happening.1.now ≤ now) →
          server.live (course.leaves (c.perform server) s) now key = none) ∧
        (key ∈ server.touched (course.leaves (c.perform server) s) → key ∈ server.touched s) := by
  have start : c.Mirrors server 0 s fun _ => none := fun t _ key => vacant t _
  have holds : m.Holds 0 fun _ => none := by
    intro t _ key
    rw [Memory.present, empty]
    rfl
  have after : ∀ happening ∈ course, 0 ≤ happening.1.now := fun _ _ => Nat.zero_le _
  refine ⟨?_, fun key elsewhere => ?_⟩
  · -- both do what a plain store does
    refine Course.lockstep (fun moment demand => demand.Lasting moment.now)
      (fun now s m => ∃ p, c.Mirrors server now s p ∧ m.Holds now p) ?_ ordered lasting
      ⟨_, start, holds⟩ after
    rintro now s m moment demand ⟨p, mirrors, holds⟩ le lasting
    obtain ⟨answer, mirrors, -⟩ :=
      perform_mirrors documented isOpen moment (mirrors.later le) lasting
    obtain ⟨answer', holds⟩ := Memory.perform_holds moment (holds.later le) demand
    exact ⟨answer.trans answer'.symm, _, mirrors, holds⟩
  · obtain ⟨live, touched⟩ :=
      leaves_touched documented isOpen ordered lasting start after elsewhere
    exact ⟨fun now ht => (live now ht).trans (vacant now key), touched⟩

/-- An empty value is not the same as no value, on the server as in the process: a write that expects
none is refused where the empty one is, and one that expects the empty one is accepted. At 9 the entry
of that write has lapsed. -/
theorem agrees_with_memory_on_empty_values :
    let client : Client := ⟨"rate:", .ofSeconds 1, true⟩
    let stamp (now : Nat) (demand : Demand) : Moment × Demand := (⟨now, false⟩, demand)
    let course : Course Demand :=
      [stamp 1 (.set "k" (.persistent .empty)), stamp 2 (.swap "k" none (.persistent "a".toUTF8)),
        stamp 4 (.swap "k" (some .empty) (.make "b".toUTF8 (some 9))), stamp 8 (.get "k"),
        stamp 9 (.get "k"), stamp 9 (.delete "k")]
    let m : Memory := .bare (.requests 1)
    Keyspace.server.Documented ∧ (∀ now key, Keyspace.server.live .empty now key = none) ∧
      m.table = .empty ∧ course.Chronological ∧
      (∀ happening ∈ course, happening.2.Lasting happening.1.now) ∧
      course.replies (client.perform Keyspace.server) .empty = course.replies Memory.perform m ∧
      (course.replies Memory.perform m).map Except.toOption =
        [some .done, some (.swapped false), some (.swapped true), some (.value (some "b".toUTF8)),
          some (.value none), some .done] ∧
      "other".toUTF8 ∉ Keyspace.server.touched
        (course.leaves (client.perform Keyspace.server) .empty) := by
  intro client stamp course m
  have ordered : course.Chronological := by
    show List.Pairwise _ _
    decide
  have lasting : ∀ happening ∈ course, happening.2.Lasting happening.1.now := by decide
  have elsewhere : ∀ happening ∈ course, "other".toUTF8 ≠ (client.fullKey happening.2.key).toUTF8 := by
    decide
  have vacant : ∀ now key, Keyspace.server.live .empty now key = none := fun _ _ => rfl
  obtain ⟨same, untouched⟩ := agrees_with_memory (c := client) (m := m) Keyspace.documented vacant rfl rfl
    ordered lasting
  refine ⟨Keyspace.documented, vacant, rfl, ordered, lasting, same, ?_,
    fun still => Set.notMem_empty _ ((untouched _ elsewhere).2 still)⟩
  decide +kernel

end Client

end Remote

end Admission

/-
# Admission.Proofs.Store.Plain — nobody can tell when lapsed entries are removed

To its callers a store is a map from keys to entries in which a lapsed entry counts as absent: a *plain*
store, which removes nothing unless it is told to. The store inside the process removes lapsed entries
on five occasions: when one is read or written over, when a request is counted, on demand and in the
background. It *holds* what the plain store holds nevertheless (`Memory.Holds`), each happening keeps it
so (`Memory.happen_holds`), and hence both give the same answers over every course
(`Memory.replies_eq_plain`).

What cannot be seen can be counted: after a sweep on demand the store has lost as many entries as the
sweep reports, and those it keeps are the ones that a reader finds.
-/
import Admission.Proofs.Course
import Admission.Proofs.Store.Present
import Mathlib.Data.Set.Card
import Mathlib.Logic.Function.Basic

namespace Admission

/-- What callers ask of a store. -/
inductive Demand where
  /-- The value under a key. -/
  | get (key : String)
  /-- To store an entry under a key. -/
  | set (key : String) (entry : Entry)
  /-- To remove the entry of a key. -/
  | delete (key : String)
  /-- To store an entry under a key if the value there is the expected one. -/
  | swap (key : String) (expected : Option ByteArray) (entry : Entry)
deriving DecidableEq

/-- The key that a demand is about. -/
def Demand.key : Demand → String
  | get key => key
  | set key _ => key
  | delete key => key
  | swap key _ _ => key

/-- What a store answers. -/
inductive Reply where
  /-- The value under a key. -/
  | value (found : Option ByteArray)
  /-- Whether the entry was stored. -/
  | swapped (accepted : Bool)
  /-- That it is done. -/
  | done
deriving DecidableEq

/-- A backend does what is asked of it. -/
def Backend.perform {σ : Type} (b : Backend σ) (s : σ) : Demand → Except Failure Reply × σ
  | .get key => let (r, s) := b.get key s; (r.map .value, s)
  | .set key entry => let (r, s) := b.set key entry s; (r.map fun _ => .done, s)
  | .delete key => let (r, s) := b.delete key s; (r.map fun _ => .done, s)
  | .swap key expected entry => let (r, s) := b.swap key expected entry s; (r.map .swapped, s)

/-! ## A store that removes nothing by itself -/

/-- The entries under the keys, lapsed ones included. -/
abbrev Plain := String → Option Entry

namespace Plain

/-- A lapsed entry counts as absent. -/
def live (p : Plain) (now : Nat) (key : String) : Option ByteArray := (p key).bind (·.live? now)

/-- A plain store does what is asked of it. -/
def grant (p : Plain) (now : Nat) : Demand → Reply × Plain
  | .get key => (.value (p.live now key), p)
  | .set key entry => (.done, Function.update p key (some entry))
  | .delete key => (.done, Function.update p key none)
  | .swap key expected entry =>
    if p.live now key = expected then (.swapped true, Function.update p key (some entry))
    else (.swapped false, p)

/-- It does so unless the caller has given up. -/
def perform (p : Plain) (moment : Moment) (demand : Demand) : Except Failure Reply × Plain :=
  if moment.cancelled then (.error .cancelled, p)
  else (.ok (p.grant moment.now demand).1, (p.grant moment.now demand).2)

end Plain

/-! ## Demands on the store inside the process -/

namespace Memory

/-- The store does what is asked of it at a moment. -/
def perform (m : Memory) (moment : Moment) (demand : Demand) : Except Failure Reply × Memory :=
  let (reply, m, _) := (backend Moment.surroundings).perform (m, moment) demand
  (reply, m)

variable {m : Memory} {p : Plain} {now : Nat}

theorem perform_cancelled (demand : Demand) :
    m.perform ⟨now, true⟩ demand = (.error .cancelled, m) := by
  cases demand <;> rfl

theorem perform_get (key : String) :
    m.perform ⟨now, false⟩ (.get key) = (.ok (.value (m.live now key)), (m.get now key).2) := by
  rw [← get_fst]
  rfl

theorem perform_set (key : String) (entry : Entry) :
    m.perform ⟨now, false⟩ (.set key entry) = (.ok .done, m.set now key entry) := rfl

theorem perform_delete (key : String) :
    m.perform ⟨now, false⟩ (.delete key) = (.ok .done, m.delete key) := rfl

theorem perform_swap (key : String) (expected : Option ByteArray) (entry : Entry) :
    m.perform ⟨now, false⟩ (.swap key expected entry) =
      (.ok (.swapped (decide (m.live now key = expected))), (m.swap now key expected entry).2) := by
  rw [← swap_fst]
  rfl

/-- A demand that is met is answered as a plain store answers it. -/
theorem perform_granted (h : m.Holds now p) (demand : Demand) :
    (m.perform ⟨now, false⟩ demand).1 = .ok (p.grant now demand).1 ∧
      (m.perform ⟨now, false⟩ demand).2.Holds now (p.grant now demand).2 := by
  have live_eq : ∀ key, m.live now key = p.live now key := h.live_eq
  cases demand with
  | get key =>
    rw [perform_get, live_eq]
    exact ⟨rfl, h.kept fun _ ht => m.present_get ht key⟩
  | set key entry =>
    rw [perform_set]
    exact ⟨rfl, h.put fun _ ht other => m.present_set ht key other entry⟩
  | delete key =>
    rw [perform_delete]
    exact ⟨rfl, h.put fun t _ => m.present_delete t key⟩
  | swap key expected entry =>
    rw [perform_swap, live_eq, Plain.grant]
    by_cases accepted : p.live now key = expected
    · have live : m.live now key = expected := (live_eq key).trans accepted
      rw [if_pos accepted, decide_eq_true accepted]
      exact ⟨rfl, h.put fun _ ht => present_swap live entry ht⟩
    · have live : m.live now key ≠ expected := live_eq key ▸ accepted
      rw [if_neg accepted, decide_eq_false accepted]
      exact ⟨rfl, h.kept fun _ ht => present_swap_refused live entry ht⟩

/-- **A demand** is answered as a plain store answers it, and the store holds what that one does. -/
theorem perform_holds (moment : Moment) (h : m.Holds moment.now p) (demand : Demand) :
    (m.perform moment demand).1 = (p.perform moment demand).1 ∧
      (m.perform moment demand).2.Holds moment.now (p.perform moment demand).2 := by
  obtain ⟨now, cancelled⟩ := moment
  cases cancelled with
  | true =>
    rw [perform_cancelled]
    exact ⟨rfl, h⟩
  | false => exact perform_granted h demand

/-! ## Everything that happens to the store -/

/-- Something that happens to the store. -/
inductive Event where
  /-- A caller asks something of it. -/
  | demand (demand : Demand)
  /-- Everything is removed. -/
  | clear
  /-- Lapsed entries are swept on demand. -/
  | collect
  /-- Lapsed entries are swept in the background. -/
  | sweep
  /-- The background sweep is stopped. -/
  | close
deriving DecidableEq

/-- What comes of it. -/
def happen (m : Memory) (moment : Moment) : Event → Except Failure Reply × Memory
  | .demand demand => m.perform moment demand
  | .clear => (.ok .done, m.clear)
  | .collect => (.ok .done, (m.collect moment.now).2)
  | .sweep => (.ok .done, m.sweep moment.now)
  | .close => (.ok .done, m.close)

end Memory

/-- What comes of it in a plain store: nothing is ever swept. -/
def Plain.happen (p : Plain) (moment : Moment) : Memory.Event → Except Failure Reply × Plain
  | .demand demand => p.perform moment demand
  | .clear => (.ok .done, fun _ => none)
  | .collect => (.ok .done, p)
  | .sweep => (.ok .done, p)
  | .close => (.ok .done, p)

namespace Memory

variable {m : Memory} {p : Plain}

/-- **Whatever happens** is answered as a plain store answers it, and the store holds what that one
does. -/
theorem happen_holds (moment : Moment) (h : m.Holds moment.now p) (event : Event) :
    (m.happen moment event).1 = (p.happen moment event).1 ∧
      (m.happen moment event).2.Holds moment.now (p.happen moment event).2 := by
  have swept : (m.sweep moment.now).Holds moment.now p := h.kept fun _ ht => m.present_sweep ht
  cases event with
  | demand demand => exact perform_holds moment h demand
  | clear => exact ⟨rfl, fun _ _ _ => rfl⟩
  | collect => exact ⟨rfl, swept⟩
  | sweep => exact ⟨rfl, swept⟩
  | close => exact ⟨rfl, h⟩

/-- Over every course the store answers as a plain one does. -/
theorem replies_eq_plain (m : Memory) {course : Course Event} (ordered : course.Chronological) :
    course.replies happen m = course.replies Plain.happen m.table.get? := by
  refine Course.lockstep (fun _ _ => True) (fun now m p => m.Holds now p) ?_ ordered
    (fun _ _ => trivial) (m.holds_get? 0) fun _ _ => Nat.zero_le _
  intro now m p moment event h le _
  exact happen_holds moment (h.later le) event

/-! ## Counting -/

end Memory

/-- A table has as many rows as there are keys that it knows. -/
theorem Table.encard_keys {α : Type} (t : Table α) :
    {key | t.get? key ≠ none}.encard = t.size := by
  have keys : {key | t.get? key ≠ none} = ((t.rows.map Prod.fst).toFinset : Set String) := by
    ext key
    simp only [Table.get?, ne_eq, List.lookup_eq_none_iff, not_forall, exists_prop, bne_iff_ne,
      Set.mem_ofPred_eq, List.coe_toFinset, List.mem_map, not_not]
    exact exists_congr fun row => and_congr_right fun _ => eq_comm
  rw [keys, Set.encard_coe_eq_coe_finsetCard, List.toFinset_card_of_nodup t.distinct,
    List.length_map]
  rfl

namespace Memory

/-- What a sweep has left has not lapsed. -/
theorem present_swept (m : Memory) (now : Nat) (key : String) :
    (m.sweep now).present now key = (m.sweep now).table.get? key := by
  rw [present, sweep_eq, Table.get?_select]
  exact Entry.unlapsed_unlapsed (Nat.le_refl now) _

/-- **A sweep on demand** takes away as many entries as it reports, and leaves those that a reader
finds. -/
theorem collect_counts (m : Memory) (now : Nat) :
    m.size = (m.collect now).2.size + (m.collect now).1 ∧
      {key | ((m.collect now).2.get now key).1 ≠ none}.encard = (m.collect now).2.size := by
  refine ⟨((Nat.add_comm _ _).trans (m.collect_size now)).symm, ?_⟩
  show {key | ((m.sweep now).get now key).1 ≠ none}.encard = (m.sweep now).size
  rw [size, ← Table.encard_keys]
  congr 1
  ext key
  simp only [get_fst, live, present_swept, Set.mem_ofPred_eq, ne_eq,
    Option.map_eq_none_iff]

/-- **Nobody can tell** when lapsed entries are removed: over every course, and whenever entries are
swept, the store answers as a plain one that removes none. A sweep on demand takes away as many
entries as it reports, and there are as many left as there are keys with a value. -/
theorem sweeps_invisible (m : Memory) {course : Course Event} (ordered : course.Chronological) :
    course.replies happen m = course.replies Plain.happen m.table.get? ∧
      ∀ (before : Course Event) moment after removed m',
        course = before ++ (moment, .collect) :: after →
        (before.leaves happen m).collect moment.now = (removed, m') →
        (before.leaves happen m).size = m'.size + removed ∧
          {key | (m'.get moment.now key).1 ≠ none}.encard = m'.size := by
  refine ⟨m.replies_eq_plain ordered, ?_⟩
  rintro before moment after removed m' - collected
  have counts := (before.leaves happen m).collect_counts moment.now
  rw [collected] at counts
  exact counts

/-- An entry that lapses at 5: it is there at 4 and gone at 5, where it is written over, by a write
that is counted and sweeps. Of the two entries that are stored at 9 one has lapsed. -/
theorem sweeps_invisible_at_expiry :
    let a : Entry := .make "a".toUTF8 (some 5)
    let b : Entry := .make "b".toUTF8 (some 9)
    let stamp (now : Nat) (event : Event) : Moment × Event := (⟨now, false⟩, event)
    let before : Course Event :=
      [stamp 1 (.demand (.set "k" a)), stamp 4 (.demand (.get "k")), stamp 4 .sweep,
        stamp 5 (.demand (.swap "k" none b)), stamp 6 (.demand (.set "l" (.persistent "c".toUTF8)))]
    let course : Course Event := before ++ [stamp 9 .collect, stamp 9 (.demand (.get "k"))]
    let m : Memory := .bare (.requests 2)
    course.Chronological ∧
      course.replies happen m = course.replies Plain.happen m.table.get? ∧
      (before.leaves happen m).collect 9 = (1, ((before.leaves happen m).collect 9).2) ∧
      (before.leaves happen m).size = ((before.leaves happen m).collect 9).2.size + 1 ∧
      {key | (((before.leaves happen m).collect 9).2.get 9 key).1 ≠ none}.encard =
        ((before.leaves happen m).collect 9).2.size := by
  intro a b stamp before course m
  have ordered : course.Chronological := by
    show List.Pairwise _ _
    decide
  obtain ⟨same, counts⟩ := sweeps_invisible m ordered
  have one : ((before.leaves happen m).collect 9).1 = 1 := by decide +kernel
  have collected : (before.leaves happen m).collect 9 =
      (1, ((before.leaves happen m).collect 9).2) := by
    rw [← one]
  exact ⟨ordered, same, collected,
    counts before ⟨9, false⟩ [stamp 9 (.demand (.get "k"))] 1 _ rfl collected⟩

end Memory

end Admission

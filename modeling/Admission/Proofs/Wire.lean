/-
# Admission.Proofs.Wire — what is sent is what arrives

Requests, responses, reports of denials, quotas and defaults are written as JSON and read by somebody
else. Each of them is a record, and its reader asks for the fields it was written with, so that all there
is to show is that the value of every field is read back (`Json.fields?_record`): texts of any characters,
counts up to the ceiling, parts that may be missing, and windows.

Windows are written in two ways. A quota spells out seconds and nanoseconds, and nothing gets lost. The
defaults hold a text as people write it, which ends with milliseconds; what is shorter is dropped.
-/
import Admission.Denial
import Admission.Proofs.Duration.Text
import Admission.Proofs.Json.Record
import Admission.Quota
import Admission.Service.Request
import Admission.Service.Settings

namespace Admission

open Json

/-! ## What can be written -/

/-- A request whose limit is within the ceiling. -/
def Request.Bounded (r : Request) : Prop := ∀ n ∈ r.limit, n ≤ Word.last

/-- A response whose counts are within the ceiling. -/
structure Response.Bounded (r : Response) : Prop where
  /-- The requests left are. -/
  remaining_le : ∀ n ∈ r.remaining, n ≤ Word.last
  /-- The instant is. -/
  resetAt_le : ∀ n ∈ r.resetAt, n ≤ Word.last

/-- A report whose counts are within the ceiling. -/
structure Denial.Bounded (d : Denial) : Prop where
  /-- The limit is. -/
  limit_le : d.limit ≤ Word.last
  /-- The instant is. -/
  timestamp_le : d.timestamp ≤ Word.last

/-- A quota, checked or not, whose numbers are within the ceiling. -/
structure Quota.Bounded (q : Quota) : Prop where
  /-- The limit is. -/
  limit_le : q.limit ≤ Word.last
  /-- The whole seconds of the window are. -/
  seconds_le : q.window.seconds ≤ Word.last

/-- Defaults whose numbers are within the ceiling. -/
structure Defaults.Bounded (d : Defaults) : Prop where
  /-- The limit is. -/
  limit_le : d.limit ≤ Word.last
  /-- The whole milliseconds of the window are. -/
  millis_le : d.window.millis ≤ Word.last

/-! ## Requests and responses -/

theorem Request.toJson_eq (r : Request) :
    r.toJson = .record ["key", "algorithm", "limit", "window"]
      [some (.text r.key), r.algorithm.map .text, r.limit.map .number, r.window.map .text] := by
  simp [toJson, Value.record, Option.map_map, Function.comp_def]

theorem Request.ofJson?_toJson {r : Request} (h : r.Bounded) : ofJson? r.toJson.tree = some r := by
  rw [ofJson?, toJson_eq, Tree.fields?_record (by decide) rfl]
  simp only [List.map_cons, List.map_nil, Option.map_some, Field.required, text?_tree, optional_text,
    optional_count h, Option.bind_eq_bind, Option.bind_some]
  rfl

/-- **A request** arrives as it was sent. -/
theorem Request.read_written {r : Request} (h : r.Bounded) :
    read r.toJson.render.toUTF8 = .ok r := by
  rw [read, parse_render, Option.bind_some, ofJson?_toJson h]

theorem Response.toJson_eq (r : Response) :
    r.toJson = .record ["allowed", "remaining", "reset_at", "message"]
      [some (.bool r.allowed), r.remaining.map .number, r.resetAt.map .number,
        r.message.map .text] := by
  simp [toJson, Value.record, Option.map_map, Function.comp_def]

theorem Response.ofJson?_toJson {r : Response} (h : r.Bounded) : ofJson? r.toJson.tree = some r := by
  have allowed : Field.required Tree.truth? (some (Value.bool r.allowed).tree) = some r.allowed := rfl
  rw [ofJson?, toJson_eq, Tree.fields?_record (by decide) rfl]
  simp only [List.map_cons, List.map_nil, Option.map_some, allowed, optional_text,
    optional_count h.remaining_le, optional_count h.resetAt_le, Option.bind_eq_bind, Option.bind_some]
  rfl

/-! ## Reports -/

theorem Denial.ofJson?_toJson {d : Denial} (h : d.Bounded) : ofJson? d.toJson.tree = some d := by
  have fields : d.toJson =
      .record ["type", "key", "algorithm", "limit", "window", "timestamp", "message"]
        [some (.text d.kind), some (.text d.key), some (.text d.algorithm), some (.number d.limit),
          some (.text d.window), some (.number d.timestamp), some (.text d.message)] := rfl
  rw [ofJson?, fields, Tree.fields?_record (by decide) rfl]
  simp only [List.map_cons, List.map_nil, Option.map_some, Field.required, text?_tree,
    count?_tree h.limit_le, count?_tree h.timestamp_le, Option.bind_eq_bind, Option.bind_some]
  rfl

/-! ## Quotas -/

/-- The nanoseconds beyond the whole seconds fit into 32 bits. -/
theorem Quota.nanos_written (w : Duration) :
    Field.required (·.natural? (1 <<< 32 - 1)) (some (Value.number w.subsecond).tree) =
      some w.subsecond := by
  have below : w.subsecond ≤ 1 <<< 32 - 1 := by
    have := Nat.mod_lt w.nanoseconds (show 0 < 1000000000 by decide)
    simp only [Duration.subsecond]
    omega
  exact natural?_number below

/-- A window spelled out in seconds and nanoseconds is read back to the nanosecond. -/
theorem Quota.windowOfJson?_windowToJson {w : Duration} (h : w.seconds ≤ Word.last) :
    windowOfJson? (windowToJson w).tree = some w := by
  have fields : windowToJson w =
      .record ["secs", "nanos"] [some (.number w.seconds), some (.number w.subsecond)] := rfl
  have secs : Field.required Tree.count? (some (Value.number w.seconds).tree) = some w.seconds :=
    count?_tree h
  rw [windowOfJson?, fields, Tree.fields?_record (by decide) rfl, Option.bind_eq_bind, Option.bind_some]
  show (Field.required Tree.count? (some (Value.number w.seconds).tree) >>= fun seconds =>
    Field.required (·.natural? (1 <<< 32 - 1)) (some (Value.number w.subsecond).tree) >>= fun nanos =>
      _) = _
  rw [secs, nanos_written, Option.bind_eq_bind, Option.bind_some, Option.bind_some,
    w.ofParts_seconds_subsecond, if_neg (Nat.not_lt.mpr h)]

theorem Quota.ofJson?_toJson {q : Quota} (h : q.Bounded) : ofJson? q.toJson.tree = some q := by
  have fields : q.toJson =
      .record ["limit", "window"] [some (.number q.limit), some (windowToJson q.window)] := rfl
  rw [ofJson?, fields, Tree.fields?_record (by decide) rfl]
  simp only [List.map_cons, List.map_nil, Option.map_some, Field.required, count?_tree h.limit_le,
    windowOfJson?_windowToJson h.seconds_le, Option.bind_eq_bind, Option.bind_some]
  rfl

/-! ## Defaults -/

theorem Algorithm.ofJson?_toJson (a : Algorithm) : ofJson? a.toJson.tree = some a := by
  have name : (Value.text a.name).tree.choice? = some a.name := text?_ofText a.name
  rw [ofJson?, toJson, name, Option.bind_some, ofName?_name]

/-- A window written as a text is read back to the millisecond. -/
theorem Duration.ofJson?_toJson {w : Duration} (h : w.millis ≤ Word.last) :
    ofJson? w.toJson.tree = some (.ofMillis w.millis) := by
  rw [ofJson?, toJson, text?_tree, Option.bind_eq_bind, Option.bind_some, parse_format h]
  rfl

/-- Defaults with a window of whole milliseconds. -/
def Defaults.whole (d : Defaults) : Defaults := { d with window := .ofMillis d.window.millis }

theorem Defaults.ofJson?_toJson {d : Defaults} (h : d.Bounded) :
    ofJson? d.toJson.tree = some d.whole := by
  have fields : d.toJson = .record ["algorithm", "limit", "window"]
      [some d.algorithm.toJson, some (.number d.limit), some d.window.toJson] := rfl
  rw [ofJson?, fields, Tree.fields?_record (by decide) rfl]
  simp only [List.map_cons, List.map_nil, Option.map_some, Field.withDefault,
    d.algorithm.ofJson?_toJson, count?_tree h.limit_le, Duration.ofJson?_toJson h.millis_le,
    Option.bind_eq_bind, Option.bind_some]
  rfl

/-! ## Everything that is sent -/

namespace Wire

/-- **What is sent is what arrives**: requests, responses and reports with texts of any characters, with
or without the parts that may be missing; quotas, checked or not, to the nanosecond; and defaults, but for
the part of their window that is shorter than a millisecond. -/
theorem sent_is_read :
    (∀ r : Request, r.Bounded → Request.read r.toJson.render.toUTF8 = .ok r) ∧
      (∀ r : Response, r.Bounded → reread Response.ofJson? r.toJson = some r) ∧
      (∀ d : Denial, d.Bounded → reread Denial.ofJson? d.toJson = some d) ∧
      (∀ q : Quota, q.Bounded → reread Quota.ofJson? q.toJson = some q) ∧
      ∀ d : Defaults, d.Bounded →
        reread Defaults.ofJson? d.toJson = some { d with window := .ofMillis d.window.millis } := by
  refine ⟨fun r h => Request.read_written h, fun r h => ?_, fun d h => ?_, fun q h => ?_, fun d h => ?_⟩
  · rw [reread_eq, Response.ofJson?_toJson h]
  · rw [reread_eq, Denial.ofJson?_toJson h]
  · rw [reread_eq, Quota.ofJson?_toJson h]
  · rw [reread_eq, Defaults.ofJson?_toJson h]
    rfl

/-- Texts with everything in them that has to be escaped, and with what must not be; the largest numbers
there are; a quota that no limiter could be made of; and a window one nanosecond short of what an instant
cannot hold. -/
theorem sent_is_read_at_ceiling :
    let text := "\"\\/\x00\x08\x0c\n\r\t\x1f\x7fé\u2028😀"
    let r : Request := ⟨text, some "", some Word.last, none⟩
    let answer : Response := ⟨false, none, some Word.last, some text⟩
    let report : Denial := ⟨text, "", text, 0, text, Word.last, text⟩
    let q : Quota := ⟨0, ⟨1⟩⟩
    let d : Defaults := ⟨.slidingWindow, 0, ⟨Word.last * 1000000 + 999999⟩⟩
    (r.Bounded ∧ answer.Bounded ∧ report.Bounded ∧ q.Bounded ∧ d.Bounded) ∧
      Request.read r.toJson.render.toUTF8 = .ok r ∧
      reread Response.ofJson? answer.toJson = some answer ∧
      reread Denial.ofJson? report.toJson = some report ∧
      reread Quota.ofJson? q.toJson = some q ∧
      reread Defaults.ofJson? d.toJson = some ⟨.slidingWindow, 0, .ofMillis Word.last⟩ := by
  intro text r answer report q d
  have hr : r.Bounded := by simp [Request.Bounded, r]
  have ha : answer.Bounded := ⟨by simp [answer], by simp [answer]⟩
  have hp : report.Bounded := ⟨by decide, by decide⟩
  have hq : q.Bounded := ⟨by decide, by decide⟩
  have hd : d.Bounded := ⟨by decide, by decide⟩
  have whole : d.window.millis = Word.last := by decide
  obtain ⟨requests, responses, reports, quotas, defaults⟩ := sent_is_read
  have dropped := defaults d hd
  rw [whole] at dropped
  exact ⟨⟨hr, ha, hp, hq, hd⟩, requests r hr, responses answer ha, reports report hp, quotas q hq,
    dropped⟩

end Wire

end Admission

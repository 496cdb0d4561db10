/-
# Admission.Proofs.Check — what becomes of a request

A service first makes a limiter of a request (`Service.enlist`). If that fails the client is to blame,
and the store is not asked anything. Otherwise the limiter is asked once; what comes of that is the
response, along with a report if the request was denied (`Service.consult`). Up to here nobody has looked
at the reports made before. The service has the response for its answer, and publishes the report
(`Service.check_eq`).
-/
import Admission.Proofs.Usable
import Admission.Service

namespace Admission

namespace Limiter

variable {spec : LimiterSpec} {l : Limiter} {f : Failure}

/-- Whatever keeps a limiter from being made is the client's fault. -/
theorem create_fault (failed : create spec = .error f) : f.isClientFault = true := by
  rw [create] at failed
  split at failed
  · cases failed
    rfl
  · split at failed
    · cases failed
      rfl
    · split at failed <;> cases failed
      rfl

/-- A limiter decides by the algorithm that was named, and by the limit and the window. -/
theorem create_made (created : create spec = .ok l) :
    l.algorithm.name = spec.algorithm ∧ l.quota = ⟨spec.limit, spec.window⟩ := by
  rw [create] at created
  split at created
  · cases created
  · split at created
    · cases created
    · next quota made =>
      split at created
      · cases created
      · next algorithm named =>
        cases created
        exact ⟨(Algorithm.ofName?_eq_some_iff.mp named).symm, (Quota.make_eq_ok_iff.mp made).1⟩

end Limiter

namespace Service

/-- The limiter of a request, along with what it was made of. -/
def enlist (d : Defaults) (r : Request) : Except Failure (LimiterSpec × Limiter) :=
  match limiter d r with
  | .error f => .error f
  | .ok spec =>
    match Limiter.create spec with
    | .error f => .error f
    | .ok l => .ok (spec, l)

/-- The report that a denied request calls for at an instant: it tells what the request asks for, and the
defaults for what it leaves out. -/
def reportOf (d : Defaults) (r : Request) (now : Nat) : Option Denial :=
  (window d r).toOption.map fun window => {
    kind := "limit_exceeded"
    key := r.key
    algorithm := (given r.algorithm).getD d.algorithm.name
    limit := r.limit.getD d.limit
    window := window.format
    timestamp := now
    message := "Rate limit exceeded" }

variable {σ κ : Type}

/-- What a decision comes to: the response, and a report if it is a denial. -/
def announce (b : Backend σ) (d : Defaults) (r : Request) (store : σ) (decision : Decision) :
    Response × Option Denial :=
  (respond decision, if decision.allowed then none else reportOf d r (b.now store))

/-- What a request comes to, whatever was reported before: the response, with the report that it calls
for, and the store after that. -/
def consult (b : Backend σ) (d : Defaults) (r : Request) (store : σ) :
    Except Failure (Response × Option Denial) × σ :=
  match enlist d r with
  | .error f => (.error f, store)
  | .ok (_, l) =>
    let (outcome, store) := l.allow b r.key store
    (outcome.map (announce b d r store), store)

/-- The reports after that. -/
def reported (c : Channel κ) (outbox : Option (Outbox κ)) :
    Except Failure (Response × Option Denial) → Option (Outbox κ)
  | .ok (_, some d) => report c outbox d
  | _ => outbox

variable {d : Defaults} {r : Request} {spec : LimiterSpec} {l : Limiter} {f : Failure}

/-! ## Making a limiter -/

/-- A window that cannot be read is the client's fault. -/
theorem window_fault (failed : window d r = .error f) : f.isClientFault = true := by
  rw [window] at failed
  split at failed
  · cases failed
  · split at failed
    · cases failed
    · cases failed
      rfl

theorem limiter_fault (failed : limiter d r = .error f) : f.isClientFault = true := by
  rw [limiter] at failed
  split at failed
  · cases failed
    rfl
  · split at failed
    · next unreadable =>
      cases failed
      exact window_fault unreadable
    · cases failed

theorem enlist_unmade (refused : enlist d r = .error f) :
    limiter d r = .error f ∨ ∃ spec, limiter d r = .ok spec ∧ Limiter.create spec = .error f := by
  rw [enlist] at refused
  split at refused
  · next unmade =>
    cases refused
    exact .inl unmade
  · next made =>
    split at refused
    · next uncreated =>
      cases refused
      exact .inr ⟨_, made, uncreated⟩
    · cases refused

/-- **A request that no limiter can be made of** is the client's fault. -/
theorem enlist_fault (refused : enlist d r = .error f) : f.isClientFault = true := by
  obtain unmade | ⟨spec, -, uncreated⟩ := enlist_unmade refused
  · exact limiter_fault unmade
  · exact Limiter.create_fault uncreated

theorem enlist_made (enlisted : enlist d r = .ok (spec, l)) :
    limiter d r = .ok spec ∧ Limiter.create spec = .ok l := by
  rw [enlist] at enlisted
  split at enlisted
  · cases enlisted
  · next made =>
    split at enlisted
    · cases enlisted
    · next created =>
      cases enlisted
      exact ⟨made, created⟩

/-- What a limiter is made of: the parts of the request, and the defaults in place of those that are
missing. -/
theorem enlist_spec (enlisted : enlist d r = .ok (spec, l)) :
    l.algorithm.name = (given r.algorithm).getD d.algorithm.name ∧
      spec.limit = r.limit.getD d.limit ∧ window d r = .ok spec.window := by
  obtain ⟨made, created⟩ := enlist_made enlisted
  rw [(Limiter.create_made created).1]
  rw [limiter] at made
  split at made
  · cases made
  · split at made
    · cases made
    · next readable =>
      cases made
      exact ⟨rfl, rfl, readable⟩

/-- The report of a denial tells by what the limiter has denied. -/
theorem reportOf_enlisted (enlisted : enlist d r = .ok (spec, l)) (now : Nat) :
    reportOf d r now = some (.limitExceeded r.key l.algorithm.name spec.limit spec.window now) := by
  obtain ⟨algorithm, limit, window⟩ := enlist_spec enlisted
  rw [reportOf, window, algorithm, limit]
  rfl

/-! ## Answering -/

variable {b : Backend σ} {store store' : σ}

theorem consult_refused (b : Backend σ) (refused : enlist d r = .error f) (store : σ) :
    consult b d r store = (.error f, store) := by
  rw [consult, refused]

theorem consult_enlisted (b : Backend σ) (enlisted : enlist d r = .ok (spec, l)) (store : σ) :
    consult b d r store = ((l.allow b r.key store).1.map (announce b d r (l.allow b r.key store).2),
      (l.allow b r.key store).2) := by
  rw [consult, enlisted]

/-- A response comes of a decision, and a report goes with a denial and with nothing else. -/
theorem consult_ok {response : Response} {due : Option Denial}
    (consulted : consult b d r store = (.ok (response, due), store')) :
    ∃ spec l decision, enlist d r = .ok (spec, l) ∧ l.allow b r.key store = (.ok decision, store') ∧
      response = respond decision ∧
      due = if decision.allowed then none else reportOf d r (b.now store') := by
  rw [consult] at consulted
  split at consulted
  · cases consulted
  · next spec l enlisted =>
    cases asked : l.allow b r.key store with
    | mk outcome left =>
      rw [asked] at consulted
      cases outcome with
      | error f => cases consulted
      | ok decision =>
        cases consulted
        exact ⟨spec, l, decision, enlisted, asked, rfl, rfl⟩

/-- **A service consults and then reports.** -/
theorem check_eq (b : Backend σ) (c : Channel κ) (r : Request) (s : Service σ κ) :
    s.check b c r =
      let (outcome, store) := consult b s.defaults r s.store
      (outcome.map Prod.fst, { s with store := store, outbox := reported c s.outbox outcome }) := by
  cases enlisted : enlist s.defaults r with
  | error f =>
    rw [consult_refused b enlisted]
    obtain unmade | ⟨spec, made, uncreated⟩ := enlist_unmade enlisted
    · simp only [check, unmade]
      rfl
    · simp only [check, made, uncreated]
      rfl
  | ok limiter =>
    obtain ⟨spec, l⟩ := limiter
    obtain ⟨made, created⟩ := enlist_made enlisted
    simp only [check, made, created, consult_enlisted b enlisted]
    cases asked : l.allow b r.key s.store with
    | mk outcome store =>
      cases outcome with
      | error f => rfl
      | ok decision =>
        cases verdict : decision.allowed with
        | true => simp [Except.map, announce, reported, verdict]
        | false => simp [Except.map, announce, reported, verdict, reportOf_enlisted enlisted]

end Service

end Admission

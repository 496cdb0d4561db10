/-
# Admission.Service — answering requests

A service takes a loosely specified request, fills the gaps from its defaults, makes a limiter of it
and decides. A denial is reported, if there is somebody to report to. What is wrong with a request is
found before any store is touched; what goes wrong with the store is a failure and never a denial.
-/
import Admission.Limiter
import Admission.Outbox
import Admission.Service.Request
import Admission.Service.Settings

namespace Admission

/-- A service with a store of the state `σ`, and with reports over a channel of the state `κ`. -/
structure Service (σ κ : Type) where
  /-- The state of the store. -/
  store : σ
  /-- What requests may leave out. -/
  defaults : Defaults
  /-- Where reports go, if anywhere. -/
  outbox : Option (Outbox κ)

namespace Service

variable {σ κ : Type}

/-! ## Filling the gaps -/

/-- A text that may be left out; an empty one counts as left out. -/
def given (text : Option String) : Option String := text.filter (· ≠ "")

/-- The window a request asks for. -/
def window (d : Defaults) (r : Request) : Except Failure Duration :=
  match given r.window with
  | none => .ok d.window
  | some text =>
    match Duration.parse text with
    | .ok window => .ok window
    | .error malformed => .error (.config (.invalidDuration malformed.message))

/-- The limiter that a request asks for. The key is looked at first, then the window. -/
def limiter (d : Defaults) (r : Request) : Except Failure LimiterSpec :=
  if Text.blank r.key then .error (.invalidRequest "key is required")
  else
    match window d r with
    | .error f => .error f
    | .ok window => .ok {
        algorithm := (given r.algorithm).getD d.algorithm.name
        limit := r.limit.getD d.limit
        window := window
        hasStorage := true
        maxRetries := Limiter.defaultRetries }

/-! ## Deciding -/

/-- The response that tells a decision. -/
def respond (d : Decision) : Response where
  allowed := d.allowed
  remaining := some d.standing.remaining
  resetAt := some d.standing.resetAtSeconds
  message := if d.allowed then none else some deniedMessage

/-- Reports a denial, if there is somebody to report to. -/
def report (c : Channel κ) (outbox : Option (Outbox κ)) (d : Denial) : Option (Outbox κ) :=
  outbox.map fun o => (o.publish c d).2

/-- Answers a request. -/
def check (b : Backend σ) (c : Channel κ) (r : Request) (s : Service σ κ) :
    Except Failure Response × Service σ κ :=
  match limiter s.defaults r with
  | .error f => (.error f, s)
  | .ok spec =>
    match Limiter.create spec with
    | .error f => (.error f, s)
    | .ok limiter =>
      match limiter.allow b r.key s.store with
      | (.error f, store) => (.error f, { s with store := store })
      | (.ok decision, store) =>
        let s := { s with store := store }
        if decision.allowed then (.ok (respond decision), s)
        else
          let denial := Denial.limitExceeded r.key limiter.algorithm.name spec.limit spec.window
            (b.now store)
          (.ok (respond decision), { s with outbox := report c s.outbox denial })

/-! ## Starting -/

/-- Why a service could not be started. -/
inductive StartFailure where
  /-- The store could not be opened. -/
  | store (cause : OpenFailure)
  /-- No channel has room for as many reports as the settings ask for. -/
  | reports

/-- Starts a service, whose store is swept as a ticker ticks. The store is opened first. -/
def start (ticker : Ticker) (c : Channel κ) (settings : Settings) (uptime : Nat)
    (greeting : Option Remote.Answer) (surroundings : σ) :
    Except StartFailure (Service (Store × σ) κ) :=
  match settings.store.make ticker uptime greeting with
  | .error f => .error (.store f)
  | .ok store =>
    let service : Service (Store × σ) κ := ⟨(store, surroundings), settings.limiter, none⟩
    if settings.reports.enabled then
      match Outbox.make? c settings.reports.capacity with
      | none => .error .reports
      | some outbox => .ok { service with outbox := some outbox }
    else .ok service

end Service

end Admission

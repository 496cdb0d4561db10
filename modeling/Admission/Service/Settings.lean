/-
# Admission.Service.Settings — how a service is set up

Settings say which store to use and how, what to assume for requests that leave something out, and
whether denials are reported. Everything has a default, so that any part may be missing.
-/
import Admission.Algorithm
import Admission.Store.Chosen

namespace Admission

/-! ## What requests may leave out -/

/-- What to assume for requests that leave something out. -/
structure Defaults where
  /-- The algorithm. -/
  algorithm : Algorithm
  /-- The limit. -/
  limit : Nat
  /-- The window. -/
  window : Duration
deriving DecidableEq, Repr

namespace Defaults

/-- A hundred requests per minute from a token bucket. -/
def default : Defaults := ⟨.default, 100, .ofSeconds 60⟩

/-- The assumptions as they are written in JSON. -/
def toJson (d : Defaults) : Json.Value :=
  .object [("algorithm", d.algorithm.toJson), ("limit", .number d.limit),
    ("window", d.window.toJson)]

/-- Reads assumptions from JSON. -/
def ofJson? (t : Json.Tree) : Option Defaults := do
  let [algorithm, limit, window] ← t.fields? ["algorithm", "limit", "window"] false | none
  return ⟨← Json.Field.withDefault default.algorithm Algorithm.ofJson? algorithm,
    ← Json.Field.withDefault default.limit Json.Tree.count? limit,
    ← Json.Field.withDefault default.window Duration.ofJson? window⟩

end Defaults

/-! ## Reports -/

/-- Whether and how denials are reported. -/
structure ReportSettings where
  /-- Whether they are. -/
  enabled : Bool
  /-- How many reports may wait. -/
  capacity : Nat
deriving DecidableEq, Repr

namespace ReportSettings

/-- Reports are made, and about a thousand may wait. -/
def default : ReportSettings := ⟨true, 1024⟩

/-- The settings as they are written in JSON. -/
def toJson (r : ReportSettings) : Json.Value :=
  .object [("enabled", .bool r.enabled), ("capacity", .number r.capacity)]

/-- Reads settings from JSON. -/
def ofJson? (t : Json.Tree) : Option ReportSettings := do
  let [enabled, capacity] ← t.fields? ["enabled", "capacity"] false | none
  return ⟨← Json.Field.withDefault default.enabled Json.Tree.truth? enabled,
    ← Json.Field.withDefault default.capacity Json.Tree.count? capacity⟩

end ReportSettings

/-! ## The store -/

/-- Why a store could not be opened. -/
inductive OpenFailure where
  /-- No pool has room for as many connections as the settings ask for. -/
  | pool
  /-- The server could not be used. -/
  | server (cause : Failure)

/-- Which store to use, and how. -/
structure StoreSettings where
  /-- The kind of store. -/
  kind : StoreKind
  /-- How often a store inside the process is swept; the empty duration means never. -/
  sweepInterval : Duration
  /-- Where a store on a server is. -/
  address : Remote.Address
deriving DecidableEq, Repr

namespace StoreSettings

/-- A store inside the process, swept every minute. -/
def default : StoreSettings := ⟨.default, .ofSeconds 60, .default⟩

/-- A store on a server. -/
def remote (address : Remote.Address) : StoreSettings :=
  { default with kind := .remote, address := address }

/-- Reads settings from JSON. -/
def ofJson? (t : Json.Tree) : Option StoreSettings := do
  let [kind, sweepInterval, address] ← t.fields? ["backend", "sweep_interval", "redis"] false | none
  return ⟨← Json.Field.withDefault default.kind StoreKind.ofJson? kind,
    ← Json.Field.withDefault default.sweepInterval Duration.ofJson? sweepInterval,
    ← Json.Field.withDefault default.address Remote.Address.ofJson? address⟩

/-- How a store inside the process is swept. -/
def sweepPolicy (s : StoreSettings) : SweepPolicy :=
  if s.sweepInterval = .zero then .manual else .every s.sweepInterval

/-- Opens the store at `uptime`. The greeting is how the server answers first, if there is one. The
settings have to lead to a server, then there has to be room for the connections, and only then is
the first of them opened. -/
def make (s : StoreSettings) (ticker : Ticker) (uptime : Nat) (greeting : Option Remote.Answer) :
    Except OpenFailure Store :=
  match s.kind with
  | .memory => .ok (.memory (.make ticker s.sweepPolicy uptime))
  | .remote =>
    if s.address.endpoint? = none then
      .error (.server (.connection (.refused "the settings do not lead to a server")))
    else if Remote.Client.maxPool < s.address.poolSize then .error .pool
    else
      match Remote.Client.connect s.address greeting with
      | .error cause => .error (.server cause)
      | .ok client => .ok (.remote client)

end StoreSettings

/-! ## Everything -/

/-- How a service is set up. -/
structure Settings where
  /-- The store. -/
  store : StoreSettings
  /-- What requests may leave out. -/
  limiter : Defaults
  /-- Reports of denials. -/
  reports : ReportSettings
deriving DecidableEq, Repr

namespace Settings

/-- All defaults. -/
def default : Settings := ⟨.default, .default, .default⟩

/-- Reads settings from JSON. -/
def ofJson? (t : Json.Tree) : Option Settings := do
  let [store, limiter, reports] ← t.fields? ["storage", "limiter", "events"] false | none
  return ⟨← Json.Field.withDefault default.store StoreSettings.ofJson? store,
    ← Json.Field.withDefault default.limiter Defaults.ofJson? limiter,
    ← Json.Field.withDefault default.reports ReportSettings.ofJson? reports⟩

end Settings

end Admission

import TableSteward.Service.Action

/-!
# Dashboards

A dashboard is taken from the cache unless it is to be computed afresh.  Its provider runs in a read-only
transaction, and what it computes is cached for as long as its period calls for.
-/
set_option autoImplicit false

namespace TableSteward

namespace DashboardRequest

def cacheKey (r : DashboardRequest) (kind : String) : String :=
  Period.cacheKey kind r.database r.periodType (r.periodId.getD "") r.zones

/-- Whether the period is still running; one without a beginning is. -/
def isCurrent (r : DashboardRequest) (today : Date) : Result Bool :=
  match r.periodStart with
  | none => .ok true
  | some start => Period.isCurrent start r.periodType today

end DashboardRequest

namespace Service

variable {σ : Type}

def dashboardKinds (s : Service σ) : List String := Period.sortTexts s.providers.keys

def provider (kind : String) : Action σ (Provider σ) := do
  let s ← get
  match s.providers.get? kind with
  | some p => return p
  | none => Action.refused (.dashboardNotFound kind s.dashboardKinds)

def cached (key : String) : Action σ (Option Value) := do
  let s ← get
  let (found, cache) := s.cache.get s.clock key
  set { s with cache := cache }
  return found.filter (!·.isNull)

def keep (key : String) (v : Value) (lifetime : Int) : Action σ Unit := do
  let s ← get
  let (outcome, cache) := s.cache.setFor s.clock key v (.int lifetime)
  set { s with cache := cache }
  Action.lift outcome

def dashboardAnswer (data : Value) (fromCache : Bool) : Value :=
  .dict [("data", data), ("fromCache", .bool fromCache)]

variable [Server σ]

def computeDashboard (key : String) (compute : Provider σ) (r : DashboardRequest) : Action σ Value := do
  let timeout := (← get).timeout
  let data ← Action.onLink (Exchange.readOnly r.database timeout fun c => compute c r)
  let current ← Action.lift (r.isCurrent (← get).today)
  keep key data (Period.lifetime current)
  return dashboardAnswer data false

def dashboard (kind : String) (r : DashboardRequest) (refresh : Bool) : Action σ Value := do
  let compute ← provider kind
  let key := r.cacheKey kind
  let found ← if refresh then pure none else cached key
  match found with
  | some data => return dashboardAnswer data true
  | none => computeDashboard key compute r

def clearCache (pattern : Option String) : Action σ Nat := do
  let s ← get
  let (removed, cache) := s.cache.invalidate pattern
  set { s with cache := cache }
  return removed

end Service

end TableSteward

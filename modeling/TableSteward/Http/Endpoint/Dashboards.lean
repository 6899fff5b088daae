import TableSteward.Document.Day
import TableSteward.Http.Endpoint
import TableSteward.Service.Dashboards

/-!
# Dashboards over the network
-/
set_option autoImplicit false

namespace TableSteward.Http

variable {σ : Type} [Server σ]

structure DashboardQuery where
  periodType : String
  periodId : Option String
  periodStart : Option Date
  zones : Option String
  refresh : Bool

def DashboardQuery.fields (es : Entries Value) : Checked DashboardQuery :=
  DashboardQuery.mk <$> Checked.withDefault es ["periodType"] "weekly" Checked.text
    <*> Checked.withDefault es ["periodId"] none (some <$> Checked.text ·)
    <*> Checked.withDefault es ["periodStart"] none (some <$> Checked.day ·)
    <*> Checked.withDefault es ["zones"] none (some <$> Checked.text ·)
    <*> Checked.withDefault es ["refresh"] false Checked.truth

def zoneNames (s : String) : List String :=
  (((Text.splitOn ',' s.toList).map String.ofList).map Text.trim).filter (!·.isEmpty)

def DashboardQuery.request (q : DashboardQuery) (database : String) : Result DashboardRequest :=
  if Period.types.contains q.periodType then
    .ok ⟨database, q.periodType, q.periodId, q.periodStart, zoneNames (q.zones.getD "")⟩
  else refuse (.invalidValue (.periodType q.periodType Period.types))

def dashboard (r : Request) (places : List String) : Handler σ Response := do
  discard r.requester
  let q ← r.inQuery DashboardQuery.fields
  let request ← Handler.lift (q.request (place places 1))
  let answer ← Handler.act (Service.dashboard (place places 0) request q.refresh)
  Handler.succeed answer

def cacheStats (r : Request) (_ : List String) : Handler σ Response := do
  discard r.requester
  Handler.succeed (← Handler.state).cache.stats

def patternFields (es : Entries Value) : Checked (Option String) :=
  Checked.withDefault es ["pattern"] none (Checked.optional Checked.text)

def clearCache (r : Request) (_ : List String) (body : Option Value) : Handler σ Response := do
  discard r.admin
  let pattern ← inOptionalBody body none (bodyRecord patternFields)
  let removed ← Handler.act (Service.clearCache pattern)
  Handler.confirm [("removed", .int removed)]

def dashboardEndpoints : List (Endpoint σ) :=
  [.get (path ["api", "dashboards", "*", "*"]) dashboard,
   .get (path ["api", "cache", "stats"]) cacheStats,
   .post (path ["api", "admin", "cache", "clear"]) clearCache]

end TableSteward.Http

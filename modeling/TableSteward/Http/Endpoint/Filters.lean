import TableSteward.Http.Endpoint.Tables

/-!
# Filter definitions and histories over the network

Everyone reads the definitions and the history of their own; administrators change the definitions.
-/
set_option autoImplicit false

namespace TableSteward.Http

variable {σ : Type} [Server σ]

def knownOperators (names : List String) : Result Unit := names.forM fun name => discard (Operator.ofName name)

def historyOf (r : Request) (places : List String) : Handler σ Response := do
  let requester ← r.requester
  let history := (← Handler.state).history
  let entries := history.recent ⟨requester.user.id, place places 0, place places 1⟩
  Handler.succeed (.list (entries.map HistoryEntry.toValue))

def nonEmpty {α : Type} (check : Value → Checked (List α)) (v : Value) : Checked (List α) :=
  match check v with
  | .ok [] => Checked.complain .tooShort
  | other => other

def historyFields (es : Entries Value) : Checked TableRequest :=
  (fun database table filters => ⟨database, table, filters, []⟩)
    <$> Checked.required es ["database"] Checked.text
    <*> Checked.required es ["table"] Checked.text
    <*> Checked.required es ["filters"] (nonEmpty filterList)

def recordHistory (r : Request) (_ : List String) (body : Option Value) : Handler σ Response := do
  let requester ← r.requester
  let q ← inBody body (bodyRecord historyFields)
  Handler.lift (knownOperators (q.filters.map FilterSpec.operator))
  let entry ← Handler.act (Service.saveHistory ⟨requester.user.id, q.database, q.table⟩ q.filters)
  Handler.succeed entry.toValue

def forgetHistory (r : Request) (places : List String) : Handler σ Response := do
  let requester ← r.requester
  if ← Handler.act (Service.deleteHistory (place places 0) requester.user.id) then Handler.confirm []
  else return .detail 404 "History entry not found"

def definitionsOf (r : Request) (places : List String) : Handler σ Response := do
  discard r.requester
  let definitions := (← Handler.state).definitions.get (place places 0)
  Handler.succeed (.list (definitions.map FilterDefinition.toValue))

def definitionFields (es : Entries Value) : Checked (String × List FilterDefinition) :=
  (·, ·) <$> Checked.required es ["table"] Checked.text
    <*> Checked.required es ["filters"] (Checked.list (FilterDefinition.check .body))

def changeDefinitions (r : Request) (_ : List String) (body : Option Value) : Handler σ Response := do
  discard r.admin
  let (table, definitions) ← inBody body (bodyRecord definitionFields)
  Handler.lift (knownOperators (definitions.map FilterDefinition.operator))
  Handler.act (Service.setDefinitions table definitions)
  Handler.confirm []

/-- The longer paths come first. -/
def filterEndpoints : List (Endpoint σ) :=
  [.get (path ["api", "filters", "history", "*", "*"]) historyOf,
   .post (path ["api", "filters", "history"]) recordHistory,
   .delete (path ["api", "filters", "history", "*"]) forgetHistory,
   .get (path ["api", "filters", "*"]) definitionsOf,
   .post (path ["api", "filters"]) changeDefinitions]

end TableSteward.Http

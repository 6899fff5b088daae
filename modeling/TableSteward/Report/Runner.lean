import TableSteward.Browse.Browser
import TableSteward.Report.Config

/-!
# Running report blocks

A block is run for its owner only.  Everything is examined anew: the gate, for every table of the join chain
and with visibility set aside, the columns and the filters.
-/
set_option autoImplicit false

namespace TableSteward

structure Reporter where
  policy : Policy
  pageSize : Int := 50
  timeout : Value := .int 30000

/-- What a block answers, and what the audit row says of it. -/
structure BlockAnswer where
  payload : Value
  details : String

namespace Reporter

/-- Hidden tables are shown in reports. -/
def gate (p : Reporter) (r : Requester) : Gate := ⟨p.policy, r.user, r.grants, none⟩

variable {σ : Type} [Server σ]

def plan (p : Reporter) (r : Requester) (c : Connection) (s : BlockSource) : Exchange σ JoinPlan := do
  let source := Catalog.joinSource c (p.gate r) true s.database
  let ref ← source.authorize s.table
  let columns ← source.columnsOf ref
  JoinPlan.build source ref columns s.join

def defaultOrder (c : Connection) (plan : JoinPlan) : Exchange σ (List OrderKey) := do
  let key ← Catalog.primaryKey c plan.main.ref
  Exchange.lift (JoinPlan.defaultOrder key)

def runTable (p : Reporter) (c : Connection) (plan : JoinPlan) (b : TableBlock) (page : Value) :
    Exchange σ BlockAnswer := do
  let items ← Exchange.lift (b.columns.mapM plan.select)
  let conditions ← Exchange.lift (Where.ofFilters plan.resolve b.source.filters)
  let tieBreakers ← defaultOrder c plan
  let order ← Exchange.lift (orderTerms b.order.toList plan.resolve tieBreakers)
  let query : TableQuery := ⟨plan, conditions, .ofItems items, order⟩
  let page ← Page.fetch c (.table query) page p.pageSize
  let count := page.rows.length
  return ⟨.dict ([("type", .text "table"), ("rowCount", .int count)] ++ page.entries),
    "Table block query: page " ++ toString page.number ++ " of " ++ toString page.pages ++ " (" ++
    toString count ++ " rows)"⟩

def groupLabel (plan : JoinPlan) (x : ColumnExpr) (groupBy : String) : Result GroupLabel :=
  match DateGroup.ofName? (Text.lower groupBy) with
  | some g => .ok (.stretch g x)
  | none => do
      let column ← plan.resolve groupBy
      return .column column

def chartShape (c : Connection) (plan : JoinPlan) (b : ChartBlock) (x y : ColumnExpr) :
    Exchange σ ChartShape := do
  match b.aggregate.filter (!·.isEmpty), b.groupBy.filter (!·.isEmpty) with
  | some aggregate, some groupBy =>
      let aggregate ← Exchange.lift (Aggregate.ofName aggregate)
      let label ← Exchange.lift (groupLabel plan x groupBy)
      return .grouped label aggregate y
  | _, _ =>
      let order ← defaultOrder c plan
      return .plain x y order

def runChart (c : Connection) (plan : JoinPlan) (b : ChartBlock) : Exchange σ BlockAnswer := do
  let x ← Exchange.lift (plan.resolve b.labelColumn)
  let y ← Exchange.lift (plan.resolve b.valueColumn)
  let conditions ← Exchange.lift (Where.ofFilters plan.resolve b.source.filters)
  let shape ← chartShape c plan b x y
  let rows ← Exchange.execute c (.chart ⟨plan, conditions, shape⟩)
  let rows ← Exchange.lift (rows.mapM Row.plain)
  return ⟨.dict [("type", .text "chart"), ("chartType", .text b.chartType),
      ("data", .list (rows.map Value.dict))],
    "Chart block query: " ++ toString rows.length ++ " data points"⟩

/-- The value of a metric: that of the first row, or nothing without rows. -/
def metricValue : List Row → Result Value
  | [] => .ok .null
  | row :: _ => do
      let row ← Row.plain row
      Row.cell row "value"

def runMetric (c : Connection) (plan : JoinPlan) (b : MetricBlock) : Exchange σ BlockAnswer := do
  let aggregate ← Exchange.lift (Aggregate.ofName b.aggregate)
  let column ← Exchange.lift (plan.resolve b.column)
  let conditions ← Exchange.lift (Where.ofFilters plan.resolve b.source.filters)
  let rows ← Exchange.execute c (.metric ⟨plan, conditions, aggregate, column⟩)
  let value ← Exchange.lift (metricValue rows)
  let label := (b.label.filter (!·.isEmpty)).getD (aggregate.name ++ " of " ++ b.column)
  return ⟨.dict [("type", .text "metric"), ("value", value), ("label", .text label),
      ("format", .text b.format)],
    "Metric block query: " ++ aggregate.name ++ "(" ++ b.column ++ ")"⟩

def joinNote : Option JoinSpec → String
  | some j => " (joined with " ++ j.table ++ ")"
  | none => ""

def runQuery (p : Reporter) (r : Requester) (s : BlockSource)
    (body : Connection → JoinPlan → Exchange σ BlockAnswer) : Exchange σ Value := do
  let (plan, answer) ← Exchange.readOnly s.database p.timeout fun c => do
    let plan ← p.plan r c s
    let answer ← body c plan
    return (plan, answer)
  Audit.record (r.auditEntry .reportQuery s.database plan.main.ref (answer.details ++ joinNote s.join))
  return answer.payload

def run (p : Reporter) (r : Requester) (config : BlockConfig) (page : Value) : Exchange σ Value :=
  match config with
  | .text content => return .dict [("type", .text "text"), ("content", .text content)]
  | .table b => p.runQuery r b.source fun c plan => p.runTable c plan b page
  | .chart b => p.runQuery r b.source fun c plan => runChart c plan b
  | .metric b => p.runQuery r b.source fun c plan => runMetric c plan b

/-- A block of the requester; another's looks like none. -/
def ownedBlock (blocks : BlockStore) (r : Requester) (id : String) : Result ReportBlock :=
  match blocks.get id with
  | some b => if b.owner == r.user.id then .ok b else refuse .blockNotFound
  | none => refuse .blockNotFound

def runBlock (p : Reporter) (blocks : BlockStore) (r : Requester) (id : String) (page : Value) :
    Exchange σ Value := do
  let b ← Exchange.lift (ownedBlock blocks r id)
  let config ← Exchange.lift (BlockConfig.parse b.kind (.dict b.config))
  p.run r config page

end Reporter

end TableSteward

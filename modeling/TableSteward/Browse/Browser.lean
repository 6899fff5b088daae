import TableSteward.Database.Audit
import TableSteward.Database.Page
import TableSteward.Export.Stream
import TableSteward.Store.Settings

/-!
# Browsing tables

What a requester may do with the tables of a database: list them and their columns, read them page by page
and export them.  Every operation looks the table up in the catalog, asks the gate and compiles filters and
order before it counts and reads rows.
-/
set_option autoImplicit false

namespace TableSteward

structure Requester where
  user : User
  grants : List Grant
  ip : Value := .null

structure Browser where
  policy : Policy
  settings : SettingsStore
  pageSize : Int := 50
  batchSize : Int := 1000
  timeout : Value := .int 30000

structure Prepared where
  ref : TableRef
  columns : List Value
  query : TableQuery

structure Download (σ : Type) where
  fileName : String
  stream : TextStream σ

structure TableRequest where
  database : String
  table : String
  filters : List FilterSpec := []
  sort : List SortSpec := []

def describeFilters (fs : List FilterSpec) : String :=
  if fs.isEmpty then "none"
  else commaList (fs.map fun f => f.column ++ " " ++ f.operator ++ " " ++ f.value.display)

def Requester.auditEntry (r : Requester) (action : AuditAction) (database : String) (table : TableRef)
    (details : String) : AuditEntry :=
  ⟨r.user.id, r.user.email, action.name, .text database, .text table.fullName, .text details, r.ip⟩

namespace Browser

def gate (b : Browser) (r : Requester) : Gate := ⟨b.policy, r.user, r.grants, some b.settings.isVisible⟩

def listingValue (b : Browser) (database : String) (l : Listing) : Value :=
  let settings := b.settings.get database l.fullName
  .dict [("schema", l.schema), ("name", l.table), ("fullName", .text l.fullName),
    ("displayName", .ofOption (settings.bind TableSettings.displayName)),
    ("isVisible", .bool ((settings.map TableSettings.isVisible).getD true))]

variable {σ : Type} [Server σ]

def listTables (b : Browser) (r : Requester) (database : String) : Exchange σ (List Value) := do
  let listing ← Exchange.readOnly database b.timeout fun c => Catalog.listTables c
  let shown ← Exchange.lift ((b.gate r).browsable database listing)
  return shown.map (b.listingValue database)

def authorize (b : Browser) (r : Requester) (c : Connection) (database table : String) :
    Exchange σ TableRef :=
  (b.gate r).authorize false (Catalog.tableExists c) database (.text table)

def listColumns (b : Browser) (r : Requester) (database table : String) : Exchange σ (List ColumnInfo) :=
  Exchange.readOnly database b.timeout fun c => do
    let ref ← b.authorize r c database table
    Catalog.columnInfo c ref

def prepare (b : Browser) (r : Requester) (c : Connection) (q : TableRequest) : Exchange σ Prepared := do
  let ref ← b.authorize r c q.database q.table
  let columns ← Catalog.columns c ref
  let plan : JoinPlan := ⟨⟨.main, ref, columns⟩, []⟩
  let conditions ← Exchange.lift (Where.ofFilters plan.resolve q.filters)
  let key ← Catalog.primaryKey c ref
  let tieBreakers ← Exchange.lift (JoinPlan.defaultOrder key)
  let order ← Exchange.lift (orderTerms q.sort plan.resolve tieBreakers)
  return ⟨ref, columns, ⟨plan, conditions, .mainTable, order⟩⟩

def fetchPage (b : Browser) (r : Requester) (q : TableRequest) (page : Value) :
    Exchange σ (Prepared × Page) :=
  Exchange.readOnly q.database b.timeout fun c => do
    let prepared ← b.prepare r c q
    let page ← Page.fetch c (.table prepared.query) page b.pageSize
    return (prepared, page)

def fetchRows (b : Browser) (r : Requester) (q : TableRequest) (page : Value) : Exchange σ Page := do
  let (prepared, page) ← b.fetchPage r q page
  Audit.record <| r.auditEntry .viewData q.database prepared.ref <|
    "Viewed page " ++ toString page.number ++ " of " ++ toString page.pages ++ " (" ++
    toString page.rows.length ++ " rows); filters: " ++ describeFilters q.filters
  return page

def prepareCount (b : Browser) (r : Requester) (q : TableRequest) : Exchange σ (Prepared × Int) :=
  Exchange.readOnly q.database b.timeout fun c => do
    let prepared ← b.prepare r c q
    let total ← Page.countRows c (.table prepared.query)
    return (prepared, total)

def exportCheck (b : Browser) (r : Requester) (q : TableRequest) : Exchange σ ExportCheck := do
  let (_, total) ← b.prepareCount r { q with sort := [] }
  Exchange.lift (b.policy.checkExport r.user.role total)

def exportPage (b : Browser) (r : Requester) (q : TableRequest) (page : Value) :
    Exchange σ (Download σ) := do
  let (prepared, page) ← b.fetchPage r q page
  Audit.record <| r.auditEntry .exportPage q.database prepared.ref <|
    "Exported page " ++ toString page.number ++ " (" ++ toString page.rows.length ++
    " rows); filters: " ++ describeFilters q.filters
  return ⟨prepared.ref.table.name ++ "_page" ++ toString page.number ++ ".csv",
    .records prepared.columns false page.rows⟩

/-- All rows as a download, which is refused before it begins if they are too many. -/
def exportAll (b : Browser) (r : Requester) (q : TableRequest) : Exchange σ (Download σ) := do
  let (prepared, total) ← b.prepareCount r q
  Exchange.lift (b.policy.enforce r.user.role total)
  Exchange.usePool q.database
  let complete (written : Nat) : Exchange σ Unit :=
    Audit.record <| r.auditEntry .exportAll q.database prepared.ref <|
      "Exported all " ++ toString written ++ " rows; filters: " ++ describeFilters q.filters
  let stream ← Exchange.lift <| TextStream.ofQuery
    ⟨.browsed q.database, .table prepared.query, prepared.columns, b.batchSize, complete⟩
    total b.policy.absoluteCeiling
  return ⟨prepared.ref.table.name ++ "_export.csv", stream⟩

end Browser

end TableSteward

import TableSteward.Http.Endpoint
import TableSteward.Service.Documents

/-!
# Databases, tables and rows over the network
-/
set_option autoImplicit false

namespace TableSteward.Http

variable {σ : Type} [Server σ]

/-- The names of the databases, never their addresses. -/
def databases (r : Request) (_ : List String) : Handler σ Response := do
  discard r.requester
  let names := (← Handler.state).link.pools.names
  Handler.succeed (.dict [("databases", .list (names.map fun n => .dict [("name", .text n)]))])

def tables (r : Request) (places : List String) : Handler σ Response := do
  let requester ← r.requester
  let browser := (← Handler.state).browser
  let listed ← Handler.link (browser.listTables requester (place places 0))
  Handler.succeed (.dict [("tables", .list listed)])

def columnValue (c : ColumnInfo) : Result Value := do
  let texts : Checked (String × String) :=
    Prod.mk <$> Checked.within (.field "name") (Checked.text c.name)
      <*> Checked.within (.field "dataType") (Checked.text c.dataType)
  let (name, dataType) ← texts.run
  return .dict [("name", .text name), ("dataType", .text dataType), ("isNullable", .bool c.nullable),
    ("isPrimaryKey", .bool c.primaryKey)]

def columns (r : Request) (places : List String) : Handler σ Response := do
  let requester ← r.requester
  let browser := (← Handler.state).browser
  let found ← Handler.link (browser.listColumns requester (place places 0) (place places 1))
  let values ← Handler.lift (found.mapM columnValue)
  Handler.succeed (.list values)

/-! ## Settings -/

def tableSettings (r : Request) (_ : List String) : Handler σ Response := do
  discard r.requester
  Handler.succeed (← Handler.state).settings.toValue

structure SettingsChange where
  database : String
  table : String
  settings : TableSettings

def SettingsChange.fields (es : Entries Value) : Checked SettingsChange :=
  SettingsChange.mk <$> Checked.required es ["database"] Checked.text
    <*> Checked.required es ["tableName", "table_name"] Checked.text
    <*> TableSettings.fields es

def changeTableSettings (r : Request) (_ : List String) (body : Option Value) : Handler σ Response := do
  discard r.admin
  let change ← inBody body (bodyRecord SettingsChange.fields)
  let table ← Handler.lift (TableRef.ofText change.table)
  Handler.act (Service.setSettings change.database table.fullName change.settings)
  Handler.confirm [("key", .text (SettingsStore.key change.database table.fullName)),
    ("settings", change.settings.toValue)]

/-! ## Rows -/

def filterList : Value → Checked (List FilterSpec) := Checked.list (FilterSpec.check .body)

def sortList : Value → Checked (List SortSpec) := Checked.list (SortSpec.check .body)

def rowsFields (es : Entries Value) : Checked (TableRequest × Int) :=
  (fun database table page filters sort => (⟨database, table, filters, sort⟩, page))
    <$> Checked.required es ["database"] Checked.text
    <*> Checked.required es ["table"] Checked.text
    <*> Checked.withDefault es ["page"] 1 Checked.integer
    <*> Checked.withDefault es ["filters"] [] filterList
    <*> Checked.withDefault es ["sort"] [] sortList

def rows (r : Request) (_ : List String) (body : Option Value) : Handler σ Response := do
  let requester ← r.requester
  let (request, page) ← inBody body (bodyRecord rowsFields)
  let browser := (← Handler.state).browser
  let page ← Handler.link (browser.fetchRows requester request (.int page))
  Handler.succeed page.toValue

def tableEndpoints : List (Endpoint σ) :=
  [.get (path ["api", "databases"]) databases,
   .get (path ["api", "tables", "*"]) tables,
   .get (path ["api", "columns", "*", "*"]) columns,
   .get (path ["api", "table-settings"]) tableSettings,
   .post (path ["api", "admin", "table-settings"]) changeTableSettings,
   .post (path ["api", "rows"]) rows]

end TableSteward.Http

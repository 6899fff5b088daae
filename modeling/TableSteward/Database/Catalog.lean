import TableSteward.Access.Gate
import TableSteward.Database.Link

/-!
# The catalog

What a database says about its tables, asked anew for every request.
-/
set_option autoImplicit false

namespace TableSteward

namespace Row

def cell (row : Row) (column : String) : Result Value :=
  match row.get? column with
  | some v => .ok v
  | none => .error (.missingKey column)

def first : Row → Result Value
  | (_, v) :: _ => .ok v
  | [] => .error .tooShort

end Row

structure ColumnInfo where
  name : Value
  dataType : Value
  nullable : Bool
  primaryKey : Bool
  deriving Repr

namespace Catalog

variable {σ : Type} [Server σ]

def tableExists (c : Connection) (t : TableRef) : Exchange σ Bool := do
  let rows ← Exchange.execute c (.tableExists t)
  return !rows.isEmpty

def listTables (c : Connection) : Exchange σ (List Listing) := do
  let rows ← Exchange.execute c .listTables
  Exchange.lift <| rows.mapM fun row => do
    let schema ← row.cell "table_schema"
    let table ← row.cell "table_name"
    return ⟨schema, table⟩

/-- The names of the columns of a table, in order; none if the table is missing. -/
def columns (c : Connection) (t : TableRef) : Exchange σ (List Value) := do
  let rows ← Exchange.execute c (.columns t)
  Exchange.lift (rows.mapM fun row => row.cell "column_name")

def primaryKey (c : Connection) (t : TableRef) : Exchange σ (List Value) := do
  let rows ← Exchange.execute c (.primaryKey t)
  Exchange.lift (rows.mapM Row.first)

def isYes : Value → Bool
  | .text s => s == "YES"
  | _ => false

def columnInfo (c : Connection) (t : TableRef) : Exchange σ (List ColumnInfo) := do
  let rows ← Exchange.execute c (.columns t)
  let key ← primaryKey c t
  if !key.all Value.isKey then Exchange.fail .notAKey
  Exchange.lift <| rows.mapM fun row => do
    let name ← row.cell "column_name"
    let dataType ← row.cell "data_type"
    let nullable ← row.cell "is_nullable"
    if !name.isKey then throw .notAKey
    return ⟨name, dataType, isYes nullable, key.any name.sameKey⟩

def joinSource (c : Connection) (g : Gate) (bypass : Bool) (database : String) : JoinSource (Exchange σ) where
  authorize name := g.authorize bypass (tableExists c) database (.text name)
  columnsOf t := columns c t

end Catalog

end TableSteward

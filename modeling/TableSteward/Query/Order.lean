import TableSteward.Query.Join

/-!
# Order of results

A query is ordered by the columns that a request sorts by, in the first direction given for each, and then
by tie-breakers: the primary key of the main table, or the physical row if the table has none.
-/
set_option autoImplicit false

namespace TableSteward

structure SortSpec where
  column : String
  direction : String
  deriving Repr

namespace SortSpec

def check (origin : Origin) : Value → Checked SortSpec :=
  Checked.recordIn origin "SortSpec" fun es =>
    SortSpec.mk <$> Checked.required es ["column"] Checked.text
      <*> Checked.withDefault es ["direction"] "asc" Checked.text

def toValue (s : SortSpec) : Value :=
  .dict [("column", .text s.column), ("direction", .text s.direction)]

end SortSpec

inductive OrderKey
  | column (e : ColumnExpr)
  /-- The place of a row in the storage of its table. -/
  | rowId (slot : Slot)
  deriving DecidableEq, Repr

namespace OrderKey

def sql : OrderKey → String
  | column e => e.sql
  | rowId slot => slot.tableAlias ++ ".ctid"

end OrderKey

structure OrderTerm where
  key : OrderKey
  descending : Bool
  deriving Repr

def OrderTerm.sql (t : OrderTerm) : String := t.key.sql ++ (if t.descending then " DESC" else " ASC")

namespace OrderTerm

def isDescending (direction : String) : Bool := Text.lower direction == "desc"

def distinctFrom (used : List OrderKey) : List OrderTerm → List OrderTerm
  | [] => []
  | t :: rest =>
      if used.contains t.key then distinctFrom used rest else t :: distinctFrom (t.key :: used) rest

def distinct (terms : List OrderTerm) : List OrderTerm := distinctFrom [] terms

def ofSort (resolve : Resolver) (s : SortSpec) : Result OrderTerm := do
  let column ← resolve s.column
  return ⟨.column column, isDescending s.direction⟩

end OrderTerm

def orderTerms (sort : List SortSpec) (resolve : Resolver) (tieBreakers : List OrderKey) :
    Result (List OrderTerm) := do
  let terms ← sort.mapM (OrderTerm.ofSort resolve)
  return OrderTerm.distinct (terms ++ tieBreakers.map fun k => ⟨k, false⟩)

def orderSql (terms : List OrderTerm) : String := commaList (terms.map OrderTerm.sql)

/-- The primary key of the main table, or the physical row. -/
def JoinPlan.defaultOrder (primaryKey : List Value) : Result (List OrderKey) :=
  match primaryKey with
  | [] => .ok [.rowId .main]
  | names => names.mapM fun name => do
      let column ← Identifier.ofValue Identifier.columnRole name
      return .column ⟨some .main, column⟩

end TableSteward

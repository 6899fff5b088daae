import TableSteward.Query.Order
import TableSteward.Query.Where
import TableSteward.Value.Integer

/-!
# Queries of a table

A `TableQuery` is the shape that a count, a page and an export of a table share.  `QueryText` is its text in
parts, from which the statements are put together.
-/
set_option autoImplicit false

namespace TableSteward

/-- The parts of a query text; `conditions` stands without its keyword. -/
structure QueryText where
  source : String
  conditions : String := ""
  columns : String := "*"
  order : String := ""
  params : Entries Value := []
  deriving Repr

structure Window where
  limit : Option Int := none
  /-- An offset of zero, if given, is written; a window without an offset has none. -/
  offset : Option Int := none
  deriving DecidableEq, Repr

namespace Window

def all : Window := {}

/-- A window given by values: null is no limit, and a value that counts as false is no offset. -/
def ofValues (limit offset : Value) : Result Window := do
  let limit ← if limit.isNull then pure none else some <$> limit.toInteger
  let offset ← if offset.truthy then some <$> offset.toInteger else pure none
  return ⟨limit, offset⟩

def page (size start : Int) : Window := ⟨some size, if start = 0 then none else some start⟩

def parts (w : Window) : List String :=
  (match w.limit with | some n => ["LIMIT " ++ toString n] | none => []) ++
  (match w.offset with | some n => ["OFFSET " ++ toString n] | none => [])

end Window

namespace QueryText

def clause (q : QueryText) : List String :=
  if q.conditions.isEmpty then [] else ["WHERE " ++ q.conditions]

def count (q : QueryText) : String :=
  " ".intercalate
    (["SELECT COUNT(*) AS count FROM"] ++ (if q.source.isEmpty then [] else [q.source]) ++ q.clause)

def select (q : QueryText) (w : Window) : String :=
  " ".intercalate
    (["SELECT " ++ q.columns ++ " FROM " ++ q.source] ++ q.clause ++
     (if q.order.isEmpty then [] else ["ORDER BY " ++ q.order]) ++ w.parts)

end QueryText

inductive Selection
  | mainTable
  | items (first : SelectItem) (rest : List SelectItem)
  deriving Repr

namespace Selection

def ofItems : List SelectItem → Selection
  | [] => mainTable
  | first :: rest => items first rest

def sql : Selection → String
  | mainTable => Slot.main.tableAlias ++ ".*"
  | items first rest => commaList ((first :: rest).map SelectItem.sql)

end Selection

structure TableQuery where
  plan : JoinPlan
  conditions : Where
  selection : Selection
  order : List OrderTerm
  deriving Repr

def TableQuery.text (q : TableQuery) : QueryText :=
  { source := q.plan.fromSql
    conditions := q.conditions.sql
    columns := q.selection.sql
    order := orderSql q.order
    params := q.conditions.params }

end TableSteward

import TableSteward.Query.Bound
import TableSteward.Query.Column
import TableSteward.Query.Filter

/-!
# Conditions of a query

A `Where` is a conjunction of conditions on columns.  Its text holds identifiers, operators and the names of
parameters; all values are bound to those parameters.  The parameters are `p1`, `p2` and so on, after an
offset, in the order in which the text mentions them.
-/
set_option autoImplicit false

namespace TableSteward

inductive Condition
  | compare (column : ColumnExpr) (operator : Comparison) (value : Value)
  | contains (column : ColumnExpr) (pattern : String)
  | between (column : ColumnExpr) (low high : Value)
  | oneOf (column : ColumnExpr) (values : List Value)
  deriving Repr

def paramName (n : Int) : String := "p" ++ toString n

def placeholder (n : Int) : String := ":" ++ paramName n

namespace Condition

def bound : Condition → List Value
  | compare _ _ v => [v]
  | contains _ pattern => [.text pattern]
  | between _ low high => [low, high]
  | oneOf _ vs => [.list vs]

/-- The text, with parameters from the `n`-th on. -/
def sql (n : Int) : Condition → String
  | compare column operator _ => column.sql ++ " " ++ operator.sql ++ " " ++ placeholder n
  | contains column _ => "CAST(" ++ column.sql ++ " AS TEXT) ILIKE " ++ placeholder n
  | between column _ _ => column.sql ++ " BETWEEN " ++ placeholder n ++ " AND " ++ placeholder (n + 1)
  | oneOf column _ => column.sql ++ " = ANY(" ++ placeholder n ++ ")"

def escapeChar (c : Char) : List Char :=
  if c == '\\' || c == '%' || c == '_' then ['\\', c] else [c]

def containsPattern (s : String) : String :=
  String.ofList ('%' :: s.toList.flatMap escapeChar ++ ['%'])

def ofFilter (f : FilterSpec) (column : ColumnExpr) : Operator → Result Condition
  | .between => do
      match ← f.scalars with
      | [low, high] =>
          let low ← Bound.ofValue low false
          let high ← Bound.ofValue high true
          return between column low high
      | vs => refuse (.invalidValue (.needsTwoValues f.column vs.length))
  | .oneOf => do
      match ← f.scalars with
      | [] => refuse (.invalidValue (.needsSomeValue f.column))
      | vs => return oneOf column vs
  | .contains => do
      let v ← f.scalar
      return contains column (containsPattern v.display)
  | .compare c => do
      let v ← f.scalar
      let v ← Bound.ofValue v c.isUpper
      return compare column c v

end Condition

structure Where where
  conditions : List Condition := []
  /-- The number of the last parameter in use elsewhere. -/
  offset : Int := 0
  deriving Repr

namespace Where

def sqlFrom : Int → List Condition → List String
  | _, [] => []
  | n, c :: rest => c.sql n :: sqlFrom (n + (c.bound.length : Int)) rest

def numbered : Int → List Value → Entries Value
  | _, [] => []
  | n, v :: rest => (paramName n, v) :: numbered (n + 1) rest

def sql (w : Where) : String := " AND ".intercalate (sqlFrom (w.offset + 1) w.conditions)

def clause (w : Where) : String := if w.conditions.isEmpty then "" else "WHERE " ++ w.sql

def params (w : Where) : Entries Value :=
  numbered (w.offset + 1) (w.conditions.flatMap Condition.bound)

/-- The condition of one filter: its operator is examined first, then its column, then its value. -/
def condition (resolve : Resolver) (f : FilterSpec) : Result Condition := do
  let operator ← Operator.ofName f.operator
  let column ← resolve f.column
  Condition.ofFilter f column operator

def ofFilters (resolve : Resolver) (filters : List FilterSpec) : Result Where := do
  let conditions ← filters.mapM (condition resolve)
  return ⟨conditions, 0⟩

def ofValues (resolve : Resolver) (filters : List Value) (offset : Int) : Result Where := do
  let conditions ← filters.mapM fun v => do
    let f ← (FilterSpec.check .document v).run
    condition resolve f
  return ⟨conditions, offset⟩

end Where

end TableSteward

import TableSteward.Query.TableQuery

/-!
# Charts and metrics

A chart pairs labels with values: rows as they are, or aggregates of groups.  Groups are formed by a column
or by the Pacific day, week, month, quarter or year of a time stamp in UTC.  A metric is one aggregate.
-/
set_option autoImplicit false

namespace TableSteward

inductive Aggregate
  | count
  | sum
  | avg
  | min
  | max
  deriving DecidableEq, Repr

namespace Aggregate

def name : Aggregate → String
  | count => "COUNT"
  | sum => "SUM"
  | avg => "AVG"
  | min => "MIN"
  | max => "MAX"

def all : List Aggregate := [count, sum, avg, min, max]

def ofName? (s : String) : Option Aggregate := all.find? fun a => a.name == Text.upper s

def ofName (s : String) : Result Aggregate :=
  match ofName? s with
  | some a => .ok a
  | none => refuse (.invalidValue (.aggregate s (all.map name)))

def sql (a : Aggregate) (e : ColumnExpr) : String := a.name ++ "(" ++ e.sql ++ ")"

end Aggregate

/-- A stretch of Pacific days by which time stamps are grouped. -/
inductive DateGroup
  | day
  | week
  | month
  | quarter
  | year
  deriving DecidableEq, Repr

namespace DateGroup

def name : DateGroup → String
  | day => "day"
  | week => "week"
  | month => "month"
  | quarter => "quarter"
  | year => "year"

def pattern : DateGroup → String
  | day => "YYYY-MM-DD"
  | week => "IYYY-IW"
  | month => "YYYY-MM"
  | quarter => "YYYY-\"Q\"Q"
  | year => "YYYY"

def all : List DateGroup := [day, week, month, quarter, year]

def ofName? (s : String) : Option DateGroup := all.find? fun g => g.name == s

def label (g : DateGroup) (expr : String) : String :=
  "TO_CHAR((" ++ expr ++ " AT TIME ZONE 'UTC' AT TIME ZONE 'America/Los_Angeles'), '" ++ g.pattern ++ "')"

end DateGroup

inductive GroupLabel
  | column (e : ColumnExpr)
  | stretch (g : DateGroup) (e : ColumnExpr)
  deriving Repr

def GroupLabel.sql : GroupLabel → String
  | column e => e.sql
  | stretch g e => g.label e.sql

inductive ChartShape
  | grouped (label : GroupLabel) (aggregate : Aggregate) (value : ColumnExpr)
  | plain (label value : ColumnExpr) (order : List OrderKey)
  deriving Repr

/-- No chart has more points. -/
def chartLimit : Nat := 500

structure ChartQuery where
  plan : JoinPlan
  conditions : Where
  shape : ChartShape
  deriving Repr

namespace ChartShape

def columns : ChartShape → String
  | grouped label aggregate value => label.sql ++ " AS label, " ++ aggregate.sql value ++ " AS value"
  | plain label value _ => label.sql ++ " AS label, " ++ value.sql ++ " AS value"

def tail : ChartShape → String
  | grouped label _ _ => "GROUP BY " ++ label.sql ++ " ORDER BY " ++ label.sql
  | plain _ _ order => "ORDER BY " ++ commaList (order.map OrderKey.sql)

end ChartShape

def Where.suffix (w : Where) : String := if w.conditions.isEmpty then "" else " " ++ w.clause

def ChartQuery.sql (c : ChartQuery) : String :=
  "SELECT " ++ c.shape.columns ++ " FROM " ++ c.plan.fromSql ++ c.conditions.suffix ++ " " ++
  c.shape.tail ++ " LIMIT " ++ toString chartLimit

structure MetricQuery where
  plan : JoinPlan
  conditions : Where
  aggregate : Aggregate
  column : ColumnExpr
  deriving Repr

def MetricQuery.sql (q : MetricQuery) : String :=
  "SELECT " ++ q.aggregate.sql q.column ++ " AS value FROM " ++ q.plan.fromSql ++ q.conditions.suffix

end TableSteward

import TableSteward.Proofs.ConditionReading
import TableSteward.Proofs.Request

/-!
# Versions

Two versions of a request filter the same columns by the same operators and compare them with different values: other
numbers, other dates, lists of another length.  The text of a condition is a function of its column and its operator
alone, and so is the number of its parameters.  Hence whatever is put together from the conditions of the one version
has the words of what is put together from those of the other, and parameters of the same names.
-/
set_option autoImplicit false

namespace TableSteward

/-! ## Versions of what is asked for -/

/-- The same filter, whatever it compares with. -/
structure FilterSpec.Version (f g : FilterSpec) : Prop where
  column : f.column = g.column
  operator : f.operator = g.operator

inductive TableRequest.Version (q : TableRequest) : TableRequest → Prop
  | mk {filters : List FilterSpec} : List.Forall₂ FilterSpec.Version q.filters filters →
      Version q { q with filters := filters }

theorem TableRequest.Version.database {q q' : TableRequest} (h : q.Version q') : q.database = q'.database := by
  obtain ⟨-⟩ := h
  rfl

inductive BlockSource.Version (s : BlockSource) : BlockSource → Prop
  | mk {filters : List FilterSpec} : List.Forall₂ FilterSpec.Version s.filters filters →
      Version s { s with filters := filters }

inductive BlockConfig.Version : BlockConfig → BlockConfig → Prop
  | table {b : TableBlock} {s : BlockSource} : b.source.Version s →
      Version (.table b) (.table { b with source := s })
  | chart {b : ChartBlock} {s : BlockSource} : b.source.Version s →
      Version (.chart b) (.chart { b with source := s })
  | metric {b : MetricBlock} {s : BlockSource} : b.source.Version s →
      Version (.metric b) (.metric { b with source := s })
  | text (content : String) : Version (.text content) (.text content)

/-! ## Conditions -/

/-- How a condition with this operator is written, with parameters from the `n`-th on. -/
def Operator.condition (column : ColumnExpr) (n : Int) : Operator → String
  | .compare c => column.sql ++ " " ++ c.sql ++ " " ++ placeholder n
  | .contains => "CAST(" ++ column.sql ++ " AS TEXT) ILIKE " ++ placeholder n
  | .between => column.sql ++ " BETWEEN " ++ placeholder n ++ " AND " ++ placeholder (n + 1)
  | .oneOf => column.sql ++ " = ANY(" ++ placeholder n ++ ")"

def Operator.parameters : Operator → Nat
  | .between => 2
  | _ => 1

namespace Condition

theorem sql_eq (c : Condition) (n : Int) : c.sql n = c.operator.condition c.column n := by
  cases c <;> rfl

theorem length_bound_eq (c : Condition) : c.bound.length = c.operator.parameters := by
  cases c <;> rfl

/-- The same condition, whatever its values. -/
structure Alike (c d : Condition) : Prop where
  column : c.column = d.column
  operator : c.operator = d.operator

variable {c d : Condition}

theorem Alike.sql (h : c.Alike d) (n : Int) : c.sql n = d.sql n := by
  rw [sql_eq, sql_eq, h.column, h.operator]

theorem Alike.length_bound (h : c.Alike d) : c.bound.length = d.bound.length := by
  rw [length_bound_eq, length_bound_eq, h.operator]

end Condition

namespace Where

structure Alike (w w' : Where) : Prop where
  offset : w.offset = w'.offset
  conditions : List.Forall₂ Condition.Alike w.conditions w'.conditions

variable {cs ds : List Condition} {w w' : Where}

theorem sqlFrom_eq_of_alike (h : List.Forall₂ Condition.Alike cs ds) :
    ∀ n, sqlFrom n cs = sqlFrom n ds := by
  induction h with
  | nil => intro n; rfl
  | @cons c d cs ds hcd _ ih =>
      intro n
      rw [sqlFrom, sqlFrom, hcd.sql, hcd.length_bound, ih]

theorem length_bound_of_alike (h : List.Forall₂ Condition.Alike cs ds) :
    (cs.flatMap Condition.bound).length = (ds.flatMap Condition.bound).length := by
  induction h with
  | nil => rfl
  | cons hcd _ ih => rw [List.flatMap_cons, List.flatMap_cons, List.length_append, List.length_append,
      hcd.length_bound, ih]

theorem isEmpty_of_alike (h : List.Forall₂ Condition.Alike cs ds) : cs.isEmpty = ds.isEmpty := by
  cases h <;> rfl

/-- The names of parameters depend on their number only. -/
theorem keys_numbered_congr :
    ∀ {vs ws : List Value} (n : Int), vs.length = ws.length → (numbered n vs).keys = (numbered n ws).keys := by
  intro vs
  induction vs with
  | nil =>
      intro ws n h
      rw [List.length_eq_zero_iff.mp h.symm]
  | cons v vs ih =>
      intro ws n h
      cases ws with
      | nil => exact nomatch h
      | cons u ws => exact congrArg (paramName n :: ·) (ih (n + 1) (Nat.succ.inj h))

namespace Alike

theorem sql (h : w.Alike w') : w.sql = w'.sql := by
  unfold Where.sql
  rw [h.offset, sqlFrom_eq_of_alike h.conditions]

theorem suffix (h : w.Alike w') : w.suffix = w'.suffix := by
  unfold Where.suffix Where.clause
  rw [isEmpty_of_alike h.conditions, h.sql]

theorem keys (h : w.Alike w') : w.params.keys = w'.params.keys := by
  unfold Where.params
  rw [h.offset]
  exact keys_numbered_congr _ (length_bound_of_alike h.conditions)

end Alike

end Where

/-! ## Statements -/

namespace Statement

/-- The statement as it is for another page of the same rows. -/
def onPage (w : Window) : Statement → Statement
  | .page q _ => .page q w
  | s => s

/-- The same text, if only they are for the same page, and parameters of the same names. -/
structure SameWords (s t : Statement) : Prop where
  text : ∀ w, (s.onPage w).text = (t.onPage w).text
  keys : s.params.keys = t.params.keys

end Statement

inductive TableQuery.Alike (q : TableQuery) : TableQuery → Prop
  | mk {conditions : Where} : q.conditions.Alike conditions → Alike q { q with conditions := conditions }

inductive ChartQuery.Alike (q : ChartQuery) : ChartQuery → Prop
  | mk {conditions : Where} : q.conditions.Alike conditions → Alike q { q with conditions := conditions }

inductive MetricQuery.Alike (q : MetricQuery) : MetricQuery → Prop
  | mk {conditions : Where} : q.conditions.Alike conditions → Alike q { q with conditions := conditions }

/-- The text is the same but for the values of its parameters. -/
theorem TableQuery.Alike.text {q q' : TableQuery} (h : q.Alike q') :
    q'.text = { q.text with params := q'.conditions.params } := by
  obtain ⟨hconditions⟩ := h
  unfold TableQuery.text
  rw [hconditions.sql]

theorem TableQuery.Alike.keys {q q' : TableQuery} (h : q.Alike q') :
    q.conditions.params.keys = q'.conditions.params.keys := by
  obtain ⟨hconditions⟩ := h
  exact hconditions.keys

namespace Statement

variable {q q' : TableQuery}

end Statement

end TableSteward

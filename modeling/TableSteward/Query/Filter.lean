import TableSteward.Document.Checked
import TableSteward.Fault

/-!
# Filters

A filter is a column, an operator and a value, as a client or a stored document gives it.
-/
set_option autoImplicit false

namespace TableSteward

inductive Comparison
  | eq
  | gt
  | gte
  | lt
  | lte
  deriving DecidableEq, Repr

namespace Comparison

def name : Comparison → String
  | eq => "eq"
  | gt => "gt"
  | gte => "gte"
  | lt => "lt"
  | lte => "lte"

def sql : Comparison → String
  | eq => "="
  | gt => ">"
  | gte => ">="
  | lt => "<"
  | lte => "<="

def isUpper : Comparison → Bool
  | lt | lte => true
  | _ => false

end Comparison

inductive Operator
  | compare (c : Comparison)
  | contains
  | between
  | oneOf
  deriving DecidableEq, Repr

namespace Operator

def name : Operator → String
  | compare c => c.name
  | contains => "contains"
  | between => "between"
  | oneOf => "in"

def all : List Operator :=
  [compare .eq, contains, compare .gt, compare .gte, compare .lt, compare .lte, between, oneOf]

def ofName? (s : String) : Option Operator := all.find? fun op => op.name == s

def ofName (s : String) : Result Operator :=
  match ofName? s with
  | some op => .ok op
  | none => refuse (.invalidOperator s)

def ofValue : Value → Result Operator
  | .text s => ofName s
  | v => refuse (.invalidOperator v.display)

end Operator

structure FilterSpec where
  column : String
  operator : String
  value : Value
  deriving Repr

/-- Where a document comes from: a record that is no dictionary is reported in other words in the body of a
request. -/
inductive Origin
  | document
  | body
  deriving DecidableEq, Repr

def Checked.recordIn {α : Type} (origin : Origin) (name : String)
    (fields : List (String × Value) → Checked α) : Value → Checked α
  | .dict es => fields es
  | _ => complain (match origin with | .document => .notRecord name | .body => .notBody)

namespace FilterSpec

def check (origin : Origin) : Value → Checked FilterSpec :=
  Checked.recordIn origin "FilterSpec" fun es =>
    FilterSpec.mk <$> Checked.required es ["column"] Checked.text
      <*> Checked.required es ["operator"] Checked.text
      <*> Checked.withDefault es ["value"] .null Checked.any

def toValue (f : FilterSpec) : Value :=
  .dict [("column", .text f.column), ("operator", .text f.operator), ("value", f.value)]

def scalar (f : FilterSpec) : Result Value :=
  if f.value.isScalar then .ok f.value
  else refuse (.invalidValue (.needsOneValue f.operator f.column))

def scalars (f : FilterSpec) : Result (List Value) :=
  let wrong := refuse (.invalidValue (.needsList f.operator f.column))
  match f.value with
  | .list vs => if vs.all Value.isScalar then .ok vs else wrong
  | _ => wrong

end FilterSpec

def Checked.run {α : Type} : Checked α → Result α
  | .ok a => .ok a
  | .wrong is => .error (.invalid is)

end TableSteward

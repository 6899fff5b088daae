import TableSteward.Name.Identifier

/-!
# Columns in query text

A column expression is an identifier, or one behind the alias of a table.  Requests name columns by texts,
which a resolver turns into expressions.
-/
set_option autoImplicit false

namespace TableSteward

structure ColumnExpr where
  slot : Option Slot
  column : Identifier
  deriving DecidableEq, Repr

namespace ColumnExpr

def sql (e : ColumnExpr) : String :=
  match e.slot with
  | some slot => slot.tableAlias ++ "." ++ e.column.sql
  | none => e.column.sql

end ColumnExpr

abbrev Resolver := String → Result ColumnExpr

def Resolver.ofColumns (known : List Value) : Resolver := fun name => do
  let column ← Identifier.knownColumn name known "table"
  return ⟨none, column⟩

end TableSteward

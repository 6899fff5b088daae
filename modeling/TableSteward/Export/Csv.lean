import TableSteward.Fault
import TableSteward.Json.Writer
import TableSteward.Value.Equality

/-!
# Comma-separated text

A record is a line of fields with commas between them.  A field that holds a comma, a quote or a line end
is written in quotes, with the quotes in it doubled.
-/
set_option autoImplicit false

namespace TableSteward

abbrev Row := Entries Value

namespace Csv

/-- The text of a cell before it is quoted: nothing for null, `true` and `false`, a document for a list or
a dictionary, and otherwise the text of the plain value. -/
def cellText : Value → Result String
  | .null => .ok ""
  | .bool b => .ok (if b then "true" else "false")
  | .list items => .ok (Value.list items).lineText
  | .dict entries => .ok (Value.dict entries).lineText
  | v =>
      match v.plain? with
      | some p => .ok p.display
      | none => .error .unreadableNumber

def isSpecial (c : Char) : Bool := c == ',' || c == '"' || c == '\n' || c == '\r'

def doubleQuotes : List Char → List Char
  | [] => []
  | c :: rest => if c == '"' then '"' :: '"' :: doubleQuotes rest else c :: doubleQuotes rest

def quoteField (s : String) : String :=
  if s.toList.any isSpecial then String.ofList ('"' :: doubleQuotes s.toList ++ ['"']) else s

def field (v : Value) : Result String := do
  let s ← cellText v
  return quoteField s

def line (vs : List Value) : Result String := do
  let fields ← vs.mapM field
  return ",".intercalate fields ++ "\n"

def header (columns : List Value) : Result String := line columns

/-- The cell of a row under a column: null if the row has no such column, and a fault if the column is nothing
that a row could be asked for. -/
def cell (row : Row) (column : Value) : Result Value :=
  if column.isKey then .ok ((column.text?.bind row.get?).getD .null) else .error .notAKey

/-- The record of a row: an absent column is an empty field. -/
def rowLine (columns : List Value) (row : Row) : Result String := do
  let cells ← columns.mapM (cell row)
  line cells

end Csv

def Row.plain (row : Row) : Result Row :=
  row.mapM fun (column, v) =>
    match v.plain? with
    | some p => .ok (column, p)
    | none => .error .unreadableNumber

end TableSteward

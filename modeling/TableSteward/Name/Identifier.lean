import TableSteward.Name.Suggestion
import TableSteward.Text.Blank

/-!
# Identifiers

An identifier is the only kind of name that becomes part of a query text: a letter or underscore and then
letters, digits and underscores, all ASCII and at most 128 of them.  A `TableRef` is a pair of identifiers,
a schema and a table in it.
-/
set_option autoImplicit false

namespace TableSteward

namespace Name

def longest : Nat := 128

def isStart (c : Char) : Bool := c.isAlpha || c == '_'

def isPart (c : Char) : Bool := isStart c || c.isDigit

def isWord : List Char → Bool
  | [] => false
  | c :: rest => isStart c && rest.all isPart

def isIdentifier (s : String) : Bool := s.length ≤ longest && isWord s.toList

end Name

structure Identifier where
  name : String
  isIdentifier : Name.isIdentifier name = true
  deriving DecidableEq, Repr

namespace Identifier

def ofText? (s : String) : Option Identifier :=
  if h : Name.isIdentifier s = true then some ⟨s, h⟩ else none

/-- The identifier that a text is; `role` says in a message what it was to name. -/
def ofText (role s : String) : Result Identifier :=
  match ofText? s with
  | some i => .ok i
  | none => refuse (.invalidIdentifier role s)

def ofValue (role : String) : Value → Result Identifier
  | .text s => ofText role s
  | v => refuse (.invalidIdentifier role v.display)

def sql (i : Identifier) : String := "\"" ++ i.name ++ "\""

def columnRole : String := "column"

end Identifier

structure TableRef where
  schema : Identifier
  table : Identifier
  deriving DecidableEq, Repr

namespace TableRef

def fullName (t : TableRef) : String := t.schema.name ++ "." ++ t.table.name

def sql (t : TableRef) : String := t.schema.sql ++ "." ++ t.table.sql

def defaultSchema : Identifier := ⟨"public", by decide⟩

/-- The table that a text names: `table` or `schema.table`. -/
def ofText (s : String) : Result TableRef :=
  if s.isEmpty then refuse (.invalidIdentifier "table" s)
  else
    match (Text.splitOn '.' s.toList).map String.ofList with
    | [table] => do
        let table ← Identifier.ofText "table" table
        return ⟨defaultSchema, table⟩
    | [schema, table] => do
        let schema ← Identifier.ofText "schema" schema
        let table ← Identifier.ofText "table" table
        return ⟨schema, table⟩
    | _ => refuse (.invalidIdentifier "table" s)

def ofValue : Value → Result TableRef
  | .text s => ofText s
  | v => refuse (.invalidIdentifier "table" v.display)

end TableRef

namespace Identifier

def isAmong (i : Identifier) (known : List Value) : Bool := known.any fun v => v.text? == some i.name

def knownColumn (name : String) (known : List Value) (table : String) : Result Identifier := do
  let column ← ofText columnRole name
  if column.isAmong known then return column
  else
    let names ← known.mapM Name.ofValue
    refuse (.columnNotFound table column.name (Name.suggestions column.name names))

def knownColumnOf (v : Value) (known : List Value) (table : String) : Result Identifier :=
  match v with
  | .text s => knownColumn s known table
  | v => do ofValue columnRole v

end Identifier

end TableSteward

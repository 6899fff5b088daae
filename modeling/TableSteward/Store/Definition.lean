import TableSteward.Query.Filter
import TableSteward.Store.Files

/-!
# Filter definitions

The reusable filters that an administrator offers for a table.
-/
set_option autoImplicit false

namespace TableSteward

structure FilterDefinition where
  id : String
  name : String
  column : String
  operator : String
  deriving DecidableEq, Repr

namespace FilterDefinition

def check (origin : Origin) : Value → Checked FilterDefinition :=
  Checked.recordIn origin "FilterDefinition" fun es =>
    FilterDefinition.mk <$> Checked.required es ["id"] Checked.text
      <*> Checked.required es ["name"] Checked.text
      <*> Checked.required es ["column"] Checked.text
      <*> Checked.required es ["operator"] Checked.text

def toValue (d : FilterDefinition) : Value :=
  .dict [("id", .text d.id), ("name", .text d.name), ("column", .text d.column),
    ("operator", .text d.operator)]

end FilterDefinition

structure DefinitionStore where
  tables : Entries (List FilterDefinition) := []
  deriving Repr

namespace DefinitionStore

def fileName : String := "filters.json"

def get (s : DefinitionStore) (table : String) : List FilterDefinition := (s.tables.get? table).getD []

def set (s : DefinitionStore) (table : String) (ds : List FilterDefinition) : DefinitionStore :=
  ⟨s.tables.put table ds⟩

def toValue (s : DefinitionStore) : Value :=
  .dict (s.tables.map fun (table, ds) => (table, .list (ds.map FilterDefinition.toValue)))

def ofValue (v : Value) : Result DefinitionStore := do
  let es ← v.dictEntries
  let tables ← es.mapM fun (table, ds) => do
    let items ← ds.iterate
    let ds ← items.mapM fun d => (FilterDefinition.check .document d).run
    return (table, ds)
  return ⟨tables⟩

def load (fs : Files) : Result DefinitionStore := do
  let v ← fs.read fileName (.dict [])
  ofValue v

end DefinitionStore

end TableSteward

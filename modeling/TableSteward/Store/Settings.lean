import TableSteward.Access.Gate
import TableSteward.Query.Filter
import TableSteward.Store.Files

/-!
# Table settings

Whether a table is shown, under which name, and which of its columns are hidden.  A table without settings
is shown.
-/
set_option autoImplicit false

namespace TableSteward

structure TableSettings where
  isVisible : Bool
  displayName : Option String
  hiddenColumns : List String
  deriving DecidableEq, Repr

namespace TableSettings

def fields (es : List (String × Value)) : Checked TableSettings :=
  TableSettings.mk <$> Checked.withDefault es ["isVisible", "is_visible"] true Checked.truth
    <*> Checked.withDefault es ["displayName", "display_name"] none (Checked.optional Checked.text)
    <*> Checked.withDefault es ["hiddenColumns", "hidden_columns"] [] (Checked.list Checked.text)

def check (origin : Origin) : Value → Checked TableSettings :=
  Checked.recordIn origin "TableSettings" fields

def toValue (s : TableSettings) : Value :=
  .dict [("isVisible", .bool s.isVisible), ("displayName", .ofOption s.displayName),
    ("hiddenColumns", .texts s.hiddenColumns)]

end TableSettings

/-- Settings by `database:table`. -/
structure SettingsStore where
  entries : Entries TableSettings := []
  deriving Repr

namespace SettingsStore

def fileName : String := "table_settings.json"

def key (database table : String) : String := database ++ ":" ++ table

def get (s : SettingsStore) (database table : String) : Option TableSettings :=
  s.entries.get? (key database table)

def set (s : SettingsStore) (database table : String) (settings : TableSettings) : SettingsStore :=
  ⟨s.entries.put (key database table) settings⟩

def isVisible (s : SettingsStore) : Visibility := fun database table =>
  match s.get database table with
  | some settings => settings.isVisible
  | none => true

def toValue (s : SettingsStore) : Value :=
  .dict (s.entries.map fun (key, settings) => (key, settings.toValue))

def ofValue (v : Value) : Result SettingsStore := do
  let es ← v.dictEntries
  let entries ← es.mapM fun (key, v) => do
    let settings ← (TableSettings.check .document v).run
    return (key, settings)
  return ⟨entries⟩

def load (fs : Files) : Result SettingsStore := do
  let v ← fs.read fileName (.dict [])
  ofValue v

end SettingsStore

end TableSteward

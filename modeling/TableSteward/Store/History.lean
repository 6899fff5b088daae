import TableSteward.Name.Suggestion
import TableSteward.Query.Filter
import TableSteward.Store.Files

/-!
# Filter history

The sets of filters that a user has applied to a table, the most recently used first and only so many for
each table.  Applying a set again, in any order of its filters, moves it to the front.
-/
set_option autoImplicit false

namespace TableSteward

structure HistoryEntry where
  id : String
  userId : String
  database : String
  table : String
  filters : List FilterSpec
  lastUsedAt : String
  deriving Repr

namespace HistoryEntry

def check (origin : Origin) : Value → Checked HistoryEntry :=
  Checked.recordIn origin "FilterHistoryEntry" fun es =>
    HistoryEntry.mk <$> Checked.required es ["id"] Checked.text
      <*> Checked.required es ["userId", "user_id"] Checked.text
      <*> Checked.required es ["database"] Checked.text
      <*> Checked.required es ["table"] Checked.text
      <*> Checked.required es ["filters"] (Checked.list (FilterSpec.check origin))
      <*> Checked.required es ["lastUsedAt", "last_used_at"] Checked.text

def toValue (e : HistoryEntry) : Value :=
  .dict [("id", .text e.id), ("userId", .text e.userId), ("database", .text e.database),
    ("table", .text e.table), ("filters", .list (e.filters.map FilterSpec.toValue)),
    ("lastUsedAt", .text e.lastUsedAt)]

end HistoryEntry

/-- The text by which filters are compared: column, operator and value, with keys in order. -/
def FilterSpec.identity (f : FilterSpec) : String :=
  (Value.list [.text f.column, .text f.operator, f.value]).sorted.lineText

def identities (fs : List FilterSpec) : List String :=
  (fs.map FilterSpec.identity).mergeSort fun a b => a ≤ b

def filtersEqual (a b : List FilterSpec) : Bool := identities a == identities b

structure HistoryScope where
  userId : String
  database : String
  table : String
  deriving DecidableEq, Repr

def HistoryEntry.scope (e : HistoryEntry) : HistoryScope := ⟨e.userId, e.database, e.table⟩

structure HistoryStore where
  /-- How many entries are kept for each table of a user; less than zero leaves that many off. -/
  limit : Int := 5
  entries : List HistoryEntry := []
  deriving Repr

namespace HistoryStore

def fileName : String := "filter_history.json"

/-- Whether `a` comes before `b`: it was used later, or at the same time and stands further back. -/
def before (a b : HistoryEntry × Nat) : Bool :=
  b.1.lastUsedAt < a.1.lastUsedAt || (a.1.lastUsedAt == b.1.lastUsedAt && b.2 ≤ a.2)

def placed (s : HistoryStore) (scope : HistoryScope) : List (HistoryEntry × Nat) :=
  (s.entries.zipIdx.filter fun e => e.1.scope == scope).mergeSort before

def inScope (s : HistoryStore) (scope : HistoryScope) : List HistoryEntry := (s.placed scope).map (·.1)

def recent (s : HistoryStore) (scope : HistoryScope) : List HistoryEntry :=
  Name.takeUpTo s.limit (s.inScope scope)

def overflow (s : HistoryStore) (scope : HistoryScope) : List HistoryEntry :=
  (s.inScope scope).drop (s.recent scope).length

def find? (s : HistoryStore) (scope : HistoryScope) (filters : List FilterSpec) :
    Option (HistoryEntry × Nat) :=
  (s.placed scope).find? fun e => filtersEqual e.1.filters filters

def replaceAt (s : HistoryStore) (place : Nat) (e : HistoryEntry) : HistoryStore :=
  { s with entries := s.entries.set place e }

def add (s : HistoryStore) (e : HistoryEntry) : HistoryStore :=
  let grown := { s with entries := s.entries ++ [e] }
  let dropped := (grown.overflow e.scope).map HistoryEntry.id
  { grown with entries := grown.entries.filter fun f => !dropped.contains f.id }

def dropFirst (id userId : String) : List HistoryEntry → Option (List HistoryEntry)
  | [] => none
  | e :: rest =>
      if e.id == id && e.userId == userId then some rest
      else (dropFirst id userId rest).map (e :: ·)

def delete? (s : HistoryStore) (id userId : String) : Option HistoryStore :=
  (dropFirst id userId s.entries).map fun es => { s with entries := es }

def toValue (s : HistoryStore) : Value := .list (s.entries.map HistoryEntry.toValue)

def ofValue (limit : Int) (v : Value) : Result HistoryStore := do
  let items ← v.iterate
  let entries ← items.mapM fun e => (HistoryEntry.check .document e).run
  return ⟨limit, entries⟩

def load (limit : Int) (fs : Files) : Result HistoryStore := do
  let v ← fs.read fileName (.list [])
  ofValue limit v

end HistoryStore

end TableSteward

import TableSteward.Json.Reader
import TableSteward.Fault
import TableSteward.Text.Blank

/-!
# Databases and their pools

The databases that may be browsed are listed in one setting: a document in JSON with a name and an address
each, or a single address.  A pool of connections is opened when its database is first used and stays open
until all pools are disposed of.
-/
set_option autoImplicit false

namespace TableSteward

structure DatabaseAddress where
  name : String
  url : String
  deriving DecidableEq, Repr

namespace DatabaseAddress

/-- The address of an item of the list; items without a name or an address are passed over. -/
def ofItem? (v : Value) : Option DatabaseAddress := do
  let name ← v.entry? "name"
  let url ← v.entry? "url"
  if name.truthy && url.truthy then some ⟨name.display, url.display⟩ else none

def isUrl (s : String) : Bool := s.startsWith "postgres://" || s.startsWith "postgresql://"

/-- The databases of the setting.  A text that is neither a document nor an address lists none. -/
def parse (raw : String) : Result (List DatabaseAddress) :=
  let trimmed := Text.trim raw
  if trimmed.startsWith "[" then
    match Json.read trimmed with
    | .error .tooManyDigits => .error .unreadableNumber
    | .error .tooDeep => .error .tooDeep
    | .error (.malformed _) => .ok []
    | .ok (.list items) => .ok (items.filterMap ofItem?)
    | .ok _ => .ok []
  else if isUrl trimmed then .ok [⟨"Default", trimmed⟩]
  else .ok []

def canonicalUrl (url : String) : String :=
  if url.startsWith "postgres://" then "postgresql://" ++ String.ofList (url.toList.drop 11) else url

end DatabaseAddress

structure PoolSettings where
  size : Value := .int 5
  timeout : Value := .int 30
  strictTls : Bool := true
  deriving Repr

structure PoolRequest where
  url : String
  settings : PoolSettings
  deriving Repr

def PoolRequest.arguments (r : PoolRequest) : Value :=
  .dict [("pool_pre_ping", .bool true), ("pool_size", r.settings.size), ("max_overflow", .int 0),
    ("pool_timeout", r.settings.timeout),
    ("connect_args", .dict (if r.settings.strictTls then [] else [("sslmode", .text "require")]))]

/-- The configured databases, by name, and the open pools in the order in which they were opened. -/
structure Pools (ε : Type) where
  addresses : Entries String
  settings : PoolSettings
  opened : Entries ε

namespace Pools

variable {ε : Type}

/-- Of two databases with one name the last counts. -/
def ofAddresses (ds : List DatabaseAddress) (settings : PoolSettings) : Pools ε :=
  ⟨Entries.ofPairs (ds.map fun d => (d.name, d.url)), settings, []⟩

def names (p : Pools ε) : List String := p.addresses.keys

def has (p : Pools ε) (name : String) : Bool := p.addresses.has name

def get {m : Type → Type} [Monad m] [MonadExceptOf Fault m] (p : Pools ε) (openPool : PoolRequest → m ε)
    (name : String) : m (ε × Pools ε) :=
  match p.opened.get? name with
  | some pool => pure (pool, p)
  | none =>
      match p.addresses.get? name with
      | none => throw (Fault.refused (.databaseNotFound name))
      | some url => do
          let pool ← openPool ⟨DatabaseAddress.canonicalUrl url, p.settings⟩
          return (pool, { p with opened := p.opened ++ [(name, pool)] })

def dispose (p : Pools ε) : Pools ε := { p with opened := [] }

end Pools

end TableSteward

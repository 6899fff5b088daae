import TableSteward.Access.Policy
import TableSteward.Name.Identifier

/-!
# The access gate

Who may read which table.  A table must exist in its database; a restricted role needs a grant of it; and a
table that is flagged hidden is kept from roles that do not see hidden tables, unless visibility is set
aside.  Every refusal is the same, so that a table that is missing looks like one that is not granted.
-/
set_option autoImplicit false

namespace TableSteward

/-- A table in a database, by its canonical name.  The database is a value as it is stored; one that is no text
grants nothing. -/
structure Grant where
  database : Value
  table : String
  deriving Repr

/-- Grant rows with canonical table names; a row whose table is no table name is dropped. -/
def normaliseGrants {α : Type} (rows : List (α × Value)) : List (α × String) :=
  rows.filterMap fun (database, table) =>
    match TableRef.ofValue table with
    | .ok t => some (database, t.fullName)
    | .error _ => none

abbrev Visibility := String → String → Bool

/-- A table as a catalog lists it; its names need not be identifiers, nor even texts. -/
structure Listing where
  schema : Value
  table : Value
  deriving Repr

namespace Listing

def fullName (l : Listing) : String := l.schema.display ++ "." ++ l.table.display

end Listing

structure Gate where
  policy : Policy
  user : User
  grants : List Grant
  /-- Without visibility every table is shown. -/
  visible : Option Visibility

namespace Gate

def role (g : Gate) : Role := g.policy.role g.user.role

def hasRoleName (g : Gate) : Bool := g.user.role.isKey

def hasGrantKeys (g : Gate) : Bool := g.grants.all fun grant => grant.database.isKey

def isGranted (g : Gate) (database fullName : String) : Bool :=
  g.grants.any fun grant => grant.database.sameKey (.text database) && grant.table == fullName

def mayRead (g : Gate) (database fullName : String) : Bool :=
  g.role.tier != .restricted || g.isGranted database fullName

def maySee (g : Gate) (database fullName : String) : Bool :=
  g.role.seesHidden ||
  match g.visible with
  | some visible => visible database fullName
  | none => true

/-- The table of a name, if the requester may read it.  With `bypass`, hidden tables are read too. -/
def authorize {m : Type → Type} [Monad m] [MonadExceptOf Fault m] (g : Gate) (bypass : Bool)
    (tableExists : TableRef → m Bool) (database : String) (name : Value) : m TableRef := do
  match TableRef.ofValue name with
  | .error f => throw f
  | .ok t =>
      if !g.hasRoleName then throw Fault.notAKey
      if !(← tableExists t) then throw (Fault.refused .accessDenied)
      if g.role.tier == .restricted && !g.hasGrantKeys then throw Fault.notAKey
      if !g.mayRead database t.fullName then throw (Fault.refused .accessDenied)
      if !bypass && !g.maySee database t.fullName then throw (Fault.refused .accessDenied)
      return t

def browsable (g : Gate) (database : String) (listing : List Listing) : Result (List Listing) :=
  if g.hasRoleName && g.hasGrantKeys then
    .ok (listing.filter fun l => g.mayRead database l.fullName && g.maySee database l.fullName)
  else .error .notAKey

end Gate

end TableSteward

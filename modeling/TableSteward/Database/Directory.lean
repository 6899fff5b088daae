import TableSteward.Database.Catalog

/-!
# The directory of users

Users and their grants, kept in memory or in the application database.  Grants are read anew for every
request.
-/
set_option autoImplicit false

namespace TableSteward

def grantsOfRows (rows : List (Value × Value)) : List Grant :=
  (normaliseGrants rows).map fun (database, table) => ⟨database, table⟩

structure Directory where
  users : Entries User := []
  grants : Entries (List Grant) := []

namespace Directory

def user? (d : Directory) (id : String) : Option User := d.users.get? id

def grantsFor (d : Directory) (id : String) : List Grant := (d.grants.get? id).getD []

/-- A user takes the place of an earlier one with the same id. -/
def add (d : Directory) (u : User) (rows : List (Value × Value)) : Directory :=
  ⟨d.users.put u.id u, d.grants.put u.id (grantsOfRows rows)⟩

def ofUsers (us : List (User × List (Value × Value))) : Directory :=
  us.foldl (fun d (u, rows) => d.add u rows) {}

end Directory

namespace StoredDirectory

variable {σ : Type} [Server σ]

def userOfRow (row : Row) : Result User := do
  let id ← row.cell "id"
  let email ← row.cell "email"
  let role ← row.cell "role"
  let active ← row.cell "is_active"
  return ⟨id.display, email, role, active.truthy⟩

def user? (id : String) : Exchange σ (Option User) := do
  let rows ← Exchange.reporting .loadUser <| Exchange.onConnection .application fun c =>
    Exchange.execute c (.userById id)
  match rows with
  | [] => return none
  | row :: _ => some <$> Exchange.lift (userOfRow row)

def grantOfRow : Row → Result (Value × Value)
  | (_, database) :: (_, table) :: _ => .ok (database, table)
  | _ => .error .tooShort

def grantsFor (id : String) : Exchange σ (List Grant) := do
  let rows ← Exchange.reporting .loadGrants <| Exchange.onConnection .application fun c =>
    Exchange.execute c (.grantsOf id)
  return grantsOfRows (← Exchange.lift (rows.mapM grantOfRow))

end StoredDirectory

end TableSteward

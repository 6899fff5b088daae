import TableSteward.Document.Outline

/-!
# Access policies

A policy lists roles, each with a tier, a limit on exported rows and whether hidden tables are shown to it.
A role that the policy does not list is restricted and exports nothing.  The name of a role is a key of the
document that lists it, most often a text.  `Policy.ofDocument` reads a policy document; `Policy.standard` is
the policy without one.
-/
set_option autoImplicit false

namespace TableSteward

structure Role where
  name : Value
  tier : Tier := .restricted
  maxExportRows : Int := 10000
  seesHidden : Bool := false
  deriving Repr

structure Policy where
  roles : Table Role
  warningThreshold : Int := 2000
  absoluteCeiling : Int := 50000
  deriving Repr

structure User where
  id : String
  email : Value
  role : Value
  active : Bool := true
  deriving Repr

namespace Policy

/-- The role of a name; one that is not listed is restricted and exports nothing. -/
def role (p : Policy) (name : Value) : Role :=
  (p.roles.get? name).getD ⟨name, .restricted, 0, false⟩

def lookUp (p : Policy) (name : Value) : Result Role :=
  if name.isKey then .ok (p.role name) else .error .notAKey

def maxExportRows (p : Policy) (role : Value) : Int := min (p.role role).maxExportRows p.absoluteCeiling

def standardRoles : Table Role :=
  [(.text "admin", ⟨.text "admin", .elevated, 50000, true⟩),
   (.text "analyst", ⟨.text "analyst", .standard, 10000, false⟩),
   (.text "external_customer", ⟨.text "external_customer", .restricted, 10000, false⟩)]

def standard : Policy := ⟨standardRoles, 2000, 50000⟩

/-! ## Policy documents -/

variable {α : Type} [Outline α]

def layerAt (es : Table α) (key : String) : Layer α :=
  ((es.get? (.text key)).map Outline.layer).getD (.leaf .null)

def integerEntry (es : Table α) (key : String) (default : Int) : Result Int :=
  match es.get? (.text key) with
  | some v => (Outline.layer v).toInteger
  | none => .ok default

def tierEntry (roleName : Value) (es : Table α) : Result Tier :=
  match es.get? (.text "tier") with
  | none => .ok .restricted
  | some v =>
      match (Outline.layer v).text?.bind Tier.ofName? with
      | some tier => .ok tier
      | none => .error (.unknownTier roleName.display (Outline.display v))

def roleOfDocument (name : Value) (place : α) : Result Role := do
  let es ← (Outline.layer place).entries
  let tier ← tierEntry name es
  let limit ← integerEntry es "max_export_rows" 10000
  let seesHidden := match es.get? (.text "sees_hidden_tables") with
    | some v => (Outline.layer v).truthy
    | none => tier == .elevated
  return ⟨name, tier, limit, seesHidden⟩

def rolesOfDocument (es : Table α) : Result (Table Role) :=
  es.mapM fun (name, place) => do
    let role ← roleOfDocument name place
    return (name, role)

/-- The policy of a document.  A document without roles has the standard ones; `ceiling` and `warning` are
used unless the document has its own. -/
def ofDocument (place : α) (ceiling warning : Int) : Result Policy := do
  let es ← (Outline.layer place).entries
  let listed ← rolesOfDocument (← (layerAt es "roles").entries)
  let roles := if listed.isEmpty then standardRoles else listed
  let limits ← (layerAt es "export").entries
  let warning ← integerEntry limits "warning_threshold" warning
  let ceiling ← integerEntry limits "absolute_ceiling" ceiling
  return ⟨roles, warning, ceiling⟩

end Policy

end TableSteward

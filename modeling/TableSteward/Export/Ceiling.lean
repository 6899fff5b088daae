import TableSteward.Access.Policy

/-!
# Ceilings on exports

No export may exceed the absolute ceiling of the policy, nor the limit of the requester's role.  Both are
compared with the number of rows before the first row is read.
-/
set_option autoImplicit false

namespace TableSteward

structure ExportCheck where
  total : Int
  limit : Int
  warningThreshold : Int
  elevated : Bool
  deriving DecidableEq, Repr

namespace ExportCheck

def needsWarning (c : ExportCheck) : Bool := c.warningThreshold < c.total

def exceedsLimit (c : ExportCheck) : Bool := c.limit < c.total

def toValue (c : ExportCheck) : Value :=
  .dict [("totalCount", .int c.total), ("isAdmin", .bool c.elevated), ("maxRowsForRole", .int c.limit),
    ("warningThreshold", .int c.warningThreshold), ("canExport", .bool !c.exceedsLimit),
    ("needsWarning", .bool c.needsWarning), ("exceedsLimit", .bool c.exceedsLimit)]

end ExportCheck

namespace Policy

def enforceAbsolute (total ceiling : Int) : Result Unit :=
  if ceiling < total then refuse (.exportTooLarge total ceiling .absolute) else .ok ()

def checkExport (p : Policy) (role : Value) (total : Int) : Result ExportCheck := do
  let found ← p.lookUp role
  return ⟨total, p.maxExportRows role, p.warningThreshold, found.tier == .elevated⟩

/-- The absolute ceiling is examined first. -/
def enforce (p : Policy) (role : Value) (total : Int) : Result Unit := do
  enforceAbsolute total p.absoluteCeiling
  discard (p.lookUp role)
  let limit := p.maxExportRows role
  if limit < total then refuse (.exportTooLarge total limit .role) else .ok ()

end Policy

end TableSteward

import TableSteward.Database.Link

/-!
# The audit log

One row for each access to data or export.  A row that cannot be written is dropped, and the request goes
on.
-/
set_option autoImplicit false

namespace TableSteward

inductive AuditAction
  | viewData
  | exportPage
  | exportAll
  | reportQuery
  deriving DecidableEq, Repr

def AuditAction.name : AuditAction → String
  | viewData => "VIEW_DATA"
  | exportPage => "EXPORT_PAGE"
  | exportAll => "EXPORT_ALL"
  | reportQuery => "REPORT_QUERY"

namespace Audit

variable {σ : Type} [Server σ]

def ensureTable : Exchange σ Unit :=
  Exchange.onConnection .application fun c => do
    discard (Exchange.execute c .createAudit)
    Exchange.commit c

def record (e : AuditEntry) : Exchange σ Unit := do
  discard <| Exchange.attempt <| Exchange.onConnection .application fun c => do
    discard (Exchange.execute c (.recordAudit e))
    Exchange.commit c

end Audit

end TableSteward

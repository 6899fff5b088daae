import TableSteward.Dashboard.Cache
import TableSteward.Database.Directory
import TableSteward.Report.Runner
import TableSteward.Store.Definition
import TableSteward.Store.History

/-!
# The service

All that the service keeps: its link to the databases, the policy, the users, the documents with their
files, the dashboards and their cache.  Time, the day and fresh ids are part of the state, so that an
`Action` is a function of it.  What an action did before it ended in a fault stays done.
-/
set_option autoImplicit false

namespace TableSteward

structure DashboardRequest where
  database : String
  periodType : String := "weekly"
  periodId : Option String := none
  periodStart : Option Date := none
  zones : List String := []
  deriving Repr

abbrev Provider (σ : Type) := Connection → DashboardRequest → Exchange σ Value

structure Service (σ : Type) where
  link : Link σ
  policy : Policy := Policy.standard
  directory : Directory := {}
  /-- Users and grants are read from the application database instead. -/
  usersStored : Bool := false
  pageSize : Int := 50
  batchSize : Int := 1000
  timeout : Value := .int 30000
  files : Files := []
  /-- Whether files can be written at present. -/
  writable : Bool := true
  definitions : DefinitionStore := {}
  settings : SettingsStore := {}
  history : HistoryStore := {}
  blocks : BlockStore := {}
  providers : Entries (Provider σ) := []
  cache : MetricsCache Number := {}
  clock : Number := .int 0
  now : String := ""
  today : Date
  ids : Nat := 0

abbrev Action (σ : Type) := ExceptT Fault (StateM (Service σ))

namespace Action

variable {σ : Type} {α : Type}

def lift : Result α → Action σ α
  | .ok a => pure a
  | .error f => throw f

def refused (r : Refusal) : Action σ α := throw (.refused r)

def onLink (x : Exchange σ α) : Action σ α :=
  ExceptT.mk fun s =>
    let (outcome, link) := x.run s.link
    (outcome, { s with link := link })

def freshId : Action σ String := do
  let s ← get
  set { s with ids := s.ids + 1 }
  return "id" ++ toString (s.ids + 1)

end Action

namespace Service

variable {σ : Type}

def browser (s : Service σ) : Browser :=
  { policy := s.policy, settings := s.settings, pageSize := s.pageSize, batchSize := s.batchSize,
    timeout := s.timeout }

def reporter (s : Service σ) : Reporter :=
  { policy := s.policy, pageSize := s.pageSize, timeout := s.timeout }

variable [Server σ]

def user? (id : String) : Action σ (Option User) := do
  let s ← get
  if s.usersStored then Action.onLink (StoredDirectory.user? id) else return s.directory.user? id

def grantsFor (id : String) : Action σ (List Grant) := do
  let s ← get
  if s.usersStored then Action.onLink (StoredDirectory.grantsFor id) else return s.directory.grantsFor id

/-- The table of the audit log is made if the database lets it; then requests are served. -/
def start : Action σ Unit := do
  Action.onLink <| tryCatch Audit.ensureTable fun f =>
    match f with
    | .database => return ()
    | f => throw f

def stop : Action σ Unit := Action.onLink Exchange.dispose

end Service

end TableSteward

import TableSteward.Proofs.Receiver
import TableSteward.Report.Runner

/-!
# Requests

Whatever a requester can ask for that leads to a browsed database, as one type, so that a law about requests is
stated once.  An export is asked for together with the patience of its receiver: how many chunks are taken
before the stream is given up.
-/
set_option autoImplicit false

namespace TableSteward

inductive Request
  | tables (database : String)
  | columns (database table : String)
  | rows (q : TableRequest) (page : Value)
  | exportCheck (q : TableRequest)
  | exportPage (q : TableRequest) (page : Value) (patience : Nat)
  | exportAll (q : TableRequest) (patience : Nat)
  | block (id : String) (page : Value)

inductive Reply
  | tables (shown : List Value)
  | columns (infos : List ColumnInfo)
  | page (p : Page)
  | check (c : ExportCheck)
  | download (fileName : String) (d : Delivery)
  | payload (v : Value)

/-- What requests are answered with, whoever asks: the policy, the stores and the settings of the service. -/
structure Desk where
  policy : Policy
  settings : SettingsStore
  blocks : BlockStore
  pageSize : Int
  batchSize : Int
  timeout : Value

namespace Desk

def browser (d : Desk) : Browser := ⟨d.policy, d.settings, d.pageSize, d.batchSize, d.timeout⟩

def reporter (d : Desk) : Reporter := ⟨d.policy, d.pageSize, d.timeout⟩

variable {σ : Type} [Server σ]

def deliver (patience : Nat) (download : Exchange σ (Download σ)) : Exchange σ Reply := do
  let d ← download
  let delivery ← d.stream.receive patience
  return .download d.fileName delivery

def answer (d : Desk) (r : Requester) : Request → Exchange σ Reply
  | .tables database => do return .tables (← d.browser.listTables r database)
  | .columns database table => do return .columns (← d.browser.listColumns r database table)
  | .rows q page => do return .page (← d.browser.fetchRows r q page)
  | .exportCheck q => do return .check (← d.browser.exportCheck r q)
  | .exportPage q page patience => deliver patience (d.browser.exportPage r q page)
  | .exportAll q patience => deliver patience (d.browser.exportAll r q)
  | .block id page => do return .payload (← d.reporter.runBlock d.blocks r id page)

end Desk

/-! ## The tables of a request -/

def BlockConfig.source? : BlockConfig → Option BlockSource
  | .table b => some b.source
  | .chart b => some b.source
  | .metric b => some b.source
  | .text _ => none

/-- The names of the tables of a block, in the order of its join chain. -/
def BlockSource.tableNames (s : BlockSource) : List String :=
  s.table :: (JoinSpec.hopsOf s.join).map JoinSpec.table

/-- What a request is about to read: tables of one database, by the names that the request gives them, past a
gate, and whether hidden tables may be among them. -/
structure Errand where
  gate : Gate
  bypass : Bool
  database : String
  names : List String

def Browser.errand (b : Browser) (r : Requester) (database table : String) : Errand :=
  ⟨b.gate r, false, database, [table]⟩

def Reporter.errand (p : Reporter) (r : Requester) (s : BlockSource) : Errand :=
  ⟨p.gate r, true, s.database, s.tableNames⟩

namespace Desk

def config? (d : Desk) (r : Requester) (id : String) : Option BlockConfig :=
  match Reporter.ownedBlock d.blocks r id with
  | .error _ => none
  | .ok b => (BlockConfig.parse b.kind (.dict b.config)).toOption

/-- A listing of tables names no table, and a block may read none. -/
def errand? (d : Desk) (r : Requester) : Request → Option Errand
  | .tables _ => none
  | .columns database table => some (d.browser.errand r database table)
  | .rows q _ | .exportCheck q | .exportPage q _ _ | .exportAll q _ =>
      some (d.browser.errand r q.database q.table)
  | .block id _ => ((d.config? r id).bind BlockConfig.source?).map (d.reporter.errand r)

end Desk

end TableSteward

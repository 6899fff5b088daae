import TableSteward.Service.Action

/-!
# Changes to documents

Every change is made in memory and then written to the file of its store.  If a document has no text or its file
cannot be written, the change stays in memory and the file stays as it is.
-/
set_option autoImplicit false

namespace TableSteward.Service

variable {σ : Type}

def filesWith (s : Service σ) (fileName : String) (document : Value) : Result Files :=
  if s.writable then s.files.write fileName document else .error .notWritten

def persist (fileName : String) (document : Value) : Action σ Unit := do
  let s ← get
  let files ← Action.lift (s.filesWith fileName document)
  set { s with files := files }

def setDefinitions (table : String) (ds : List FilterDefinition) : Action σ Unit := do
  modify fun s => { s with definitions := s.definitions.set table ds }
  persist DefinitionStore.fileName (← get).definitions.toValue

def setSettings (database table : String) (settings : TableSettings) : Action σ Unit := do
  modify fun s => { s with settings := s.settings.set database table settings }
  persist SettingsStore.fileName (← get).settings.toValue

def setHistory (history : HistoryStore) : Action σ Unit := do
  modify fun s => { s with history := history }
  persist HistoryStore.fileName history.toValue

/-- Records a set of filters.  One that is equal to a recorded set moves to the front. -/
def saveHistory (scope : HistoryScope) (filters : List FilterSpec) : Action σ HistoryEntry := do
  if filters.isEmpty then Action.refused (.invalidValue .emptyHistory)
  else
    let s ← get
    match s.history.find? scope filters with
    | some (e, place) => do
        let used := { e with lastUsedAt := s.now }
        setHistory (s.history.replaceAt place used)
        return used
    | none => do
        let id ← Action.freshId
        let e : HistoryEntry := ⟨id, scope.userId, scope.database, scope.table, filters, s.now⟩
        setHistory (s.history.add e)
        return e

def deleteHistory (id userId : String) : Action σ Bool := do
  match (← get).history.delete? id userId with
  | some history => do
      setHistory history
      return true
  | none => return false

def setBlocks (blocks : BlockStore) : Action σ Unit := do
  modify fun s => { s with blocks := blocks }
  persist BlockStore.fileName blocks.toValue

/-- A new block, with a configuration that is not examined. -/
def storeBlock (owner kind title config : Value) : Action σ ReportBlock := do
  discard (Action.lift (BlockStore.allowKind kind))
  let id ← Action.freshId
  let b ← Action.lift (ReportBlock.ofParts id owner kind title config)
  setBlocks ((← get).blocks.add b)
  return b

def createBlock (r : Requester) (kind : String) (title config : Value) : Action σ ReportBlock := do
  discard (Action.lift (BlockConfig.parse kind config))
  storeBlock (.text r.user.id) (.text kind) title config

def deleteBlock (id owner : String) : Action σ Bool := do
  match (← get).blocks.delete? id owner with
  | some blocks => do
      setBlocks blocks
      return true
  | none => return false

/-! ## Reading the files again -/

/-- A store is read from its file again; if that fails it stays as it is. -/
def reloadDefinitions : Action σ Unit := do
  let definitions ← Action.lift (DefinitionStore.load (← get).files)
  modify fun s => { s with definitions := definitions }

def reloadSettings : Action σ Unit := do
  let settings ← Action.lift (SettingsStore.load (← get).files)
  modify fun s => { s with settings := settings }

def reloadHistory : Action σ Unit := do
  let s ← get
  let history ← Action.lift (HistoryStore.load s.history.limit s.files)
  modify fun s => { s with history := history }

def reloadBlocks : Action σ Unit := do
  let blocks ← Action.lift (BlockStore.load (← get).files)
  modify fun s => { s with blocks := blocks }

end TableSteward.Service

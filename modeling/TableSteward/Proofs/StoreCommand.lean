import TableSteward.Proofs.KeyedEntries
import TableSteward.Proofs.RecentlyUsed

/-!
# Operations of the stores

Each operation changes one store or none.  `effect` says what it does to the memory of the service and what it is to
answer, and `runOn_perform` that nothing else happens but the document of its store being written: if it cannot be
written the operation ends in a fault, with the files as they were and the change in memory.
-/
set_option autoImplicit false

namespace TableSteward

/-! ## Stores -/

inductive StoreKind
  | definitions
  | settings
  | history
  | blocks
  deriving DecidableEq, Repr

namespace StoreKind

variable {σ : Type}

def fileName : StoreKind → String
  | definitions => DefinitionStore.fileName
  | settings => SettingsStore.fileName
  | history => HistoryStore.fileName
  | blocks => BlockStore.fileName

def document (s : Service σ) : StoreKind → Value
  | definitions => s.definitions.toValue
  | settings => s.settings.toValue
  | history => s.history.toValue
  | blocks => s.blocks.toValue

theorem fileName_injective : Function.Injective fileName := by
  intro a b h
  cases a <;> cases b <;> first | rfl | exact absurd h (by decide)

end StoreKind

/-! ## Operations -/

inductive StoreCommand
  | setDefinitions (table : String) (definitions : List FilterDefinition)
  | setSettings (database table : String) (settings : TableSettings)
  | saveHistory (scope : HistoryScope) (filters : List FilterSpec)
  | deleteHistory (id userId : String)
  | createBlock (owner kind title config : Value)
  | deleteBlock (id owner : String)

inductive StoreAnswer
  | done
  | entry (e : HistoryEntry)
  | block (b : ReportBlock)
  | deleted (found : Bool)

/-- What an operation does before anything is written: it is answered at once, or a store has changed and is to be
written before the answer. -/
inductive StoreEffect (σ : Type)
  | answered (r : Result StoreAnswer) (s : Service σ)
  | changed (a : StoreAnswer) (s : Service σ)

namespace StoreEffect

variable {σ : Type}

def service : StoreEffect σ → Service σ
  | answered _ s => s
  | changed _ s => s

@[simp] theorem service_answered (r : Result StoreAnswer) (s : Service σ) : (answered r s).service = s := rfl

@[simp] theorem service_changed (a : StoreAnswer) (s : Service σ) : (changed a s).service = s := rfl

end StoreEffect

namespace StoreCommand

variable {σ : Type}

def perform : StoreCommand → Action σ StoreAnswer
  | setDefinitions table definitions => do
      Service.setDefinitions table definitions
      return .done
  | setSettings database table settings => do
      Service.setSettings database table settings
      return .done
  | saveHistory scope filters => do return .entry (← Service.saveHistory scope filters)
  | deleteHistory id userId => do return .deleted (← Service.deleteHistory id userId)
  | createBlock owner kind title config => do return .block (← Service.storeBlock owner kind title config)
  | deleteBlock id owner => do return .deleted (← Service.deleteBlock id owner)

def store : StoreCommand → StoreKind
  | setDefinitions .. => .definitions
  | setSettings .. => .settings
  | saveHistory .. | deleteHistory .. => .history
  | createBlock .. | deleteBlock .. => .blocks

def effect (s : Service σ) : StoreCommand → StoreEffect σ
  | setDefinitions table definitions =>
      .changed .done { s with definitions := s.definitions.set table definitions }
  | setSettings database table settings =>
      .changed .done { s with settings := s.settings.set database table settings }
  | saveHistory scope filters =>
      if filters.isEmpty then .answered (refuse (.invalidValue .emptyHistory)) s
      else
        match s.history.find? scope filters with
        | some (e, place) =>
            let used := { e with lastUsedAt := s.now }
            .changed (.entry used) { s with history := s.history.replaceAt place used }
        | none =>
            let e : HistoryEntry := ⟨s.nextId, scope.userId, scope.database, scope.table, filters, s.now⟩
            .changed (.entry e) { s with ids := s.ids + 1, history := s.history.add e }
  | deleteHistory id userId =>
      match s.history.delete? id userId with
      | some history => .changed (.deleted true) { s with history := history }
      | none => .answered (.ok (.deleted false)) s
  | createBlock owner kind title config =>
      match BlockStore.allowKind kind with
      | .error f => .answered (.error f) s
      | .ok _ =>
          match ReportBlock.ofParts s.nextId owner kind title config with
          | .error f => .answered (.error f) { s with ids := s.ids + 1 }
          | .ok b => .changed (.block b) { s with ids := s.ids + 1, blocks := s.blocks.add b }
  | deleteBlock id owner =>
      match s.blocks.delete? id owner with
      | some blocks => .changed (.deleted true) { s with blocks := blocks }
      | none => .answered (.ok (.deleted false)) s

/-- An operation leaves the other stores alone. -/
theorem document_effect_of_ne {c : StoreCommand} {k : StoreKind} (h : k ≠ c.store) (s : Service σ) :
    k.document (c.effect s).service = k.document s := by
  cases c <;> simp only [effect] <;> (repeat' split) <;> cases k <;> first | rfl | exact absurd rfl h

/-- An operation that is answered at once has changed no store. -/
theorem service_of_answered {c : StoreCommand} {s t : Service σ} {r : Result StoreAnswer}
    (h : c.effect s = .answered r t) : t = { s with ids := t.ids } := by
  cases c with
  | setDefinitions | setSettings => exact nomatch h
  | saveHistory scope filters =>
      simp only [effect] at h
      split at h
      · cases h
        rfl
      · split at h <;> exact nomatch h
  | deleteHistory id userId =>
      simp only [effect] at h
      split at h
      · exact nomatch h
      · cases h
        rfl
  | createBlock owner kind title config =>
      simp only [effect] at h
      split at h
      · cases h
        rfl
      · split at h
        · cases h
          rfl
        · exact nomatch h
  | deleteBlock id owner =>
      simp only [effect] at h
      split at h
      · exact nomatch h
      · cases h
        rfl

theorem ids_effect (c : StoreCommand) (s : Service σ) : s.ids ≤ (c.effect s).service.ids := by
  cases c <;> simp only [effect] <;> (repeat' split) <;> simp

/-- A change is never answered with nothing found. -/
theorem answer_of_changed {c : StoreCommand} {s t : Service σ} {a : StoreAnswer} (h : c.effect s = .changed a t) :
    a ≠ .deleted false := by
  rintro rfl
  cases c <;> simp only [effect] at h <;> (repeat' split at h) <;> exact nomatch h

/-- Nothing is written before the store of the operation is. -/
theorem files_effect (c : StoreCommand) (s : Service σ) :
    (c.effect s).service.files = s.files ∧ (c.effect s).service.writable = s.writable ∧
      (c.effect s).service.now = s.now := by
  cases c <;> simp only [effect] <;> (repeat' split) <;> exact ⟨rfl, rfl, rfl⟩

end StoreCommand

/-! ## Runs of operations -/

namespace Service

variable {σ : Type}

theorem runOn_persist (fileName : String) (document : Value) (s : Service σ) :
    (persist fileName document).runOn s =
      match s.filesWith fileName document with
      | .ok files => (.ok (), { s with files := files })
      | .error f => (.error f, s) := by
  simp only [persist, Action.runOn_bind, Action.runOn_get, Action.runOn_lift]
  cases s.filesWith fileName document <;> rfl

theorem filesWith_error {s : Service σ} {fileName : String} {document : Value} {f : Fault}
    (h : s.filesWith fileName document = .error f) : f = .notWritten ∨ f = .notEncodable := by
  rw [filesWith] at h
  split at h
  · simp only [Files.write, Files.documentText] at h
    split at h <;> cases h
    exact .inr rfl
  · cases h
    exact .inl rfl

end Service

/-- The outcome of an operation whose store has changed. -/
def StoreKind.written {σ : Type} (k : StoreKind) (a : StoreAnswer) (s : Service σ) : Result StoreAnswer × Service σ :=
  match s.filesWith k.fileName (k.document s) with
  | .ok files => (.ok a, { s with files := files })
  | .error f => (.error f, s)

theorem StoreKind.written_cases {σ : Type} (k : StoreKind) (a : StoreAnswer) (s : Service σ) :
    (∃ files, k.written a s = (.ok a, { s with files := files })) ∨
      ∃ f, (f = .notWritten ∨ f = .notEncodable) ∧ k.written a s = (.error f, s) := by
  rw [written]
  cases hfiles : s.filesWith k.fileName (k.document s) with
  | ok files => exact .inl ⟨files, rfl⟩
  | error f => exact .inr ⟨f, Service.filesWith_error hfiles, rfl⟩

theorem StoreKind.written_snd {σ : Type} (k : StoreKind) (a : StoreAnswer) (s : Service σ) :
    (k.written a s).2 = { s with files := (k.written a s).2.files } := by
  rcases k.written_cases a s with ⟨files, h⟩ | ⟨f, -, h⟩ <;> rw [h]

/-- The files of the other stores stay as they are. -/
theorem StoreKind.files_written_of_ne {σ : Type} {j k : StoreKind} (h : j ≠ k) (a : StoreAnswer) (s : Service σ) :
    (k.written a s).2.files.get? j.fileName = s.files.get? j.fileName := by
  rw [written, Service.filesWith]
  cases s.writable with
  | false => rfl
  | true =>
      rw [if_pos rfl, Files.write]
      cases Files.documentText (k.document s) with
      | error f => rfl
      | ok text =>
          refine (Entries.get?_put ..).trans (if_neg ?_)
          exact fun hname => h (fileName_injective hname)

namespace StoreCommand

variable {σ : Type}

/-- An operation does what its effect says, and then its store is written. -/
theorem runOn_perform (c : StoreCommand) (s : Service σ) :
    c.perform.runOn s =
      match c.effect s with
      | .answered r t => (r, t)
      | .changed a t => c.store.written a t := by
  cases c with
  | setDefinitions table definitions =>
      simp only [perform, Service.setDefinitions, Action.runOn_bind, Action.runOn_modify, Action.runOn_get,
        Service.runOn_persist, effect, store, StoreKind.written, StoreKind.fileName, StoreKind.document]
      generalize Service.filesWith _ _ _ = files
      cases files <;> rfl
  | setSettings database table settings =>
      simp only [perform, Service.setSettings, Action.runOn_bind, Action.runOn_modify, Action.runOn_get,
        Service.runOn_persist, effect, store, StoreKind.written, StoreKind.fileName, StoreKind.document]
      generalize Service.filesWith _ _ _ = files
      cases files <;> rfl
  | saveHistory scope filters =>
      simp only [perform, Service.saveHistory, effect, store]
      split
      · rfl
      · simp only [Action.runOn_bind, Action.runOn_get]
        cases s.history.find? scope filters with
        | some found =>
            simp only [Service.setHistory, Action.runOn_bind, Action.runOn_modify, Service.runOn_persist,
              StoreKind.written, StoreKind.fileName, StoreKind.document]
            generalize Service.filesWith _ _ _ = files
            cases files <;> rfl
        | none =>
            simp only [Service.setHistory, Action.runOn_bind, Action.runOn_freshId, Action.runOn_modify,
              Service.runOn_persist, StoreKind.written, StoreKind.fileName, StoreKind.document, Service.nextId]
            generalize Service.filesWith _ _ _ = files
            cases files <;> rfl
  | deleteHistory id userId =>
      simp only [perform, Service.deleteHistory, effect, store, Action.runOn_bind, Action.runOn_get]
      cases s.history.delete? id userId with
      | none => rfl
      | some history =>
          simp only [Service.setHistory, Action.runOn_bind, Action.runOn_modify, Service.runOn_persist,
            StoreKind.written, StoreKind.fileName, StoreKind.document]
          generalize Service.filesWith _ _ _ = files
          cases files <;> rfl
  | createBlock owner kind title config =>
      have hkind : ∀ r : Result BlockKind, (discard (Action.lift r) : Action σ PUnit).runOn s =
          (r.map fun _ => ⟨⟩, s) := by
        intro r
        cases r <;> rfl
      simp only [perform, Service.storeBlock, effect, store, Action.runOn_bind, hkind]
      cases BlockStore.allowKind kind with
      | error f => rfl
      | ok k =>
          simp only [Except.map, Action.runOn_freshId, Action.runOn_lift, Service.nextId]
          cases ReportBlock.ofParts ("id" ++ toString (s.ids + 1)) owner kind title config with
          | error f => rfl
          | ok b =>
              simp only [Service.setBlocks, Action.runOn_bind, Action.runOn_get, Action.runOn_modify,
                Service.runOn_persist, StoreKind.written, StoreKind.fileName, StoreKind.document]
              generalize Service.filesWith _ _ _ = files
              cases files <;> rfl
  | deleteBlock id owner =>
      simp only [perform, Service.deleteBlock, effect, store, Action.runOn_bind, Action.runOn_get]
      cases s.blocks.delete? id owner with
      | none => rfl
      | some blocks =>
          simp only [Service.setBlocks, Action.runOn_bind, Action.runOn_modify, Service.runOn_persist,
            StoreKind.written, StoreKind.fileName, StoreKind.document]
          generalize Service.filesWith _ _ _ = files
          cases files <;> rfl

end StoreCommand

/-- An operation at a time, when files can be written or not. -/
structure StoreStep where
  command : StoreCommand
  now : String
  writable : Bool := true

namespace StoreStep

variable {σ : Type}

def start (c : StoreStep) (s : Service σ) : Service σ := { s with now := c.now, writable := c.writable }

def run (c : StoreStep) (s : Service σ) : Result StoreAnswer × Service σ := c.command.perform.runOn (c.start s)

end StoreStep

namespace Service

variable {σ : Type}

def afterSteps (s : Service σ) (steps : List StoreStep) : Service σ :=
  steps.foldl (fun s c => (c.run s).2) s

/-- The outcomes of some steps, each from the service that the steps before have left. -/
def outcomes : Service σ → List StoreStep → List (Result StoreAnswer)
  | _, [] => []
  | s, c :: steps => (c.run s).1 :: outcomes (c.run s).2 steps

@[simp] theorem afterSteps_nil (s : Service σ) : s.afterSteps [] = s := rfl

@[simp] theorem afterSteps_cons (s : Service σ) (c : StoreStep) (steps : List StoreStep) :
    s.afterSteps (c :: steps) = (c.run s).2.afterSteps steps := rfl

/-- No database answers. -/
instance : Server Unit := ⟨fun server _ => (none, server)⟩

theorem isDay_firstOfMarch : IsDay 2024 3 1 := by decide

/-- A service without databases, in an empty directory. -/
def bare : Service Unit where
  link := ⟨(), 0, [], ⟨[], {}, []⟩⟩
  today := ⟨2024, 3, 1, isDay_firstOfMarch⟩

end Service

end TableSteward

import TableSteward.Proofs.StoreDocuments

/-!
# Stores that outlive their process

Stores that are built again from their files are the same up to the order of keys.  That makes no difference to any
read, and none to the operations that follow: they have the same outcomes, leave the same files and keep the stores the
same up to the order of keys.
-/
set_option autoImplicit false

namespace TableSteward

namespace StoreAnswer

/-- An answer with the keys of its values in order. -/
def sorted : StoreAnswer → StoreAnswer
  | done => done
  | entry e => entry e.sorted
  | block b => block b.sorted
  | deleted found => deleted found

end StoreAnswer

namespace Service

variable {σ : Type} {s t : Service σ}

/-- Two services whose stores are the same up to the order of keys, with the same files and at the same time. -/
structure Alike (s t : Service σ) : Prop where
  definitions : s.definitions.tables.Perm t.definitions.tables
  definitionKeys : s.definitions.tables.keys.Nodup
  settings : s.settings.entries.Perm t.settings.entries
  settingKeys : s.settings.entries.keys.Nodup
  history : s.history.sorted = t.history.sorted
  blocks : s.blocks.sorted = t.blocks.sorted
  files : s.files = t.files
  writable : s.writable = t.writable
  now : s.now = t.now
  ids : s.ids = t.ids

/-- Two effects with the same answer up to the order of keys, on services that are alike. -/
inductive AlikeEffects : StoreEffect σ → StoreEffect σ → Prop
  | answered (r : Result StoreAnswer) {s t : Service σ} (h : Alike s t) : AlikeEffects (.answered r s) (.answered r t)
  | changed {a b : StoreAnswer} (hanswers : a.sorted = b.sorted) {s t : Service σ} (h : Alike s t) :
      AlikeEffects (.changed a s) (.changed b t)

theorem Alike.effect (h : Alike s t) (c : StoreCommand) : AlikeEffects (c.effect s) (c.effect t) := by
  have hnext : s.nextId = t.nextId := by rw [nextId, nextId, h.ids]
  cases c with
  | setDefinitions table definitions =>
      refine .changed rfl { h with definitions := ?_, definitionKeys := ?_ }
      · exact Entries.put_perm h.definitionKeys h.definitions table definitions
      · exact Entries.nodup_put h.definitionKeys table definitions
  | setSettings database table settings =>
      refine .changed rfl { h with settings := ?_, settingKeys := ?_ }
      · exact Entries.put_perm h.settingKeys h.settings _ settings
      · exact Entries.nodup_put h.settingKeys _ settings
  | saveHistory scope filters =>
      have hfound := (s.history.find?_sorted scope filters).symm.trans
        (h.history ▸ t.history.find?_sorted scope filters)
      simp only [StoreCommand.effect]
      split
      · exact .answered _ h
      · cases hs : s.history.find? scope filters with
        | none =>
            cases ht : t.history.find? scope filters with
            | some found =>
                rw [hs, ht] at hfound
                cases hfound
            | none =>
                have hentry : (⟨s.nextId, scope.userId, scope.database, scope.table, filters, s.now⟩ : HistoryEntry) =
                    ⟨t.nextId, scope.userId, scope.database, scope.table, filters, t.now⟩ := by rw [hnext, h.now]
                refine .changed (congrArg (fun e : HistoryEntry => (StoreAnswer.entry e).sorted) hentry)
                  { h with history := ?_, ids := congrArg (· + 1) h.ids }
                rw [HistoryStore.add_sorted, HistoryStore.add_sorted, h.history, hentry]
        | some found =>
            cases ht : t.history.find? scope filters with
            | none =>
                rw [hs, ht] at hfound
                cases hfound
            | some found' =>
                obtain ⟨e, place⟩ := found
                obtain ⟨e', place'⟩ := found'
                rw [hs, ht] at hfound
                obtain ⟨hentry, hplace⟩ := Prod.mk.inj (Option.some.inj hfound)
                obtain rfl : place = place' := hplace
                have hused : ({ e with lastUsedAt := s.now } : HistoryEntry).sorted =
                    ({ e' with lastUsedAt := t.now } : HistoryEntry).sorted := by
                  rw [h.now]
                  exact congrArg (fun x : HistoryEntry => { x with lastUsedAt := t.now }) hentry
                have hanswers : (StoreAnswer.entry { e with lastUsedAt := s.now }).sorted =
                    (StoreAnswer.entry { e' with lastUsedAt := t.now }).sorted := congrArg StoreAnswer.entry hused
                refine .changed hanswers { h with history := ?_ }
                rw [HistoryStore.replaceAt_sorted, HistoryStore.replaceAt_sorted, h.history, hused]
  | deleteHistory id userId =>
      have hdeleted := (s.history.delete?_sorted id userId).symm.trans
        (h.history ▸ t.history.delete?_sorted id userId)
      simp only [StoreCommand.effect]
      cases hs : s.history.delete? id userId <;> cases ht : t.history.delete? id userId <;> rw [hs, ht] at hdeleted
      · exact .answered _ h
      · cases hdeleted
      · cases hdeleted
      · exact .changed rfl { h with history := Option.some.inj hdeleted }
  | createBlock owner kind title config =>
      simp only [StoreCommand.effect, hnext]
      split
      · exact .answered _ h
      · split
        · exact .answered _ { h with ids := congrArg (· + 1) h.ids }
        · refine .changed rfl { h with blocks := ?_, ids := congrArg (· + 1) h.ids }
          rw [BlockStore.add_sorted, BlockStore.add_sorted, h.blocks]
  | deleteBlock id owner =>
      have hdeleted := (s.blocks.delete?_sorted id owner).symm.trans (h.blocks ▸ t.blocks.delete?_sorted id owner)
      simp only [StoreCommand.effect]
      cases hs : s.blocks.delete? id owner <;> cases ht : t.blocks.delete? id owner <;> rw [hs, ht] at hdeleted
      · exact .answered _ h
      · cases hdeleted
      · cases hdeleted
      · exact .changed rfl { h with blocks := Option.some.inj hdeleted }

/-- What is written is the same, as keys are put in order first. -/
theorem Alike.document (h : Alike s t) (k : StoreKind) : (k.document s).sorted = (k.document t).sorted := by
  cases k with
  | definitions =>
      have hs := fun es : Entries (List FilterDefinition) =>
        Value.sorted_dict_map (fun ds => Value.list (ds.map FilterDefinition.toValue)) es
      exact (hs s.definitions.tables).trans
        (Entries.ordered_eq_of_perm h.definitionKeys h.definitions ▸ (hs t.definitions.tables).symm)
  | settings =>
      have hs := fun es : Entries TableSettings => Value.sorted_dict_map TableSettings.toValue es
      exact (hs s.settings.entries).trans
        (Entries.ordered_eq_of_perm h.settingKeys h.settings ▸ (hs t.settings.entries).symm)
  | history => exact (s.history.toValue_sorted.symm.trans (h.history ▸ t.history.toValue_sorted))
  | blocks => exact (s.blocks.toValue_sorted.symm.trans (h.blocks ▸ t.blocks.toValue_sorted))

theorem Alike.filesWith (h : Alike s t) (k : StoreKind) :
    s.filesWith k.fileName (k.document s) = t.filesWith k.fileName (k.document t) := by
  rw [Service.filesWith, Service.filesWith, h.writable, h.files, Files.write, Files.write,
    Files.documentText_congr (h.document k)]

/-- The answer up to the order of keys, and services that are alike. -/
structure AlikeOutcomes (a b : Result StoreAnswer × Service σ) : Prop where
  answers : a.1.map StoreAnswer.sorted = b.1.map StoreAnswer.sorted
  services : Alike a.2 b.2

theorem Alike.written (h : Alike s t) (k : StoreKind) {a b : StoreAnswer} (hanswers : a.sorted = b.sorted) :
    AlikeOutcomes (k.written a s) (k.written b t) := by
  rw [StoreKind.written, StoreKind.written, ← h.filesWith k]
  cases s.filesWith k.fileName (k.document s) with
  | ok files => exact ⟨congrArg Except.ok hanswers, { h with files := rfl }⟩
  | error f => exact ⟨rfl, h⟩

theorem Alike.run (h : Alike s t) (c : StoreStep) : AlikeOutcomes (c.run s) (c.run t) := by
  have hstart : Alike (c.start s) (c.start t) := { h with writable := rfl, now := rfl }
  have heffect := hstart.effect c.command
  rw [StoreStep.run, StoreStep.run, StoreCommand.runOn_perform, StoreCommand.runOn_perform]
  generalize c.command.effect (c.start s) = a, c.command.effect (c.start t) = b at heffect
  cases heffect with
  | answered r h => exact ⟨rfl, h⟩
  | changed hanswers h => exact h.written c.command.store hanswers

theorem Alike.afterSteps (h : Alike s t) (steps : List StoreStep) :
    Alike (s.afterSteps steps) (t.afterSteps steps) := by
  induction steps generalizing s t with
  | nil => exact h
  | cons c steps ih => exact ih (h.run c).services

theorem Alike.outcomes (h : Alike s t) (steps : List StoreStep) :
    (s.outcomes steps).map (·.map StoreAnswer.sorted) = (t.outcomes steps).map (·.map StoreAnswer.sorted) := by
  induction steps generalizing s t with
  | nil => rfl
  | cons c steps ih =>
      rw [Service.outcomes, Service.outcomes, List.map_cons, List.map_cons, (h.run c).answers, ih (h.run c).services]

/-! ## Reads -/

/-- The same answers to all reads, up to the order of keys. -/
structure ReadsAlike (s t : Service σ) : Prop where
  definitionsOf : ∀ table, s.definitions.get table = t.definitions.get table
  allDefinitions : s.definitions.tables.Perm t.definitions.tables
  settingsOf : ∀ database table, s.settings.get database table = t.settings.get database table
  allSettings : s.settings.entries.Perm t.settings.entries
  visible : ∀ database table, s.settings.isVisible database table = t.settings.isVisible database table
  recent : ∀ scope,
    (s.history.recent scope).map HistoryEntry.sorted = (t.history.recent scope).map HistoryEntry.sorted
  block : ∀ id, (s.blocks.get id).map ReportBlock.sorted = (t.blocks.get id).map ReportBlock.sorted
  ownedBy : ∀ owner,
    (s.blocks.ownedBy owner).map ReportBlock.sorted = (t.blocks.ownedBy owner).map ReportBlock.sorted

theorem Alike.reads (h : Alike s t) : ReadsAlike s t := by
  have hdefinitions := Entries.get?_perm h.definitionKeys h.definitions
  have hsettings := fun database table =>
    Entries.get?_perm h.settingKeys h.settings (SettingsStore.key database table)
  have hget : ∀ database table, s.settings.get database table = t.settings.get database table := hsettings
  refine ⟨fun table => ?_, h.definitions, hget, h.settings, fun database table => ?_, fun scope => ?_, fun id => ?_,
    fun owner => ?_⟩
  · rw [DefinitionStore.get, DefinitionStore.get, hdefinitions]
  · rw [SettingsStore.isVisible, SettingsStore.isVisible, hget]
  · rw [← HistoryStore.recent_sorted, ← HistoryStore.recent_sorted, h.history]
  · rw [← BlockStore.get_sorted, ← BlockStore.get_sorted, h.blocks]
  · rw [← BlockStore.ownedBy_sorted, ← BlockStore.ownedBy_sorted, h.blocks]

/-! ## Stores that are built again -/

/-- An empty directory of files and the stores that are built from it, with any limit of the history. -/
structure IsNew (s : Service σ) : Prop where
  files : s.files = []
  definitions : s.definitions.tables = []
  settings : s.settings.entries = []
  history : s.history.entries = []
  blocks : s.blocks.blocks = []

theorem IsNew.saved (h : s.IsNew) : s.Saved := by
  have hdocument : ∀ k : StoreKind, k.document s = k.empty := by
    intro k
    cases k
    · exact congrArg (fun es : Entries (List FilterDefinition) => (DefinitionStore.mk es).toValue) h.definitions
    · exact congrArg (fun es : Entries TableSettings => (SettingsStore.mk es).toValue) h.settings
    · exact congrArg (fun es : List HistoryEntry => (HistoryStore.mk s.history.limit es).toValue) h.history
    · exact congrArg (fun es : Entries ReportBlock => (BlockStore.mk es).toValue) h.blocks
  refine ⟨⟨fun k => ?_, ?_⟩, fun k => ?_⟩
  · rw [hdocument]
    cases k <;> decide
  · refine ⟨?_, fun e he => ?_⟩
    · rw [h.blocks]
      exact List.nodup_nil
    · rw [h.blocks] at he
      exact nomatch he
  · exact .inl ⟨by rw [h.files]; rfl, hdocument k⟩

end Service

end TableSteward

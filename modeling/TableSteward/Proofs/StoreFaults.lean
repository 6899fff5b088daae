import TableSteward.Proofs.StoreCommand
import TableSteward.Proofs.StoreReload

/-!
# Operations whose document cannot be written

An operation changes the memory before it writes, and nothing is undone when the write fails.  So after any run the
memory is what it would be had every document been written, and a file holds the last document of its store that could
be.  Whether a later operation succeeds depends on everything that is in memory, failed changes included.
-/
set_option autoImplicit false

namespace TableSteward

/-! ## Documents that have a text -/

namespace Files

theorem documentText_of_encodable {v : Value} (h : v.encodable = true) : ∃ text, documentText v = .ok text := by
  rw [← Value.encodable_sorted, ← Value.indented_isSome v.sorted 0] at h
  obtain ⟨text, htext⟩ := Option.isSome_iff_exists.mp h
  exact ⟨text, by rw [documentText, htext]⟩

theorem documentText_of_not_encodable {v : Value} (h : v.encodable = false) :
    documentText v = .error .notEncodable := by
  rw [← Value.encodable_sorted, ← Value.indented_isSome v.sorted 0, Option.isSome_eq_false_iff,
    Option.isNone_iff_eq_none] at h
  rw [documentText, h]

end Files

theorem FilterSpec.encodable_toValue (f : FilterSpec) : f.toValue.encodable = f.value.encodable := by
  simp [FilterSpec.toValue]

theorem HistoryEntry.encodable_toValue (e : HistoryEntry) :
    e.toValue.encodable = e.filters.all fun f => f.value.encodable := by
  simp [HistoryEntry.toValue, List.all_map, Function.comp_def, FilterSpec.encodable_toValue]

theorem Value.encodable_ofOption (s : Option String) : (Value.ofOption s).encodable = true := by
  cases s <;> rfl

theorem ReportBlock.encodable_toValue (b : ReportBlock) : b.toValue.encodable = (Value.dict b.config).encodable := by
  simp [ReportBlock.toValue, Value.encodable_ofOption]

theorem BlockStore.encodable_toValue (s : BlockStore) :
    s.toValue.encodable = s.blocks.all fun e => (Value.dict e.2.config).encodable := by
  simp only [toValue, Value.encodable_list, List.all_map, Function.comp_def, ReportBlock.encodable_toValue]

namespace StoreKind

variable {σ : Type}

/-- Definitions and settings consist of texts and truth values. -/
theorem encodable_document (s : Service σ) : ∀ k : StoreKind, (k.document s).encodable =
    match k with
    | definitions | settings => true
    | history => s.history.entries.all fun e => e.filters.all fun f => f.value.encodable
    | blocks => s.blocks.blocks.all fun e => (Value.dict e.2.config).encodable
  | definitions => by
      simp [document, DefinitionStore.toValue, FilterDefinition.toValue, List.all_map, Function.comp_def]
  | settings => by
      simp [document, SettingsStore.toValue, TableSettings.toValue, Value.texts, Value.encodable_ofOption]
  | history => by
      simp [document, HistoryStore.toValue, List.all_map, Function.comp_def, HistoryEntry.encodable_toValue]
  | blocks => s.blocks.encodable_toValue

end StoreKind

/-! ## What is kept and what is written -/

namespace Service

variable {σ : Type}

/-- What is to be put into the file of a store. -/
def textFor (s : Service σ) (k : StoreKind) : Result (List UInt8) :=
  if s.writable then (Files.documentText (k.document s)).map Text.encode else .error .notWritten

theorem filesWith_eq (s : Service σ) (k : StoreKind) :
    s.filesWith k.fileName (k.document s) = (s.textFor k).map fun bs => s.files.put k.fileName bs := by
  rw [filesWith, textFor]
  split
  · rw [Files.write]
    cases Files.documentText (k.document s) <;> rfl
  · rfl

/-- What is written is the whole of the store. -/
theorem map_textFor {α : Type} (s : Service σ) (k : StoreKind) (a : α) :
    ((s.textFor k).map fun _ => a) =
      if s.writable then if (k.document s).encodable then .ok a else .error .notEncodable
      else .error .notWritten := by
  rw [textFor]
  split
  · split
    · rename_i hencodable
      obtain ⟨text, htext⟩ := Files.documentText_of_encodable hencodable
      rw [htext]
      rfl
    · rename_i hencodable
      rw [Files.documentText_of_not_encodable (Bool.eq_false_iff.mpr hencodable)]
      rfl
  · rfl

end Service

theorem StoreKind.written_fst {σ : Type} (k : StoreKind) (a : StoreAnswer) (s : Service σ) :
    (k.written a s).1 =
      if s.writable then if (k.document s).encodable then .ok a else .error .notEncodable
      else .error .notWritten := by
  rw [← s.map_textFor k a, written, Service.filesWith_eq]
  cases s.textFor k <;> rfl

/-- The file of a store that is to be written is as it was, or holds what is in memory. -/
theorem StoreKind.files_written {σ : Type} (k : StoreKind) (a : StoreAnswer) (s : Service σ) (empty : Value) :
    (k.written a s).2.files = s.files ∨ (k.written a s).2.files.Holds k.fileName (k.document s) empty := by
  rw [written, Service.filesWith]
  split
  · rename_i files hfiles
    refine .inr ?_
    split at hfiles
    · rw [Files.write] at hfiles
      cases htext : Files.documentText (k.document s) with
      | error f =>
          rw [htext] at hfiles
          cases hfiles
      | ok text =>
          rw [htext] at hfiles
          cases hfiles
          exact .inr ⟨text, htext, by rw [Entries.get?_put, if_pos rfl]⟩
    · cases hfiles
  · exact .inl rfl

namespace StoreEffect

variable {σ : Type}

def withFiles (files : Files) : StoreEffect σ → StoreEffect σ
  | answered r s => answered r { s with files := files }
  | changed a s => changed a { s with files := files }

end StoreEffect

theorem StoreCommand.effect_withFiles {σ : Type} (c : StoreCommand) (s : Service σ) (files : Files) :
    c.effect { s with files := files } = (c.effect s).withFiles files := by
  cases c <;> simp only [effect, Service.nextId] <;> (repeat' split) <;> rfl

namespace StoreStep

variable {σ : Type}

/-- The memory after a step, whether or not it could be written. -/
def kept (c : StoreStep) (s : Service σ) : Service σ := (c.command.effect (c.start s)).service

/-- The file that a step writes. -/
def put? (c : StoreStep) (s : Service σ) : Option (String × List UInt8) :=
  match c.command.effect (c.start s) with
  | .answered .. => none
  | .changed _ t => (t.textFor c.command.store).toOption.map fun bs => (c.command.store.fileName, bs)

def outcome (c : StoreStep) (s : Service σ) : Result StoreAnswer :=
  match c.command.effect (c.start s) with
  | .answered r _ => r
  | .changed a t => (t.textFor c.command.store).map fun _ => a

variable (c : StoreStep) (s : Service σ) (files : Files)

theorem effect_start_withFiles :
    c.command.effect (c.start { s with files := files }) = (c.command.effect (c.start s)).withFiles files :=
  c.command.effect_withFiles (c.start s) files

theorem kept_withFiles : c.kept { s with files := files } = { c.kept s with files := files } := by
  rw [kept, kept, effect_start_withFiles]
  cases c.command.effect (c.start s) <;> rfl

theorem put?_withFiles : c.put? { s with files := files } = c.put? s := by
  rw [put?, put?, effect_start_withFiles]
  cases c.command.effect (c.start s) with
  | answered r t => rfl
  | changed a t => cases c.command.store <;> rfl

theorem outcome_withFiles : c.outcome { s with files := files } = c.outcome s := by
  rw [outcome, outcome, effect_start_withFiles]
  cases c.command.effect (c.start s) with
  | answered r t => rfl
  | changed a t => cases c.command.store <;> rfl

variable {c s}

theorem put?_of_error {f : Fault} (h : c.outcome s = .error f) : c.put? s = none := by
  rw [outcome] at h
  rw [put?]
  cases heffect : c.command.effect (c.start s) with
  | answered r t => rfl
  | changed a t =>
      simp only [heffect] at h ⊢
      cases htext : t.textFor c.command.store with
      | error g => rfl
      | ok bs =>
          rw [htext] at h
          exact nomatch h

theorem outcome_of_changed {a : StoreAnswer} {t : Service σ} (heffect : c.command.effect (c.start s) = .changed a t) :
    c.outcome s =
      if c.writable then if (c.command.store.document t).encodable then .ok a else .error .notEncodable
      else .error .notWritten := by
  have hwritable : t.writable = c.writable := by
    have hsame := (c.command.files_effect (c.start s)).2.1
    rwa [heffect] at hsame
  rw [outcome, heffect, ← hwritable]
  exact t.map_textFor c.command.store a

end StoreStep

namespace Service

variable {σ : Type}

def putAll (files : Files) (puts : List (String × List UInt8)) : Files :=
  puts.foldl (fun fs e => fs.put e.1 e.2) files

end Service

theorem StoreStep.run_eq {σ : Type} (c : StoreStep) (s : Service σ) :
    c.run s = (c.outcome s, { c.kept s with files := Service.putAll s.files (c.put? s).toList }) := by
  have hfiles : (c.kept s).files = s.files := (c.command.files_effect (c.start s)).1
  rw [run, StoreCommand.runOn_perform, outcome, put?]
  rw [kept] at hfiles ⊢
  cases heffect : c.command.effect (c.start s) with
  | answered r t =>
      rw [heffect, StoreEffect.service_answered] at hfiles
      simp only [StoreEffect.service_answered, Option.toList_none, Service.putAll, List.foldl_nil, ← hfiles]
  | changed a t =>
      rw [heffect, StoreEffect.service_changed] at hfiles
      simp only [StoreEffect.service_changed, StoreKind.written, Service.filesWith_eq, ← hfiles]
      cases t.textFor c.command.store <;> rfl

namespace Service

variable {σ : Type}

/-- The memory after some steps, had all their documents been written. -/
def keeping (s : Service σ) (steps : List StoreStep) : Service σ := steps.foldl (fun s c => c.kept s) s

/-- The files that some steps write, in a row. -/
def puts : Service σ → List StoreStep → List (String × List UInt8)
  | _, [] => []
  | s, c :: steps => (c.put? s).toList ++ puts (c.kept s) steps

theorem keeping_withFiles (s : Service σ) (files : Files) (steps : List StoreStep) :
    { s with files := files }.keeping steps = { s.keeping steps with files := files } := by
  induction steps generalizing s with
  | nil => rfl
  | cons c steps ih => exact (congrArg (·.keeping steps) (c.kept_withFiles s files)).trans (ih (c.kept s))

theorem puts_withFiles (s : Service σ) (files : Files) (steps : List StoreStep) :
    { s with files := files }.puts steps = s.puts steps := by
  induction steps generalizing s with
  | nil => rfl
  | cons c steps ih => rw [puts, puts, c.put?_withFiles, c.kept_withFiles, ih]

theorem afterSteps_eq (s : Service σ) (steps : List StoreStep) :
    s.afterSteps steps = { s.keeping steps with files := putAll s.files (s.puts steps) } := by
  induction steps generalizing s with
  | nil => rfl
  | cons c steps ih =>
      have hputs : putAll s.files (s.puts (c :: steps)) =
          putAll (putAll s.files (c.put? s).toList) ((c.kept s).puts steps) := List.foldl_append
      rw [afterSteps_cons, c.run_eq, ih, keeping_withFiles, puts_withFiles, hputs]
      rfl

/-- After any steps the memory is as if all of their documents had been written, and the files hold those that could
be.  A step that ends in a fault leaves the files alone.  One that changes its store keeps the change and succeeds just
if files can be written and the whole of the store has a text, with all that earlier steps have left in it. -/
theorem failed_writes_stay (s : Service σ) (steps : List StoreStep) :
    s.afterSteps steps = { s.keeping steps with files := putAll s.files (s.puts steps) } ∧
      ∀ c : StoreStep,
        (∀ f, (c.run (s.afterSteps steps)).1 = .error f →
          (c.run (s.afterSteps steps)).2.files = (s.afterSteps steps).files) ∧
        ∀ a t, c.command.effect (c.start (s.keeping steps)) = .changed a t →
          (c.run (s.afterSteps steps)).2 = { t with files := (c.run (s.afterSteps steps)).2.files } ∧
          (c.run (s.afterSteps steps)).1 =
            if c.writable then
              if (c.command.store.document t).encodable then .ok a else .error .notEncodable
            else .error .notWritten := by
  refine ⟨s.afterSteps_eq steps, fun c => ⟨fun f hfault => ?_, fun a t heffect => ?_⟩⟩
  · rw [c.run_eq] at hfault ⊢
    rw [StoreStep.put?_of_error hfault]
    rfl
  · have hkept : c.kept (s.keeping steps) = t := by rw [StoreStep.kept, heffect, StoreEffect.service_changed]
    rw [c.run_eq, afterSteps_eq, c.kept_withFiles, c.outcome_withFiles, hkept, c.outcome_of_changed heffect]
    exact ⟨rfl, rfl⟩

/-- The step in which a text block is made. -/
def textBlockStep (owner : String) (config : Entries Value) (now : String) : StoreStep :=
  ⟨.createBlock (.text owner) (.text "text") .null (.dict config), now, true⟩

theorem outcome_textBlockStep (s : Service σ) (owner : String) (config : Entries Value) (now : String) :
    (textBlockStep owner config now).outcome s =
      if (s.blocks.add ⟨s.nextId, owner, "text", none, config⟩).toValue.encodable
      then .ok (.block ⟨s.nextId, owner, "text", none, config⟩) else .error .notEncodable :=
  StoreStep.outcome_of_changed (t := { s with
    now := now
    writable := true
    ids := s.ids + 1
    blocks := s.blocks.add ⟨s.nextId, owner, "text", none, config⟩ }) rfl

/-- A block that cannot be written is listed all the same, and the next block fails, whoever makes it. -/
theorem unwritten_block_stays :
    let unwritten := textBlockStep "ann" [("x", .decimal (.finite false 1 (-1)))] "2024-03-01"
    let next := textBlockStep "ben" [] "2024-03-02"
    (unwritten.run bare).1 = .error .notEncodable ∧ (unwritten.run bare).2.files = bare.files ∧
      (bare.blocks.ownedBy "ann").length = 0 ∧ ((unwritten.run bare).2.blocks.ownedBy "ann").length = 1 ∧
      (∃ b, (next.run bare).1 = .ok (.block b)) ∧ (next.run (unwritten.run bare).2).1 = .error .notEncodable := by
  intro unwritten next
  have hfirst : unwritten.outcome bare = .error .notEncodable :=
    (outcome_textBlockStep bare "ann" _ _).trans (if_neg (by decide +kernel))
  have hput : unwritten.put? bare = none := StoreStep.put?_of_error hfirst
  have hnext : next.outcome bare = .ok (.block ⟨bare.nextId, "ben", "text", none, []⟩) :=
    (outcome_textBlockStep bare "ben" _ _).trans (if_pos (by decide +kernel))
  have hfails : next.outcome (unwritten.kept bare) = .error .notEncodable :=
    (outcome_textBlockStep (unwritten.kept bare) "ben" _ _).trans (if_neg (by decide +kernel))
  rw [unwritten.run_eq, next.run_eq, next.run_eq, next.outcome_withFiles]
  exact ⟨hfirst, by rw [hput]; rfl, rfl, rfl, ⟨_, hnext⟩, hfails⟩

end Service

end TableSteward

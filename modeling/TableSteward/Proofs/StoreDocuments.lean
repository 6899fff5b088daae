import TableSteward.Proofs.StoreCommand
import TableSteward.Proofs.StoreOrder

/-!
# Stores that are in their files

As long as operations are given values of JSON, the documents of the stores are values of JSON, and every store is in
its file after each operation.  So the stores can be built again from the files at any time, with their keys in order.
-/
set_option autoImplicit false

namespace TableSteward

/-! ## Values that fit into documents -/

namespace Value

/-- A value of JSON with no more levels of nesting than there is room for. -/
def Fits (room : Nat) (v : Value) : Prop := v.isJson = true ∧ v.depth ≤ room

instance (room : Nat) (v : Value) : Decidable (v.Fits room) := inferInstanceAs (Decidable (_ ∧ _))

variable {room : Nat}

theorem fits_text (s : String) : (text s).Fits room ↔ Text.hasHalf s = false := by
  simp [Fits, isJson, depth]

theorem fits_list (items : List Value) : (list items).Fits (room + 1) ↔ ∀ v ∈ items, v.Fits room := by
  rw [Fits, isJson_list, depth_list_le, ← forall₂_and]
  rfl

theorem fits_dict (entries : List (String × Value)) : (dict entries).Fits (room + 1) ↔
    (Entries.keys entries).Nodup ∧ ∀ e ∈ entries, Text.hasHalf e.1 = false ∧ e.2.Fits room := by
  rw [Fits, isJson_dict, depth_dict_le, and_assoc, ← forall₂_and]
  simp only [and_assoc]
  rfl

theorem Fits.mono {v : Value} {n : Nat} (h : v.Fits room) (hroom : room ≤ n) : v.Fits n := ⟨h.1, h.2.trans hroom⟩

end Value

namespace Entries

theorem mem_put {α : Type} {es : Entries α} {key : String} {v : α} {e : String × α} (h : e ∈ es.put key v) :
    e ∈ es ∨ e = (key, v) := by
  induction es with
  | nil => exact .inr (List.mem_singleton.mp h)
  | cons f es ih =>
      obtain ⟨k, w⟩ := f
      rw [put] at h
      split at h
      · rename_i hk
        rcases List.mem_cons.mp h with rfl | h
        · exact .inr (by rw [hk])
        · exact .inl (List.mem_cons_of_mem _ h)
      · rcases List.mem_cons.mp h with rfl | h
        · exact .inl (List.mem_cons_self ..)
        · exact (ih h).imp_left (List.mem_cons_of_mem _)

/-- Entries of values that fit are kept when another one is put. -/
theorem fits_put {α : Type} {f : α → Value} {es : Entries α} {key : String} {v : α} {room : Nat}
    (h : (Value.dict (es.map fun e => (e.1, f e.2))).Fits (room + 1)) (hkey : Text.hasHalf key = false)
    (hv : (f v).Fits room) : (Value.dict ((es.put key v).map fun e => (e.1, f e.2))).Fits (room + 1) := by
  rw [Value.fits_dict, keys, List.map_map] at h ⊢
  refine ⟨nodup_put h.1 key v, ?_⟩
  intro e he
  obtain ⟨d, hd, rfl⟩ := List.mem_map.mp he
  rcases mem_put hd with hd | rfl
  · exact h.2 _ (List.mem_map_of_mem hd)
  · exact ⟨hkey, hv⟩

end Entries

namespace HistoryEntry

theorem fits_iff (e : HistoryEntry) (room : Nat) : e.toValue.Fits (room + 2) ↔
    (Text.hasHalf e.id = false ∧ Text.hasHalf e.userId = false ∧ Text.hasHalf e.database = false ∧
      Text.hasHalf e.table = false) ∧ (∀ f ∈ e.filters, f.toValue.Fits room) ∧ Text.hasHalf e.lastUsedAt = false := by
  have hkeys : (["id", "userId", "database", "table", "filters", "lastUsedAt"] : List String).Nodup ∧
      ∀ k ∈ ["id", "userId", "database", "table", "filters", "lastUsedAt"], Text.hasHalf k = false := by decide
  rw [toValue, Value.fits_dict]
  simp only [Entries.keys, List.map_cons, List.map_nil, hkeys.1, true_and, List.forall_mem_cons, Value.fits_text,
    Value.fits_list, List.forall_mem_map, List.not_mem_nil, false_imp_iff, implies_true, and_true]
  simp only [List.forall_mem_cons] at hkeys
  simp only [hkeys, true_and, and_assoc]

end HistoryEntry

theorem HistoryStore.sublist_of_dropFirst {id userId : String} : ∀ {es rest : List HistoryEntry},
    dropFirst id userId es = some rest → rest.Sublist es := by
  intro es
  induction es with
  | nil => exact fun h => nomatch h
  | cons e es ih =>
      intro rest h
      rw [dropFirst] at h
      split at h
      · cases h
        exact List.sublist_cons_self e es
      · obtain ⟨others, hothers, rfl⟩ := Option.map_eq_some_iff.mp h
        exact (ih hothers).cons_cons e

namespace Checked

variable {α β : Type}

theorem of_seq_ok {f : Checked (α → β)} {x : Checked α} {b : β} (h : f <*> x = .ok b) :
    ∃ g a, f = .ok g ∧ x = .ok a ∧ g a = b := by
  cases f with
  | wrong _ => cases x <;> exact nomatch h
  | ok g =>
      cases x with
      | wrong _ => exact nomatch h
      | ok a => exact ⟨g, a, rfl, rfl, Checked.ok.inj h⟩

theorem of_map_ok {f : α → β} {x : Checked α} {b : β} (h : f <$> x = .ok b) : ∃ a, x = .ok a ∧ f a = b := by
  cases x with
  | wrong _ => exact nomatch h
  | ok a => exact ⟨a, rfl, Checked.ok.inj h⟩

theorem of_within_ok {step : PathStep} {x : Checked α} {a : α} (h : within step x = .ok a) : x = .ok a := by
  cases x with
  | wrong _ => exact nomatch h
  | ok _ => exact h

theorem of_text_ok {v : Value} {s : String} (h : text v = .ok s) : v = .text s := by
  cases v <;> cases h
  rfl

theorem of_dict_ok {v : Value} {es : Entries Value} (h : dict v = .ok es) : v = .dict es := by
  cases v <;> cases h
  rfl

theorem of_optional_ok {v : Value} {s : Option String} (h : optional text v = .ok s) : v = .ofOption s := by
  by_cases hv : v = .null
  · subst hv
    cases h
    rfl
  · rw [optional] at h
    · obtain ⟨t, ht, rfl⟩ := of_map_ok h
      exact of_text_ok ht
    · exact hv

theorem of_run_ok {x : Checked α} {a : α} (h : x.run = .ok a) : x = .ok a := by
  cases x with
  | wrong _ => exact nomatch h
  | ok _ => exact congrArg Checked.ok (Except.ok.inj h)

end Checked

/-- The parts of a block that is made of values. -/
theorem ReportBlock.of_ofParts {id : String} {owner kind title config : Value} {b : ReportBlock}
    (h : ofParts id owner kind title config = .ok b) :
    b.id = id ∧ owner = .text b.owner ∧ kind = .text b.kind ∧ title = .ofOption b.title ∧ config = .dict b.config := by
  obtain ⟨withTitle, es, htitled, hconfig, hb⟩ := Checked.of_seq_ok (Checked.of_run_ok h)
  obtain ⟨withKind, t, hkinded, htitle, ht⟩ := Checked.of_seq_ok htitled
  obtain ⟨withOwner, k, howned, hkind, hk⟩ := Checked.of_seq_ok hkinded
  obtain ⟨withId, o, hnamed, howner, ho⟩ := Checked.of_seq_ok howned
  obtain ⟨i, hid, hi⟩ := Checked.of_map_ok hnamed
  subst hb ht hk ho hi
  have hid : Checked.within (.field "id") (Checked.text (.text id)) = .ok i := hid
  have howner : Checked.within (.field "owner_id") (Checked.text owner) = .ok o := howner
  have hkind : Checked.within (.field "kind") (Checked.text kind) = .ok k := hkind
  have htitle : Checked.within (.field "title") (Checked.optional Checked.text title) = .ok t := htitle
  have hconfig : Checked.within (.field "config") (Checked.dict config) = .ok es := hconfig
  cases Checked.of_within_ok hid
  exact ⟨rfl, Checked.of_text_ok (Checked.of_within_ok howner), Checked.of_text_ok (Checked.of_within_ok hkind),
    Checked.of_optional_ok (Checked.of_within_ok htitle), Checked.of_dict_ok (Checked.of_within_ok hconfig)⟩

/-! ## Stores that fit into documents -/

section Fits

variable (room : Nat)

theorem DefinitionStore.fits_set {s : DefinitionStore} (h : s.toValue.Fits (room + 2)) {table : String}
    (htable : Text.hasHalf table = false) {ds : List FilterDefinition} (hds : ∀ d ∈ ds, d.toValue.Fits room) :
    (s.set table ds).toValue.Fits (room + 2) := by
  have hvalue : (Value.list (ds.map FilterDefinition.toValue)).Fits (room + 1) := by
    rw [Value.fits_list, List.forall_mem_map]
    exact hds
  exact Entries.fits_put (f := fun ds : List FilterDefinition => Value.list (ds.map FilterDefinition.toValue)) h
    htable hvalue

theorem SettingsStore.fits_set {s : SettingsStore} (h : s.toValue.Fits (room + 1)) {database table : String}
    (hkey : Text.hasHalf (key database table) = false) {settings : TableSettings}
    (hsettings : settings.toValue.Fits room) :
    (s.set database table settings).toValue.Fits (room + 1) :=
  Entries.fits_put (f := TableSettings.toValue) h hkey hsettings

namespace HistoryStore

variable {s : HistoryStore}

theorem fits_iff (s : HistoryStore) : s.toValue.Fits (room + 1) ↔ ∀ e ∈ s.entries, e.toValue.Fits room := by
  rw [toValue, Value.fits_list, List.forall_mem_map]

theorem fits_replaceAt (h : s.toValue.Fits (room + 3)) {place : Nat} {e : HistoryEntry} (he : e ∈ s.entries)
    {now : String} (hnow : Text.hasHalf now = false) :
    (s.replaceAt place { e with lastUsedAt := now }).toValue.Fits (room + 3) := by
  rw [fits_iff] at h ⊢
  intro x hx
  rcases List.mem_or_eq_of_mem_set hx with hx | rfl
  · exact h x hx
  · have hfits := (HistoryEntry.fits_iff e room).mp (h e he)
    exact (HistoryEntry.fits_iff _ room).mpr ⟨hfits.1, hfits.2.1, hnow⟩

theorem fits_add (h : s.toValue.Fits (room + 1)) {e : HistoryEntry} (he : e.toValue.Fits room) :
    (s.add e).toValue.Fits (room + 1) := by
  rw [fits_iff] at h ⊢
  intro x hx
  rcases List.mem_append.mp (List.mem_of_mem_filter hx) with hx | hx
  · exact h x hx
  · exact List.mem_singleton.mp hx ▸ he

theorem fits_delete (h : s.toValue.Fits (room + 1)) {id userId : String} {rest : HistoryStore}
    (hrest : s.delete? id userId = some rest) : rest.toValue.Fits (room + 1) := by
  obtain ⟨es, hes, rfl⟩ := Option.map_eq_some_iff.mp hrest
  rw [fits_iff] at h ⊢
  intro x hx
  exact h x ((sublist_of_dropFirst hes).subset hx)

end HistoryStore

namespace BlockStore

variable {s : BlockStore}

theorem fits_iff (s : BlockStore) : s.toValue.Fits (room + 1) ↔ ∀ e ∈ s.blocks, e.2.toValue.Fits room := by
  rw [toValue, Value.fits_list, List.forall_mem_map]

theorem fits_add (h : s.toValue.Fits (room + 1)) {b : ReportBlock} (hb : b.toValue.Fits room) :
    (s.add b).toValue.Fits (room + 1) := by
  rw [fits_iff] at h ⊢
  intro e he
  rcases Entries.mem_put he with he | rfl
  · exact h e he
  · exact hb

theorem Keyed.add (h : s.Keyed) (b : ReportBlock) : (s.add b).Keyed := by
  refine ⟨Entries.nodup_put h.keys b.id b, ?_⟩
  intro e he
  rcases Entries.mem_put he with he | rfl
  · exact h.ids e he
  · rfl

theorem delete?_eq (s : BlockStore) (id owner : String) :
    s.delete? id owner = ((s.get id).filter (·.owner == owner)).map fun _ => ⟨s.blocks.erase id⟩ := by
  rw [delete?]
  cases s.get id with
  | none => rfl
  | some b =>
      simp only [Option.filter_some]
      cases b.owner == owner <;> rfl

theorem of_delete? {id owner : String} {rest : BlockStore} (h : s.delete? id owner = some rest) :
    ∃ b, s.blocks.get? id = some b ∧ b.owner = owner ∧ rest = ⟨s.blocks.erase id⟩ := by
  rw [delete?_eq, Option.map_eq_some_iff] at h
  obtain ⟨b, hb, rfl⟩ := h
  obtain ⟨hget, howner⟩ := Option.filter_eq_some_iff.mp hb
  exact ⟨b, hget, eq_of_beq howner, rfl⟩

theorem fits_delete (h : s.toValue.Fits (room + 1)) {id owner : String} {rest : BlockStore}
    (hrest : s.delete? id owner = some rest) : rest.toValue.Fits (room + 1) := by
  obtain ⟨-, -, -, rfl⟩ := of_delete? hrest
  rw [fits_iff] at h ⊢
  intro e he
  exact h e (List.mem_of_mem_filter he)

theorem Keyed.delete (h : s.Keyed) {id owner : String} {rest : BlockStore}
    (hrest : s.delete? id owner = some rest) : rest.Keyed := by
  obtain ⟨-, -, -, rfl⟩ := of_delete? hrest
  exact ⟨Entries.nodup_filter h.keys _, fun e he => h.ids e (List.mem_of_mem_filter he)⟩

end BlockStore

end Fits

/-! ## Operations on values of JSON -/

namespace StoreCommand

/-- What an operation puts into the document of its store. -/
def values : StoreCommand → List Value
  | setDefinitions table definitions => .text table :: definitions.map FilterDefinition.toValue
  | setSettings database table settings => [.text (SettingsStore.key database table), settings.toValue]
  | saveHistory scope filters =>
      .text scope.userId :: .text scope.database :: .text scope.table :: filters.map FilterSpec.toValue
  | createBlock owner kind title config => [owner, kind, title, config]
  | deleteHistory .. | deleteBlock .. => []

/-- The levels of nesting that the document has above these values. -/
def level : StoreCommand → Nat
  | setSettings .. => 1
  | setDefinitions .. | createBlock .. => 2
  | saveHistory .. => 3
  | deleteHistory .. | deleteBlock .. => 0

end StoreCommand

/-- An operation on values of JSON, whose document a reader takes, at a time when files can be written. -/
structure StoreStep.IsJson (c : StoreStep) : Prop where
  writable : c.writable = true
  now : Text.hasHalf c.now = false
  values : ∀ v ∈ c.command.values, v.Fits (Json.deepest - c.command.level)

instance : DecidablePred StoreStep.IsJson := fun c =>
  decidable_of_iff (c.writable = true ∧ Text.hasHalf c.now = false ∧
      ∀ v ∈ c.command.values, v.Fits (Json.deepest - c.command.level))
    ⟨fun ⟨h, i, j⟩ => ⟨h, i, j⟩, fun ⟨h, i, j⟩ => ⟨h, i, j⟩⟩

namespace Service

variable {σ : Type} {s t : Service σ}

/-- The documents of the stores can be read once they are written. -/
structure Documented (s : Service σ) : Prop where
  fits : ∀ k : StoreKind, (k.document s).Fits Json.deepest
  keyed : s.blocks.Keyed

theorem hasHalf_nextId (s : Service σ) : Text.hasHalf s.nextId = false := by
  rw [Text.hasHalf, List.any_eq_false]
  intro c hc
  rw [nextId, String.toList_append, List.mem_append, Nat.toString_eq_repr, Nat.toList_repr] at hc
  have hascii : c.toNat < 0x80 := by
    rcases hc with hc | hc
    · rcases List.mem_pair.mp hc with rfl | rfl <;> decide
    · have hdigit := Text.isDigit_toDigits _ c hc
      have : 48 ≤ c.toNat ∧ c.toNat ≤ 57 := by simpa [Char.isDigit, UInt32.le_iff_toNat_le] using hdigit
      omega
  have hnot : ¬ 0x100000 ≤ c.toNat := by omega
  simp [Text.half?, hnot]

theorem ReportBlock.fits_of_parts {b : ReportBlock} {room : Nat} (hid : Text.hasHalf b.id = false)
    (howner : Text.hasHalf b.owner = false) (hkind : Text.hasHalf b.kind = false)
    (htitle : (Value.ofOption b.title).Fits room) (hconfig : (Value.dict b.config).Fits room) :
    b.toValue.Fits (room + 1) := by
  have hkeys : (["id", "ownerId", "kind", "title", "config"] : List String).Nodup ∧
      ∀ k ∈ ["id", "ownerId", "kind", "title", "config"], Text.hasHalf k = false := by decide
  rw [ReportBlock.toValue, Value.fits_dict]
  simp only [Entries.keys, List.map_cons, List.map_nil, hkeys.1, true_and, List.forall_mem_cons, Value.fits_text]
  simp only [List.forall_mem_cons] at hkeys
  simp only [hkeys, hid, howner, hkind, htitle, hconfig, true_and]
  exact List.forall_mem_nil _

/-- The document that an operation on values of JSON changes can still be read. -/
theorem Documented.fits_effect (h : s.Documented) (c : StoreStep) (hc : c.IsJson) (hnow : s.now = c.now) :
    (c.command.store.document (c.command.effect s).service).Fits Json.deepest := by
  obtain ⟨command, now, writable⟩ := c
  obtain ⟨-, hhalf, hvalues⟩ := hc
  have hold := h.fits command.store
  cases command with
  | setDefinitions table definitions =>
      simp only [StoreCommand.values, List.forall_mem_cons, Value.fits_text, List.forall_mem_map] at hvalues
      exact DefinitionStore.fits_set (Json.deepest - 2) hold hvalues.1 hvalues.2
  | setSettings database table settings =>
      simp only [StoreCommand.values, List.forall_mem_cons, Value.fits_text] at hvalues
      exact SettingsStore.fits_set (Json.deepest - 1) hold hvalues.1 hvalues.2.1
  | saveHistory scope filters =>
      simp only [StoreCommand.values, List.forall_mem_cons, Value.fits_text, List.forall_mem_map] at hvalues
      simp only [StoreCommand.effect]
      split
      · exact hold
      · split
        · rename_i e place hfound
          have he := List.mem_of_getElem? (HistoryStore.getElem?_of_find? hfound)
          exact HistoryStore.fits_replaceAt (Json.deepest - 3) hold he (hnow ▸ hhalf)
        · have hnew : HistoryEntry.toValue ⟨s.nextId, scope.userId, scope.database, scope.table, filters, s.now⟩ |>.Fits
              (Json.deepest - 3 + 2) := by
            rw [HistoryEntry.fits_iff]
            exact ⟨⟨hasHalf_nextId s, hvalues.1, hvalues.2.1, hvalues.2.2.1⟩, hvalues.2.2.2, hnow ▸ hhalf⟩
          exact HistoryStore.fits_add (Json.deepest - 1) hold hnew
  | deleteHistory id userId =>
      simp only [StoreCommand.effect]
      split
      · rename_i rest hrest
        exact HistoryStore.fits_delete (Json.deepest - 1) hold hrest
      · exact hold
  | createBlock owner kind title config =>
      simp only [StoreCommand.effect]
      split
      · exact hold
      · split
        · exact hold
        · rename_i b hb
          obtain ⟨hid, rfl, rfl, rfl, rfl⟩ := ReportBlock.of_ofParts hb
          simp only [StoreCommand.values, List.forall_mem_cons, Value.fits_text] at hvalues
          have hnew : b.toValue.Fits (Json.deepest - 2 + 1) :=
            ReportBlock.fits_of_parts (hid ▸ hasHalf_nextId s) hvalues.1 hvalues.2.1 hvalues.2.2.1 hvalues.2.2.2.1
          exact BlockStore.fits_add (Json.deepest - 1) hold hnew
  | deleteBlock id owner =>
      simp only [StoreCommand.effect]
      split
      · rename_i rest hrest
        exact BlockStore.fits_delete (Json.deepest - 1) hold hrest
      · exact hold

theorem keyed_effect (h : s.blocks.Keyed) (c : StoreCommand) : (c.effect s).service.blocks.Keyed := by
  cases c with
  | setDefinitions | setSettings => exact h
  | saveHistory | deleteHistory =>
      simp only [StoreCommand.effect]
      (repeat' split) <;> exact h
  | createBlock owner kind title config =>
      simp only [StoreCommand.effect]
      split
      · exact h
      · split
        · exact h
        · exact h.add _
  | deleteBlock id owner =>
      simp only [StoreCommand.effect]
      split
      · rename_i rest hrest
        exact h.delete hrest
      · exact h

theorem Documented.effect (h : s.Documented) (c : StoreStep) (hc : c.IsJson) (hnow : s.now = c.now) :
    (c.command.effect s).service.Documented := by
  refine ⟨fun k => ?_, keyed_effect h.keyed c.command⟩
  by_cases hk : k = c.command.store
  · rw [hk]
    exact h.fits_effect c hc hnow
  · rw [StoreCommand.document_effect_of_ne hk]
    exact h.fits k

end Service

/-! ## Files -/

/-- What is read in the place of a missing file. -/
def StoreKind.empty : StoreKind → Value
  | definitions | settings => .dict []
  | history | blocks => .list []

theorem StoreKind.written_of_fits {σ : Type} {s : Service σ} {k : StoreKind} (hwritable : s.writable = true)
    (hfits : (k.document s).Fits Json.deepest) (a : StoreAnswer) :
    ∃ text, Files.documentText (k.document s) = .ok text ∧
      k.written a s = (.ok a, { s with files := s.files.put k.fileName (Text.encode text) }) := by
  obtain ⟨text, -, htext⟩ := Files.documentText_of_isJson hfits.1
  refine ⟨text, htext, ?_⟩
  rw [written, Service.filesWith, if_pos hwritable, Files.write, htext]
  rfl

namespace Service

variable {σ : Type} {s t : Service σ}

/-- Every store is in its file, from which it can be read. -/
structure Saved (s : Service σ) : Prop extends Documented s where
  holds : ∀ k : StoreKind, s.files.Holds k.fileName (k.document s) k.empty

/-- A store that is written is in its file, and the files of the others stay as they are. -/
theorem Documented.written (h : s.Documented) (hwritable : s.writable = true) {k : StoreKind}
    (hothers : ∀ j ≠ k, s.files.Holds j.fileName (j.document s) j.empty) (a : StoreAnswer) :
    (k.written a s).2.Saved := by
  obtain ⟨text, htext, hwritten⟩ := StoreKind.written_of_fits hwritable (h.fits k) a
  rw [hwritten]
  refine ⟨⟨h.fits, h.keyed⟩, fun j => ?_⟩
  by_cases hj : j = k
  · subst hj
    exact .inr ⟨text, htext, by rw [Entries.get?_put, if_pos rfl]⟩
  · have hfile : Entries.get? (s.files.put k.fileName (Text.encode text)) j.fileName = s.files.get? j.fileName := by
      rw [Entries.get?_put, if_neg fun hname => hj (StoreKind.fileName_injective hname)]
    exact (hothers j hj).of_get? hfile

theorem Saved.run (h : s.Saved) (c : StoreStep) (hc : c.IsJson) : (c.run s).2.Saved := by
  have hstart : (c.start s).Documented := ⟨h.fits, h.keyed⟩
  have heffect := hstart.effect c hc rfl
  obtain ⟨hfiles, hwritable, -⟩ := c.command.files_effect (c.start s)
  have hothers := fun k (hk : k ≠ c.command.store) => StoreCommand.document_effect_of_ne hk (c.start s)
  rw [StoreStep.run, StoreCommand.runOn_perform]
  cases hresult : c.command.effect (c.start s) with
  | answered r t =>
      obtain ⟨ids, rfl⟩ : ∃ ids, t = { c.start s with ids := ids } := ⟨_, StoreCommand.service_of_answered hresult⟩
      exact ⟨⟨h.fits, h.keyed⟩, h.holds⟩
  | changed a t =>
      rw [hresult, StoreEffect.service_changed] at heffect hfiles hwritable
      simp only [hresult, StoreEffect.service_changed] at hothers
      apply heffect.written (hwritable.trans hc.writable)
      intro k hk
      rw [hfiles, hothers k hk]
      exact h.holds k

theorem Saved.afterSteps (h : s.Saved) {steps : List StoreStep} (hsteps : ∀ c ∈ steps, c.IsJson) :
    (s.afterSteps steps).Saved := by
  induction steps generalizing s with
  | nil => exact h
  | cons c steps ih =>
      rw [afterSteps_cons]
      exact ih (h.run c (hsteps c (List.mem_cons_self ..))) fun d hd => hsteps d (List.mem_cons_of_mem _ hd)

end Service

end TableSteward

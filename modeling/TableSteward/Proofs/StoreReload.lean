import TableSteward.Proofs.KeyOrder
import TableSteward.Proofs.Utf8
import TableSteward.Store.Block
import TableSteward.Store.Definition
import TableSteward.Store.History
import TableSteward.Store.Settings

/-!
# Stores that are read from their files again

A file holds the text of a document, and a document of JSON is read from it with its keys in order.  The records of the
four stores check out against such a document, whatever the order of their fields, so a store is read back as it is in
order: its entries by their keys, or the values inside of its records.
-/
set_option autoImplicit false

namespace TableSteward

/-! ## Files -/

namespace Files

/-- A document that is in its file, or an empty one that has none. -/
def Holds (fs : Files) (name : String) (document empty : Value) : Prop :=
  (fs.get? name = none ∧ document = empty) ∨
    ∃ s, documentText document = .ok s ∧ fs.get? name = some (Text.encode s)

theorem documentText_of_isJson {v : Value} (h : v.isJson = true) :
    ∃ s, Json.indented 0 v.sorted = some s ∧ documentText v = .ok s := by
  have htext : (Json.indented 0 v.sorted).isSome = true := by
    rw [Value.indented_isSome, Value.encodable_sorted, Value.encodable_of_isJson v h]
  obtain ⟨s, hs⟩ := Option.isSome_iff_exists.mp htext
  exact ⟨s, hs, by rw [documentText, hs]⟩

/-- What is written depends on the document with its keys in order only. -/
theorem documentText_congr {v w : Value} (h : v.sorted = w.sorted) : documentText v = documentText w := by
  rw [documentText, documentText, h]

theorem Holds.of_get? {fs gs : Files} {name : String} {document empty : Value} (h : fs.Holds name document empty)
    (hsame : gs.get? name = fs.get? name) : gs.Holds name document empty := by
  rwa [Holds, hsame]

theorem Holds.read {fs : Files} {name : String} {document empty : Value} (h : fs.Holds name document empty)
    (hempty : empty.sorted = empty) (hjson : document.isJson = true) (hdepth : document.depth ≤ Json.deepest) :
    fs.read name empty = .ok document.sorted := by
  rw [Files.read]
  rcases h with ⟨hnone, rfl⟩ | ⟨s, hs, hfile⟩
  · rw [hnone, hempty]
  · obtain ⟨t, hindented, ht⟩ := documentText_of_isJson hjson
    obtain rfl : s = t := Except.ok.inj (hs.symm.trans ht)
    have hread := Json.read_indented (Value.isJson_sorted document hjson)
      (Value.depth_sorted_le document _ hdepth) hindented
    simp only [hfile, Text.decode?_encode, String.ofList_toList, hread]

end Files

/-! ## Fields in any order -/

namespace Checked

variable {α : Type} {es : List (String × Value)}

theorem findField_ordered (hkeys : (Entries.keys es).Nodup) (names : List String) :
    findField (Entries.ordered es) names = findField es names := by
  induction names with
  | nil => rfl
  | cons name names ih =>
      have hlookup : List.lookup name (Entries.ordered es) = List.lookup name es :=
        (Entries.get?_perm hkeys (Entries.ordered_perm es).symm name).symm
      rw [findField, findField, hlookup, ih]

theorem required_ordered (hkeys : (Entries.keys es).Nodup) (names : List String) (check : Value → Checked α) :
    required (Entries.ordered es) names check = required es names check := by
  rw [required, required, findField_ordered hkeys]

theorem withDefault_ordered (hkeys : (Entries.keys es).Nodup) (names : List String) (a : α)
    (check : Value → Checked α) :
    withDefault (Entries.ordered es) names a check = withDefault es names a check := by
  rw [withDefault, withDefault, findField_ordered hkeys]

/-- A list of records checks out if each of them does. -/
theorem items_map {β : Type} (check : Value → Checked α) {f : β → Value} {g : β → α} (xs : List β)
    (h : ∀ x ∈ xs, check (f x) = .ok (g x)) : items check (xs.map f) = .ok (xs.map g) := by
  have hfrom : ∀ (xs : List β), (∀ x ∈ xs, check (f x) = .ok (g x)) → ∀ i,
      itemsFrom check i (xs.map f) = .ok (xs.map g) := by
    intro xs
    induction xs with
    | nil => exact fun _ _ => rfl
    | cons x xs ih =>
        intro h i
        rw [List.map_cons, itemsFrom, h x (List.mem_cons_self ..), ih fun y hy => h y (List.mem_cons_of_mem _ hy)]
        rfl
  exact hfrom xs h 0

end Checked

theorem Result.mapM_map {α β γ : Type} {f : β → Result γ} {g : α → β} {h : α → γ} (xs : List α)
    (hall : ∀ x ∈ xs, f (g x) = .ok (h x)) : (xs.map g).mapM f = .ok (xs.map h) := by
  apply Result.mapM_of_forall₂
  rw [List.forall₂_map_left_iff, List.forall₂_map_right_iff, List.forall₂_same]
  exact hall

/-! ## Records -/

theorem FilterDefinition.check_sorted (d : FilterDefinition) : check .document d.toValue.sorted = .ok d := by
  have hkeys : (Entries.keys [("id", Value.text d.id), ("name", .text d.name), ("column", .text d.column),
      ("operator", .text d.operator)]).Nodup := by simp [Entries.keys]
  simp only [toValue, Value.sorted_dict, List.map_cons, List.map_nil, Value.sorted_text, check, Checked.recordIn,
    Checked.required_ordered hkeys]
  rfl

@[simp] theorem Value.sorted_ofOption (s : Option String) : (Value.ofOption s).sorted = .ofOption s := by
  cases s <;> simp [Value.ofOption]

@[simp] theorem Value.sorted_texts (ss : List String) : (Value.texts ss).sorted = .texts ss := by
  simp [Value.texts]

theorem Checked.optional_ofOption (s : Option String) : Checked.optional Checked.text (.ofOption s) = .ok s := by
  cases s <;> rfl

theorem Checked.list_texts (ss : List String) : Checked.list Checked.text (.texts ss) = .ok ss := by
  have hitems := Checked.items_map Checked.text (f := Value.text) (g := id) ss fun _ _ => rfl
  rwa [List.map_id] at hitems

theorem TableSettings.check_sorted (s : TableSettings) : check .document s.toValue.sorted = .ok s := by
  have hkeys : (Entries.keys [("isVisible", Value.bool s.isVisible), ("displayName", .ofOption s.displayName),
      ("hiddenColumns", .texts s.hiddenColumns)]).Nodup := by simp [Entries.keys]
  have hname := congrArg (Checked.within (.field "displayName")) (Checked.optional_ofOption s.displayName)
  have hcolumns := congrArg (Checked.within (.field "hiddenColumns")) (Checked.list_texts s.hiddenColumns)
  simp only [toValue, Value.sorted_dict, List.map_cons, List.map_nil, Value.sorted_bool, Value.sorted_ofOption,
    Value.sorted_texts, check, Checked.recordIn, fields, Checked.withDefault_ordered hkeys]
  exact congrArg₂ (fun a b => TableSettings.mk <$> Checked.ok s.isVisible <*> a <*> b) hname hcolumns

namespace FilterSpec

/-- A filter with the keys of its value in order. -/
def sorted (f : FilterSpec) : FilterSpec := { f with value := f.value.sorted }

theorem check_sorted (f : FilterSpec) : check .document f.toValue.sorted = .ok f.sorted := by
  have hkeys : (Entries.keys [("column", Value.text f.column), ("operator", .text f.operator),
      ("value", f.value.sorted)]).Nodup := by simp [Entries.keys]
  simp only [toValue, Value.sorted_dict, List.map_cons, List.map_nil, Value.sorted_text, check, Checked.recordIn,
    Checked.required_ordered hkeys, Checked.withDefault_ordered hkeys]
  rfl

end FilterSpec

namespace HistoryEntry

def sorted (e : HistoryEntry) : HistoryEntry := { e with filters := e.filters.map FilterSpec.sorted }

theorem check_sorted (e : HistoryEntry) : check .document e.toValue.sorted = .ok e.sorted := by
  have hkeys : (Entries.keys [("id", Value.text e.id), ("userId", .text e.userId), ("database", .text e.database),
      ("table", .text e.table), ("filters", .list ((e.filters.map FilterSpec.toValue).map Value.sorted)),
      ("lastUsedAt", .text e.lastUsedAt)]).Nodup := by simp [Entries.keys]
  have hitems := Checked.items_map (FilterSpec.check .document) (f := Value.sorted ∘ FilterSpec.toValue) e.filters
    fun f _ => f.check_sorted
  rw [← List.map_map] at hitems
  have hfilters := congrArg (Checked.within (.field "filters")) hitems
  simp only [toValue, Value.sorted_dict, List.map_cons, List.map_nil, Value.sorted_text, Value.sorted_list, check,
    Checked.recordIn, Checked.required_ordered hkeys]
  exact congrArg (fun a => HistoryEntry.mk <$> Checked.ok e.id <*> Checked.ok e.userId <*> Checked.ok e.database <*>
    Checked.ok e.table <*> a <*> Checked.ok e.lastUsedAt) hfilters

end HistoryEntry

namespace ReportBlock

/-- A block with the keys of its configuration in order. -/
def sorted (b : ReportBlock) : ReportBlock :=
  { b with config := Entries.ordered (b.config.map fun e => (e.1, e.2.sorted)) }

theorem check_sorted (b : ReportBlock) : check .document b.toValue.sorted = .ok b.sorted := by
  have hkeys : (Entries.keys [("id", Value.text b.id), ("ownerId", .text b.owner), ("kind", .text b.kind),
      ("title", .ofOption b.title),
      ("config", .dict (Entries.ordered (b.config.map fun e => (e.1, e.2.sorted))))]).Nodup := by
    simp [Entries.keys]
  have htitle := congrArg (Checked.within (.field "title")) (Checked.optional_ofOption b.title)
  simp only [toValue, Value.sorted_dict, List.map_cons, List.map_nil, Value.sorted_text, Value.sorted_ofOption, check,
    Checked.recordIn, Checked.required_ordered hkeys, Checked.withDefault_ordered hkeys]
  exact congrArg (fun a => ReportBlock.mk <$> Checked.ok b.id <*> Checked.ok b.owner <*> Checked.ok b.kind <*> a <*>
    Checked.ok b.sorted.config) htitle

end ReportBlock

/-! ## Stores -/

theorem Value.sorted_dict_map {α : Type} (f : α → Value) (es : Entries α) :
    (Value.dict (es.map fun e => (e.1, f e.2))).sorted =
      .dict (es.ordered.map fun e => (e.1, (f e.2).sorted)) := by
  rw [Value.sorted_dict, List.map_map]
  exact congrArg Value.dict (Entries.map_ordered (fun a => (f a).sorted) es).symm

section Load

variable {fs : Files}

theorem DefinitionStore.load_of_holds {s : DefinitionStore} (h : fs.Holds fileName s.toValue (.dict []))
    (hjson : s.toValue.isJson = true) (hdepth : s.toValue.depth ≤ Json.deepest) :
    load fs = .ok ⟨s.tables.ordered⟩ := by
  have hsorted : s.toValue.sorted = .dict (s.tables.ordered.map fun e =>
      (e.1, (Value.list (e.2.map FilterDefinition.toValue)).sorted)) :=
    Value.sorted_dict_map (fun ds : List FilterDefinition => Value.list (ds.map FilterDefinition.toValue)) s.tables
  have hrecords : ∀ ds : List FilterDefinition,
      ((ds.map (Value.sorted ∘ FilterDefinition.toValue)).mapM fun d => (FilterDefinition.check .document d).run) =
        .ok ds := by
    intro ds
    have hall := Result.mapM_map (f := fun d => (FilterDefinition.check .document d).run) (h := id) ds fun d _ =>
      congrArg Checked.run d.check_sorted
    rwa [List.map_id] at hall
  rw [load, h.read (by simp [Entries.ordered]) hjson hdepth, hsorted]
  have htables := Result.mapM_map (f := fun e : String × Value => (do
      let items ← e.2.iterate
      let ds ← items.mapM fun d => (FilterDefinition.check .document d).run
      return (e.1, ds) : Result (String × List FilterDefinition)))
    (g := fun e => (e.1, (Value.list (e.2.map FilterDefinition.toValue)).sorted)) (h := id) s.tables.ordered ?_
  · rw [List.map_id] at htables
    exact congrArg
      (fun r : Result (Entries (List FilterDefinition)) => r >>= fun tables => .ok (DefinitionStore.mk tables)) htables
  · intro e _
    simp only [Value.sorted_list, List.map_map, Value.iterate, Result.ok_bind, hrecords]
    rfl

theorem SettingsStore.load_of_holds {s : SettingsStore} (h : fs.Holds fileName s.toValue (.dict []))
    (hjson : s.toValue.isJson = true) (hdepth : s.toValue.depth ≤ Json.deepest) :
    load fs = .ok ⟨s.entries.ordered⟩ := by
  have hsorted : s.toValue.sorted = .dict (s.entries.ordered.map fun e => (e.1, e.2.toValue.sorted)) :=
    Value.sorted_dict_map TableSettings.toValue s.entries
  rw [load, h.read (by simp [Entries.ordered]) hjson hdepth, hsorted]
  have hentries := Result.mapM_map (f := fun e : String × Value => (do
      let settings ← (TableSettings.check .document e.2).run
      return (e.1, settings) : Result (String × TableSettings)))
    (g := fun e => (e.1, e.2.toValue.sorted)) (h := id) s.entries.ordered ?_
  · rw [List.map_id] at hentries
    exact congrArg
      (fun r : Result (Entries TableSettings) => r >>= fun entries => .ok (SettingsStore.mk entries)) hentries
  · intro e _
    simp only [TableSettings.check_sorted]
    rfl

/-- A history with the keys of its values in order. -/
def HistoryStore.sorted (s : HistoryStore) : HistoryStore :=
  { s with entries := s.entries.map HistoryEntry.sorted }

theorem HistoryStore.load_of_holds {s : HistoryStore} (h : fs.Holds fileName s.toValue (.list []))
    (hjson : s.toValue.isJson = true) (hdepth : s.toValue.depth ≤ Json.deepest) :
    load s.limit fs = .ok s.sorted := by
  have hentries := Result.mapM_map (f := fun e => (HistoryEntry.check .document e).run)
    (g := Value.sorted ∘ HistoryEntry.toValue) s.entries fun e _ => congrArg Checked.run e.check_sorted
  rw [load, h.read (by simp) hjson hdepth, toValue, Value.sorted_list, List.map_map]
  exact congrArg
    (fun r : Result (List HistoryEntry) => r >>= fun entries => .ok (HistoryStore.mk s.limit entries)) hentries

namespace BlockStore

/-- Every block is kept under its own id, which no other block has. -/
structure Keyed (s : BlockStore) : Prop where
  keys : s.blocks.keys.Nodup
  ids : ∀ e ∈ s.blocks, e.1 = e.2.id

/-- The blocks with the keys of their configurations in order. -/
def sorted (s : BlockStore) : BlockStore := ⟨s.blocks.map fun e => (e.1, e.2.sorted)⟩

/-- Blocks that are added one by one are kept in the same order. -/
theorem foldl_add {bs : List ReportBlock} {s : BlockStore}
    (h : (s.blocks.keys ++ bs.map ReportBlock.id).Nodup) :
    bs.foldl add s = ⟨s.blocks ++ bs.map fun b => (b.id, b)⟩ := by
  induction bs generalizing s with
  | nil => simp
  | cons b bs ih =>
      have hnew : b.id ∉ s.blocks.keys := by
        intro hmem
        exact (List.nodup_append.mp h).2.2 b.id hmem b.id (by simp) rfl
      have hadd : s.add b = ⟨s.blocks ++ [(b.id, b)]⟩ := by rw [add, Entries.put_of_not_mem hnew]
      rw [List.foldl_cons, hadd, ih]
      · simp
      · simpa [Entries.keys] using h

theorem load_of_holds {s : BlockStore} (hkeyed : s.Keyed) (h : fs.Holds fileName s.toValue (.list []))
    (hjson : s.toValue.isJson = true) (hdepth : s.toValue.depth ≤ Json.deepest) : load fs = .ok s.sorted := by
  have hblocks := Result.mapM_map (f := fun b => (ReportBlock.check .document b).run)
    (g := fun e : String × ReportBlock => e.2.toValue.sorted) s.blocks fun e _ => congrArg Checked.run e.2.check_sorted
  have hfold : (s.blocks.map fun e => e.2.sorted).foldl add {} = s.sorted := by
    have hids : (s.blocks.map fun e => e.2.sorted).map ReportBlock.id = s.blocks.keys := by
      rw [List.map_map, Entries.keys]
      exact List.map_congr_left fun e he => (hkeyed.ids e he).symm
    rw [foldl_add]
    · rw [sorted, List.map_map]
      refine congrArg BlockStore.mk (List.map_congr_left fun e he => ?_)
      exact congrArg (·, e.2.sorted) (hkeyed.ids e he).symm
    · rw [hids]
      exact hkeyed.keys
  rw [load, h.read (by simp) hjson hdepth, toValue, Value.sorted_list, List.map_map]
  exact (congrArg (fun r : Result (List ReportBlock) => r >>= fun bs => .ok (bs.foldl add {})) hblocks).trans
    (congrArg Except.ok hfold)

end BlockStore

end Load

end TableSteward

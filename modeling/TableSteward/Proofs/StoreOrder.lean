import TableSteward.Proofs.StoreReload

/-!
# Stores up to the order of keys

A history or a list of blocks that was read from its file has the keys of its values in order.  Every operation and
every read does the same to a store in order as to the store itself, because filters are compared with their keys in
order, and what is written is the same.
-/
set_option autoImplicit false

namespace TableSteward

/-! ## Histories -/

namespace FilterSpec

@[simp] theorem sorted_sorted (f : FilterSpec) : f.sorted.sorted = f.sorted := by
  rw [sorted, sorted, Value.sorted_sorted]

theorem identity_sorted (f : FilterSpec) : f.sorted.identity = f.identity := by
  simp only [identity, sorted, Value.sorted_list, List.map_cons, List.map_nil, Value.sorted_sorted]

theorem toValue_sorted (f : FilterSpec) : f.sorted.toValue.sorted = f.toValue.sorted := by
  simp only [toValue, sorted, Value.sorted_dict, List.map_cons, List.map_nil, Value.sorted_sorted]

end FilterSpec

theorem filtersEqual_sorted (a b : List FilterSpec) : filtersEqual (a.map FilterSpec.sorted) b = filtersEqual a b := by
  have hidentities : identities (a.map FilterSpec.sorted) = identities a := by
    rw [identities, identities, List.map_map]
    congr 1
    exact List.map_congr_left fun f _ => f.identity_sorted
  rw [filtersEqual, filtersEqual, hidentities]

namespace HistoryEntry

@[simp] theorem sorted_sorted (e : HistoryEntry) : e.sorted.sorted = e.sorted := by
  simp [sorted]

theorem toValue_sorted (e : HistoryEntry) : e.sorted.toValue.sorted = e.toValue.sorted := by
  have hfilters : ((e.filters.map FilterSpec.sorted).map FilterSpec.toValue).map Value.sorted =
      (e.filters.map FilterSpec.toValue).map Value.sorted := by
    rw [List.map_map, List.map_map, List.map_map]
    exact List.map_congr_left fun f _ => f.toValue_sorted
  simp only [toValue, sorted, Value.sorted_dict, List.map_cons, List.map_nil, Value.sorted_list, hfilters]

end HistoryEntry

namespace HistoryStore

variable (s : HistoryStore) (scope : HistoryScope)

theorem placed_sorted : s.sorted.placed scope = (s.placed scope).map (Prod.map HistoryEntry.sorted id) := by
  have hmap := List.map_mergeSort (r := before) (s := before) (f := Prod.map HistoryEntry.sorted id)
    (l := s.entries.zipIdx.filter fun e => e.1.scope == scope) fun _ _ _ _ => rfl
  rw [placed, placed, hmap, sorted, List.zipIdx_map, List.filter_map]
  rfl

theorem inScope_sorted : s.sorted.inScope scope = (s.inScope scope).map HistoryEntry.sorted := by
  rw [inScope, inScope, placed_sorted, List.map_map, List.map_map]
  rfl

theorem recent_sorted : s.sorted.recent scope = (s.recent scope).map HistoryEntry.sorted := by
  have hlimit : s.sorted.limit = s.limit := rfl
  rw [recent, recent, inScope_sorted, hlimit, Name.takeUpTo, Name.takeUpTo, List.length_map]
  split <;> exact (List.map_take).symm

theorem overflow_sorted : s.sorted.overflow scope = (s.overflow scope).map HistoryEntry.sorted := by
  rw [overflow, overflow, inScope_sorted, recent_sorted, List.length_map, List.map_drop]

theorem find?_sorted (filters : List FilterSpec) :
    s.sorted.find? scope filters = (s.find? scope filters).map (Prod.map HistoryEntry.sorted id) := by
  rw [find?, find?, placed_sorted, List.find?_map]
  congr 2
  funext e
  exact filtersEqual_sorted e.1.filters filters

theorem replaceAt_sorted (place : Nat) (e : HistoryEntry) :
    (s.replaceAt place e).sorted = s.sorted.replaceAt place e.sorted := by
  simp only [sorted, replaceAt, List.map_set]

theorem add_sorted (e : HistoryEntry) : (s.add e).sorted = s.sorted.add e.sorted := by
  obtain ⟨grown, hgrown⟩ : ∃ g : HistoryStore, g = { s with entries := s.entries ++ [e] } := ⟨_, rfl⟩
  have hsorted : ({ s.sorted with entries := s.sorted.entries ++ [e.sorted] } : HistoryStore) = grown.sorted := by
    rw [hgrown]
    simp [sorted]
  have hdropped : (grown.sorted.overflow e.scope).map HistoryEntry.id =
      (grown.overflow e.scope).map HistoryEntry.id := by
    rw [overflow_sorted, List.map_map]
    rfl
  have hscope : e.sorted.scope = e.scope := rfl
  rw [add, add, hsorted, hscope, hdropped, ← hgrown]
  simp only [sorted, List.filter_map]
  rfl

theorem dropFirst_map (id userId : String) (es : List HistoryEntry) :
    dropFirst id userId (es.map HistoryEntry.sorted) = (dropFirst id userId es).map (·.map HistoryEntry.sorted) := by
  induction es with
  | nil => rfl
  | cons e es ih =>
      have hsame : (e.sorted.id == id && e.sorted.userId == userId) = (e.id == id && e.userId == userId) := rfl
      rw [List.map_cons, dropFirst, dropFirst, hsame, ih]
      split
      · rfl
      · simp only [Option.map_map]
        rfl

theorem delete?_sorted (id userId : String) : s.sorted.delete? id userId = (s.delete? id userId).map sorted := by
  rw [delete?, delete?, sorted, dropFirst_map, Option.map_map, Option.map_map]
  rfl

theorem toValue_sorted : s.sorted.toValue.sorted = s.toValue.sorted := by
  simp only [toValue, sorted, Value.sorted_list, List.map_map]
  congr 1
  exact List.map_congr_left fun e _ => e.toValue_sorted

@[simp] theorem sorted_sorted : s.sorted.sorted = s.sorted := by
  simp only [sorted, List.map_map]
  congr 1
  exact List.map_congr_left fun e _ => e.sorted_sorted

end HistoryStore

/-! ## Blocks -/

namespace Entries

variable {α : Type}

theorem get?_map (f : α → α) (es : Entries α) (key : String) :
    Entries.get? (es.map fun e => (e.1, f e.2)) key = (es.get? key).map f := by
  induction es with
  | nil => rfl
  | cons e es ih =>
      obtain ⟨k, v⟩ := e
      rw [List.map_cons, Entries.get?_cons, Entries.get?_cons, ih]
      split <;> rfl

theorem put_map (f : α → α) (es : Entries α) (key : String) (v : α) :
    (Entries.put es key v).map (fun e => (e.1, f e.2)) = Entries.put (es.map fun e => (e.1, f e.2)) key (f v) := by
  induction es with
  | nil => rfl
  | cons e es ih =>
      obtain ⟨k, w⟩ := e
      rw [Entries.put, List.map_cons, Entries.put]
      split
      · rfl
      · rw [List.map_cons, ih]

end Entries

namespace ReportBlock

theorem dict_sorted (b : ReportBlock) : (Value.dict b.sorted.config).sorted = .dict b.sorted.config := by
  have hconfig : Value.dict b.sorted.config = (Value.dict b.config).sorted := (Value.sorted_dict b.config).symm
  rw [hconfig, Value.sorted_sorted]

@[simp] theorem sorted_sorted (b : ReportBlock) : b.sorted.sorted = b.sorted := by
  have hconfig := b.dict_sorted
  rw [Value.sorted_dict, Value.dict.injEq] at hconfig
  exact congrArg (fun config => { b with config := config }) hconfig

theorem toValue_sorted (b : ReportBlock) : b.sorted.toValue.sorted = b.toValue.sorted := by
  have hconfig : (Value.dict b.sorted.config).sorted = (Value.dict b.config).sorted :=
    b.dict_sorted.trans (Value.sorted_dict b.config).symm
  rw [toValue, toValue, Value.sorted_dict, Value.sorted_dict]
  simp only [List.map_cons, List.map_nil, hconfig]
  rfl

end ReportBlock

namespace BlockStore

variable (s : BlockStore)

theorem get_sorted (id : String) : s.sorted.get id = (s.get id).map ReportBlock.sorted :=
  Entries.get?_map ReportBlock.sorted s.blocks id

theorem add_sorted (b : ReportBlock) : (s.add b).sorted = s.sorted.add b.sorted :=
  congrArg BlockStore.mk (Entries.put_map ReportBlock.sorted s.blocks b.id b)

theorem ownedBy_sorted (owner : String) : s.sorted.ownedBy owner = (s.ownedBy owner).map ReportBlock.sorted := by
  have hfilter := List.filter_map (f := ReportBlock.sorted) (p := fun b => b.owner == owner)
    (l := s.blocks.map (·.2))
  rw [List.map_map] at hfilter
  rw [ownedBy, ownedBy, sorted, List.map_map]
  exact hfilter

theorem delete?_sorted (id owner : String) : s.sorted.delete? id owner = (s.delete? id owner).map sorted := by
  rw [delete?, delete?, get_sorted]
  cases s.get id with
  | none => rfl
  | some b =>
      have howner : b.sorted.owner = b.owner := rfl
      simp only [Option.map_some, howner]
      split
      · rw [Option.map_some]
        simp only [sorted, Entries.erase, List.filter_map]
        rfl
      · rfl

theorem toValue_sorted : s.sorted.toValue.sorted = s.toValue.sorted := by
  simp only [toValue, sorted, Value.sorted_list, List.map_map]
  congr 1
  exact List.map_congr_left fun e _ => e.2.toValue_sorted

@[simp] theorem sorted_sorted : s.sorted.sorted = s.sorted := by
  simp only [sorted, List.map_map]
  congr 1
  exact List.map_congr_left fun e _ => congrArg (e.1, ·) e.2.sorted_sorted

end BlockStore

end TableSteward

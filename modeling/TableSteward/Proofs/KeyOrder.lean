import Mathlib.Data.List.Perm.Basic
import Mathlib.Data.String.Basic
import TableSteward.Proofs.JsonDocument

/-!
# Values with their keys in order

A document is written with the keys of its dictionaries in order, so what is read back is the value in that order.
Entries with each key once have one order only: entries that are the same up to their order become the same list, and
lookups find the same.  A value in order stays as it is when it is put in order again, and so does what kind of value
it is.
-/
set_option autoImplicit false

namespace TableSteward

/-! ## Entries -/

namespace Entries

variable {α β : Type} {es fs : Entries α}

def ordered (es : Entries α) : Entries α := es.mergeSort fun a b => a.1 ≤ b.1

theorem ordered_perm (es : Entries α) : es.ordered.Perm es := List.mergeSort_perm _ _

theorem keys_perm (h : es.Perm fs) : es.keys.Perm fs.keys := h.map _

theorem nodup_ordered (h : es.keys.Nodup) : es.ordered.keys.Nodup :=
  (keys_perm es.ordered_perm).nodup_iff.mpr h

theorem le_trans_key (a b c : String × α) (hab : decide (a.1 ≤ b.1) = true) (hbc : decide (b.1 ≤ c.1) = true) :
    decide (a.1 ≤ c.1) = true := by
  rw [decide_eq_true_eq] at hab hbc ⊢
  exact le_trans hab hbc

theorem le_total_key (a b : String × α) : (decide (a.1 ≤ b.1) || decide (b.1 ≤ a.1)) = true := by
  rw [Bool.or_eq_true, decide_eq_true_eq, decide_eq_true_eq]
  exact le_total a.1 b.1

theorem ordered_ordered (es : Entries α) : es.ordered.ordered = es.ordered :=
  List.mergeSort_of_pairwise (List.pairwise_mergeSort le_trans_key le_total_key es)

/-- Of entries with each key once there is one order only. -/
theorem ordered_eq_of_perm (hkeys : es.keys.Nodup) (h : es.Perm fs) : es.ordered = fs.ordered := by
  have hperm : es.ordered.Perm fs.ordered := (es.ordered_perm.trans h).trans fs.ordered_perm.symm
  apply hperm.eq_of_pairwise _ (List.pairwise_mergeSort le_trans_key le_total_key es)
    (List.pairwise_mergeSort le_trans_key le_total_key fs)
  intro a b ha hb hab hba
  rw [decide_eq_true_eq] at hab hba
  have hmem : b ∈ es := h.mem_iff.mpr (fs.ordered_perm.mem_iff.mp hb)
  exact List.inj_on_of_nodup_map hkeys (es.ordered_perm.mem_iff.mp ha) hmem (le_antisymm hab hba)

theorem map_ordered (f : α → β) (es : Entries α) :
    es.ordered.map (fun e => (e.1, f e.2)) = ordered (es.map fun e => (e.1, f e.2)) :=
  List.map_mergeSort fun _ _ _ _ => rfl

/-! ### Entries that are the same up to their order -/

theorem get?_perm (hkeys : es.keys.Nodup) (h : es.Perm fs) (key : String) : es.get? key = fs.get? key := by
  have hkeys' : fs.keys.Nodup := (keys_perm h).nodup_iff.mp hkeys
  apply Option.ext
  intro v
  rw [← mem_iff_get? hkeys, ← mem_iff_get? hkeys', h.mem_iff]

theorem perm_of_get? (hes : es.keys.Nodup) (hfs : fs.keys.Nodup) (h : ∀ key, es.get? key = fs.get? key) :
    es.Perm fs := by
  rw [List.perm_ext_iff_of_nodup hes.of_map hfs.of_map]
  rintro ⟨key, v⟩
  rw [mem_iff_get? hes, mem_iff_get? hfs, h]

theorem put_perm (hkeys : es.keys.Nodup) (h : es.Perm fs) (key : String) (v : α) :
    (es.put key v).Perm (fs.put key v) := by
  have hkeys' : fs.keys.Nodup := (keys_perm h).nodup_iff.mp hkeys
  apply perm_of_get? (nodup_put hkeys key v) (nodup_put hkeys' key v)
  intro k
  rw [get?_put, get?_put, get?_perm hkeys h]

end Entries

/-! ## Values -/

namespace Value

/-- A property of all values: it is passed on from the items of a list and from the entries of a dictionary. -/
theorem nested {P : Value → Prop} (hlist : ∀ items, (∀ v ∈ items, P v) → P (list items))
    (hdict : ∀ entries : List (String × Value), (∀ e ∈ entries, P e.2) → P (dict entries))
    (hplain : ∀ v, (∀ items, v ≠ list items) → (∀ entries, v ≠ dict entries) → P v) (v : Value) : P v :=
  match v with
  | list items => hlist items fun w _ => nested hlist hdict hplain w
  | dict entries => hdict entries fun e _ => nested hlist hdict hplain e.2
  | null | bool _ | int _ | real _ | decimal _ | date _ | timestamp _ | time .. | duration _ | uuid _ | bytes _
  | memory _ | text _ => hplain _ nofun nofun
termination_by sizeOf v
decreasing_by
  · have := List.sizeOf_lt_of_mem ‹w ∈ items›
    simp only [list.sizeOf_spec]
    omega
  · have hlt := List.sizeOf_lt_of_mem ‹e ∈ entries›
    obtain ⟨key, w⟩ := e
    simp only [dict.sizeOf_spec, Prod.mk.sizeOf_spec] at hlt ⊢
    omega

theorem sortedItems_eq (items : List Value) : sortedItems items = items.map sorted := by
  induction items with
  | nil => rfl
  | cons v items ih => rw [sortedItems, ih, List.map_cons]

theorem sortedEntries_eq (entries : List (String × Value)) :
    sortedEntries entries = entries.map fun e => (e.1, e.2.sorted) := by
  induction entries with
  | nil => rfl
  | cons e entries ih => rw [sortedEntries, ih, List.map_cons]

@[simp] theorem sorted_null : sorted null = null := by rw [sorted]; all_goals nofun

@[simp] theorem sorted_bool (b : Bool) : sorted (bool b) = bool b := by rw [sorted]; all_goals nofun

@[simp] theorem sorted_text (s : String) : sorted (text s) = text s := by rw [sorted]; all_goals nofun

@[simp] theorem sorted_list (items : List Value) : sorted (list items) = list (items.map sorted) := by
  rw [sorted, sortedItems_eq]

@[simp] theorem sorted_dict (entries : List (String × Value)) :
    sorted (dict entries) = dict (Entries.ordered (entries.map fun e => (e.1, e.2.sorted))) := by
  rw [sorted, sortedEntries_eq]
  rfl

theorem sorted_plain {v : Value} (hlist : ∀ items, v ≠ list items) (hdict : ∀ entries, v ≠ dict entries) :
    v.sorted = v := by
  cases v with
  | list items => exact absurd rfl (hlist items)
  | dict entries => exact absurd rfl (hdict entries)
  | _ => rfl

theorem sorted_sorted (v : Value) : v.sorted.sorted = v.sorted := by
  induction v using nested with
  | hlist items ih =>
      simp only [sorted_list, List.map_map]
      rw [list.injEq]
      exact List.map_congr_left ih
  | hdict entries ih =>
      simp only [sorted_dict]
      rw [Entries.map_ordered, Entries.ordered_ordered, List.map_map]
      congr 2
      exact List.map_congr_left fun e he => congrArg (e.1, ·) (ih e he)
  | hplain v hlist hdict =>
      rw [sorted_plain hlist hdict, sorted_plain hlist hdict]

/-! ## Values of JSON -/

theorem isJsonItems_iff (items : List Value) : isJsonItems items = true ↔ ∀ v ∈ items, v.isJson = true := by
  induction items with
  | nil => simp [isJsonItems]
  | cons v items ih => simp [isJsonItems, ih]

theorem isJsonEntries_iff (entries : List (String × Value)) : isJsonEntries entries = true ↔
    ∀ e ∈ entries, Text.hasHalf e.1 = false ∧ e.2.isJson = true := by
  induction entries with
  | nil => simp [isJsonEntries]
  | cons e entries ih => simp [isJsonEntries, ih]

theorem isJson_list (items : List Value) : (list items).isJson = true ↔ ∀ v ∈ items, v.isJson = true := by
  rw [isJson, isJsonItems_iff]

theorem isJson_dict (entries : List (String × Value)) : (dict entries).isJson = true ↔
    (Entries.keys entries).Nodup ∧ ∀ e ∈ entries, Text.hasHalf e.1 = false ∧ e.2.isJson = true := by
  rw [isJson, Bool.and_eq_true, decide_eq_true_eq, isJsonEntries_iff]

theorem depthItems_le_iff (items : List Value) (n : Nat) : depthItems items ≤ n ↔ ∀ v ∈ items, v.depth ≤ n := by
  induction items with
  | nil => simp [depthItems]
  | cons v items ih => simp [depthItems, ih]

theorem depthEntries_le_iff (entries : List (String × Value)) (n : Nat) :
    depthEntries entries ≤ n ↔ ∀ e ∈ entries, e.2.depth ≤ n := by
  induction entries with
  | nil => simp [depthEntries]
  | cons e entries ih => simp [depthEntries, ih]

theorem depth_list_le (items : List Value) (n : Nat) : (list items).depth ≤ n + 1 ↔ ∀ v ∈ items, v.depth ≤ n := by
  rw [depth, Nat.add_le_add_iff_right, depthItems_le_iff]

theorem depth_dict_le (entries : List (String × Value)) (n : Nat) :
    (dict entries).depth ≤ n + 1 ↔ ∀ e ∈ entries, e.2.depth ≤ n := by
  rw [depth, Nat.add_le_add_iff_right, depthEntries_le_iff]

theorem isJson_sorted (v : Value) (h : v.isJson = true) : v.sorted.isJson = true := by
  induction v using nested with
  | hlist items ih =>
      rw [isJson_list] at h
      rw [sorted_list, isJson_list]
      intro w hw
      obtain ⟨v, hv, rfl⟩ := List.mem_map.mp hw
      exact ih v hv (h v hv)
  | hdict entries ih =>
      rw [isJson_dict] at h
      rw [sorted_dict, isJson_dict]
      constructor
      · apply Entries.nodup_ordered
        rw [Entries.keys, List.map_map]
        exact h.1
      · intro f hf
        obtain ⟨e, he, rfl⟩ := List.mem_map.mp ((Entries.ordered_perm _).mem_iff.mp hf)
        exact ⟨(h.2 e he).1, ih e he (h.2 e he).2⟩
  | hplain v hlist hdict =>
      rwa [sorted_plain hlist hdict]

theorem depth_sorted_le (v : Value) (n : Nat) (h : v.depth ≤ n) : v.sorted.depth ≤ n := by
  induction v using nested generalizing n with
  | hlist items ih =>
      obtain ⟨n, rfl⟩ := Nat.exists_eq_add_one.mpr (Nat.lt_of_lt_of_le (Nat.succ_pos _) h)
      rw [depth_list_le] at h
      rw [sorted_list, depth_list_le]
      intro w hw
      obtain ⟨v, hv, rfl⟩ := List.mem_map.mp hw
      exact ih v hv n (h v hv)
  | hdict entries ih =>
      obtain ⟨n, rfl⟩ := Nat.exists_eq_add_one.mpr (Nat.lt_of_lt_of_le (Nat.succ_pos _) h)
      rw [depth_dict_le] at h
      rw [sorted_dict, depth_dict_le]
      intro f hf
      obtain ⟨e, he, rfl⟩ := List.mem_map.mp ((Entries.ordered_perm _).mem_iff.mp hf)
      exact ih e he n (h e he)
  | hplain v hlist hdict =>
      rwa [sorted_plain hlist hdict]

/-! ### Values that have a text -/

mutual

/-- A value whose parts can all be written in JSON. -/
def encodable : Value → Bool
  | list items => encodableItems items
  | dict entries => encodableEntries entries
  | v => (Json.leaf? v).isSome

def encodableItems : List Value → Bool
  | [] => true
  | v :: rest => encodable v && encodableItems rest

def encodableEntries : List (String × Value) → Bool
  | [] => true
  | (_, v) :: rest => encodable v && encodableEntries rest

end

@[simp] theorem encodable_list (items : List Value) : (list items).encodable = items.all encodable := by
  rw [encodable]
  induction items with
  | nil => rfl
  | cons v items ih => rw [encodableItems, ih, List.all_cons]

@[simp] theorem encodable_dict (entries : List (String × Value)) :
    (dict entries).encodable = entries.all fun e => e.2.encodable := by
  rw [encodable]
  induction entries with
  | nil => rfl
  | cons e entries ih => rw [encodableEntries, ih, List.all_cons]

@[simp] theorem encodable_bool (b : Bool) : (bool b).encodable = true := rfl

@[simp] theorem encodable_text (s : String) : (text s).encodable = true := rfl

theorem encodable_sorted (v : Value) : v.sorted.encodable = v.encodable := by
  induction v using nested with
  | hlist items ih =>
      rw [sorted_list, encodable_list, encodable_list, List.all_map, Bool.eq_iff_iff, List.all_eq_true,
        List.all_eq_true]
      exact forall₂_congr fun v hv => Bool.eq_iff_iff.mp (ih v hv)
  | hdict entries ih =>
      have hperm := Entries.ordered_perm (entries.map fun e => (e.1, e.2.sorted))
      rw [sorted_dict, encodable_dict, encodable_dict, hperm.all_eq, List.all_map, Bool.eq_iff_iff, List.all_eq_true,
        List.all_eq_true]
      exact forall₂_congr fun e he => Bool.eq_iff_iff.mp (ih e he)
  | hplain v hlist hdict => rw [sorted_plain hlist hdict]

theorem indented_isSome (v : Value) (level : Nat) : (Json.indented level v).isSome = v.encodable := by
  induction v using nested generalizing level with
  | hlist items ih =>
      have hitems : (Json.indentedItems (level + 1) items).isSome = items.all encodable := by
        induction items with
        | nil => rfl
        | cons v items ihitems =>
            rw [Json.indentedItems, List.all_cons, ← ih v (List.mem_cons_self ..) (level + 1),
              ← ihitems fun w hw => ih w (List.mem_cons_of_mem _ hw)]
            cases Json.indented (level + 1) v <;> cases Json.indentedItems (level + 1) items <;> rfl
      rw [encodable_list, ← hitems, Json.indented]
      cases Json.indentedItems (level + 1) items <;> rfl
  | hdict entries ih =>
      have hentries : (Json.indentedEntries (level + 1) entries).isSome = entries.all fun e => e.2.encodable := by
        induction entries with
        | nil => rfl
        | cons e entries ihentries =>
            rw [Json.indentedEntries, List.all_cons, ← ih e (List.mem_cons_self ..) (level + 1),
              ← ihentries fun f hf => ih f (List.mem_cons_of_mem _ hf)]
            cases Json.indented (level + 1) e.2 <;> cases Json.indentedEntries (level + 1) entries <;> rfl
      rw [encodable_dict, ← hentries, Json.indented]
      cases Json.indentedEntries (level + 1) entries <;> rfl
  | hplain v hlist hdict =>
      cases v with
      | list items => exact absurd rfl (hlist items)
      | dict entries => exact absurd rfl (hdict entries)
      | _ => rfl

theorem encodable_of_isJson (v : Value) (h : v.isJson = true) : v.encodable = true := by
  induction v using nested with
  | hlist items ih =>
      rw [isJson_list] at h
      rw [encodable_list, List.all_eq_true]
      exact fun v hv => ih v hv (h v hv)
  | hdict entries ih =>
      rw [isJson_dict] at h
      rw [encodable_dict, List.all_eq_true]
      exact fun e he => ih e he (h.2 e he).2
  | hplain v hlist hdict =>
      cases v with
      | null | bool _ | int _ | real _ | text _ => rfl
      | list items => exact absurd rfl (hlist items)
      | dict entries => exact absurd rfl (hdict entries)
      | _ => exact absurd h Bool.false_ne_true

end Value

end TableSteward

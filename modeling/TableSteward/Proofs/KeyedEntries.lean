import Mathlib.Data.List.Induction
import Mathlib.Data.List.Nodup
import TableSteward.Value

/-!
# Entries under keys

What is found under a key after an entry is put, erased or left out.  The lists of entries in a store have each key
once, which `put` and leaving out both keep.
-/
set_option autoImplicit false

namespace TableSteward.Entries

variable {α : Type} {es : Entries α} {key k : String} {v : α}

@[simp] theorem get?_nil (k : String) : get? ([] : Entries α) k = none := rfl

theorem get?_cons (k' : String) (w : α) (es : Entries α) (k : String) :
    get? ((k', w) :: es) k = if k = k' then some w else es.get? k := by
  rw [get?, List.lookup_cons]
  by_cases hk : k = k'
  · simp [hk]
  · have hkey : (k == k') = false := beq_eq_false_iff_ne.mpr hk
    rw [hkey, if_neg hk, get?]

@[simp] theorem keys_cons (k : String) (w : α) (es : Entries α) : keys ((k, w) :: es) = k :: es.keys := rfl

@[simp] theorem length_keys (es : Entries α) : es.keys.length = es.length := List.length_map _

theorem get?_put (es : Entries α) (key : String) (v : α) (k : String) :
    (es.put key v).get? k = if k = key then some v else es.get? k := by
  induction es with
  | nil => rw [put, get?_cons]
  | cons e rest ih =>
      obtain ⟨k', w⟩ := e
      rw [put]
      by_cases hkey : k' = key
      · subst hkey
        rw [if_pos rfl, get?_cons, get?_cons]
        split <;> rfl
      · rw [if_neg hkey, get?_cons, get?_cons, ih]
        by_cases hk : k = key
        · subst hk
          rw [if_neg (Ne.symm hkey), if_pos rfl, if_pos rfl]
        · rw [if_neg hk, if_neg hk]

theorem get?_eq_none_iff : es.get? k = none ↔ k ∉ es.keys := by
  induction es with
  | nil => simp [keys]
  | cons e rest ih =>
      obtain ⟨k', w⟩ := e
      rw [get?_cons, keys_cons, List.mem_cons, not_or]
      by_cases hk : k = k'
      · simp [hk]
      · simp [hk, ih]

theorem has_iff : es.has k = true ↔ k ∈ es.keys := by
  rw [has, ← Option.not_isNone, Bool.not_eq_true', Option.isNone_eq_false_iff, ← Option.ne_none_iff_isSome,
    ne_eq, get?_eq_none_iff, not_not]

theorem mem_of_get? (h : es.get? k = some v) : (k, v) ∈ es := by
  induction es with
  | nil => cases h
  | cons e rest ih =>
      obtain ⟨k', w⟩ := e
      rw [get?_cons] at h
      by_cases hk : k = k'
      · rw [if_pos hk, Option.some_inj] at h
        subst hk h
        exact List.mem_cons_self
      · rw [if_neg hk] at h
        exact List.mem_cons_of_mem _ (ih h)

theorem mem_keys_of_get? (h : es.get? k = some v) : k ∈ es.keys := List.mem_map_of_mem (mem_of_get? h)

theorem mem_iff_get? (h : es.keys.Nodup) : (k, v) ∈ es ↔ es.get? k = some v := by
  refine ⟨?_, mem_of_get?⟩
  induction es with
  | nil => intro hmem; cases hmem
  | cons e rest ih =>
      obtain ⟨k', w⟩ := e
      rw [keys_cons, List.nodup_cons] at h
      intro hmem
      rw [get?_cons]
      rcases List.mem_cons.mp hmem with heq | hrest
      · obtain ⟨rfl, rfl⟩ := Prod.mk.inj heq
        rw [if_pos rfl]
      · have hne : k ≠ k' := by
          rintro rfl
          exact h.1 (List.mem_map.mpr ⟨(k, v), hrest, rfl⟩)
        rw [if_neg hne]
        exact ih h.2 hrest

theorem nodup_filter (h : es.keys.Nodup) (p : String × α → Bool) : keys (es.filter p) |>.Nodup :=
  h.sublist (List.filter_sublist.map _)

/-- With each key once, what is left out is not found, and nothing else takes its place. -/
theorem get?_filter (h : es.keys.Nodup) (p : String × α → Bool) (k : String) :
    get? (es.filter p) k = (es.get? k).filter fun v => p (k, v) := by
  apply Option.ext
  intro v
  rw [← mem_iff_get? (nodup_filter h p), List.mem_filter, mem_iff_get? h, Option.filter_eq_some_iff]

theorem get?_erase (h : es.keys.Nodup) (key k : String) :
    (es.erase key).get? k = if k = key then none else es.get? k := by
  rw [erase, get?_filter h]
  by_cases hk : k = key
  · subst hk
    rw [if_pos rfl]
    cases es.get? k <;> simp
  · rw [if_neg hk]
    cases es.get? k <;> simp [hk]

/-- What is left out anyway may be erased before. -/
theorem filter_erase (h : es.keys.Nodup) (hget : es.get? key = some v) {p : String × α → Bool}
    (hp : p (key, v) = false) : (es.erase key).filter p = es.filter p := by
  rw [erase, List.filter_filter]
  apply List.filter_congr
  intro e he
  by_cases hkey : e.1 = key
  · subst hkey
    obtain rfl : e.2 = v := Option.some.inj (((mem_iff_get? h).mp he).symm.trans hget)
    simp [hp]
  · simp [hkey]

theorem keys_put_of_mem (h : key ∈ es.keys) (v : α) : (es.put key v).keys = es.keys := by
  induction es with
  | nil => cases h
  | cons e rest ih =>
      obtain ⟨k', w⟩ := e
      rw [put]
      by_cases hkey : k' = key
      · rw [if_pos hkey, keys_cons, keys_cons]
      · rw [keys_cons, List.mem_cons] at h
        rw [if_neg hkey, keys_cons, keys_cons, ih (h.resolve_left (Ne.symm hkey))]

theorem keys_put_of_not_mem (h : key ∉ es.keys) (v : α) : (es.put key v).keys = es.keys ++ [key] := by
  induction es with
  | nil => rfl
  | cons e rest ih =>
      obtain ⟨k', w⟩ := e
      rw [keys_cons, List.mem_cons, not_or] at h
      rw [put, if_neg (Ne.symm h.1), keys_cons, keys_cons, ih h.2, List.cons_append]

theorem nodup_put (h : es.keys.Nodup) (key : String) (v : α) : (es.put key v).keys.Nodup := by
  by_cases hkey : key ∈ es.keys
  · rw [keys_put_of_mem hkey]
    exact h
  · rw [keys_put_of_not_mem hkey, List.nodup_append]
    refine ⟨h, List.nodup_singleton key, ?_⟩
    intro a ha b hb
    rw [List.mem_singleton] at hb
    subst hb
    exact fun hsame => hkey (hsame ▸ ha)

theorem put_of_not_mem (h : key ∉ es.keys) (v : α) : es.put key v = es ++ [(key, v)] := by
  induction es with
  | nil => rfl
  | cons e rest ih =>
      obtain ⟨k', w⟩ := e
      rw [keys_cons, List.mem_cons, not_or] at h
      rw [put, if_neg (Ne.symm h.1), ih h.2, List.cons_append]

/-- Pairs with each key once are entries already. -/
theorem ofPairs_of_nodup {pairs : List (String × α)} (h : (keys pairs).Nodup) : ofPairs pairs = pairs := by
  have hfold : ∀ (pairs es : List (String × α)), (keys (es ++ pairs)).Nodup →
      pairs.foldl (fun es e => put es e.1 e.2) es = es ++ pairs := by
    intro pairs
    induction pairs with
    | nil => exact fun es _ => (List.append_nil es).symm
    | cons e pairs ih =>
        intro es hkeys
        obtain ⟨k', w⟩ := e
        have hnew : k' ∉ keys es := by
          intro hmem
          rw [keys, List.map_append, List.nodup_append] at hkeys
          exact hkeys.2.2 k' hmem k' (by simp) rfl
        have hfirst := put_of_not_mem hnew w
        simp only [List.foldl_cons, hfirst]
        rw [ih _ (by simpa using hkeys), List.append_assoc]
        rfl
  exact hfold pairs [] h

theorem ofPairs_concat (pairs : List (String × α)) (k : String) (v : α) :
    ofPairs (pairs ++ [(k, v)]) = put (ofPairs pairs) k v := by
  unfold ofPairs
  rw [List.foldl_append]
  rfl

/-- A key that all pairs give the same value has that value. -/
theorem get?_ofPairs_of_agree {pairs : List (String × α)} (hmem : (k, v) ∈ pairs)
    (hagree : ∀ w, (k, w) ∈ pairs → w = v) : (ofPairs pairs).get? k = some v := by
  induction pairs using List.reverseRecOn with
  | nil => cases hmem
  | append_singleton pairs e ih =>
      obtain ⟨k', w⟩ := e
      rw [ofPairs_concat, get?_put]
      by_cases hk : k = k'
      · subst hk
        rw [if_pos rfl, hagree w (by simp)]
      · rw [if_neg hk]
        refine ih ?_ fun w' hw' => hagree w' (List.mem_append_left _ hw')
        simpa [hk] using hmem

theorem length_put_of_mem (h : key ∈ es.keys) (v : α) : (es.put key v).length = es.length := by
  rw [← length_keys, keys_put_of_mem h, length_keys]

theorem length_put_of_not_mem (h : key ∉ es.keys) (v : α) : (es.put key v).length = es.length + 1 := by
  rw [← length_keys, keys_put_of_not_mem h, List.length_append, length_keys, List.length_singleton]

theorem length_put_le (es : Entries α) (key : String) (v : α) : (es.put key v).length ≤ es.length + 1 := by
  by_cases hkey : key ∈ es.keys
  · rw [length_put_of_mem hkey]
    exact Nat.le_succ _
  · exact Nat.le_of_eq (length_put_of_not_mem hkey v)

theorem erase_of_not_mem (h : key ∉ es.keys) : es.erase key = es := by
  apply List.filter_eq_self.mpr
  intro x hx
  rw [bne_iff_ne]
  rintro rfl
  exact h (List.mem_map_of_mem hx)

theorem length_erase_of_mem (hkeys : es.keys.Nodup) (h : key ∈ es.keys) :
    (es.erase key).length + 1 = es.length := by
  induction es with
  | nil => cases h
  | cons e rest ih =>
      obtain ⟨k', w⟩ := e
      rw [keys_cons, List.nodup_cons] at hkeys
      by_cases hkey : k' = key
      · subst hkey
        rw [erase, List.filter_cons_of_neg (by simp), ← erase, erase_of_not_mem hkeys.1, List.length_cons]
      · rw [keys_cons, List.mem_cons] at h
        rw [erase, List.filter_cons_of_pos (by simp [hkey]), List.length_cons, List.length_cons, ← erase,
          ih hkeys.2 (h.resolve_left (Ne.symm hkey))]

end TableSteward.Entries

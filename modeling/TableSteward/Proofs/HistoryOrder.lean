import Mathlib.Data.List.Nodup
import Mathlib.Data.List.Perm.Basic
import Mathlib.Data.String.Basic
import TableSteward.Store.History

/-!
# The order of a history

A history keeps the entries of all scopes in one list and sorts those of a scope when it is asked for them.  As long
as no two entries of a scope were last used at the same time there is only one way to sort them: `Lists` says that a
list is it, and `Lists.inScope_eq` that it is what the history shows.  What is recorded, put in the place of an entry
or deleted is then an operation on these lists.
-/
set_option autoImplicit false

namespace TableSteward

/-! ## Sorted texts -/

theorem sortedTexts_ordered (ss : List String) : (ss.mergeSort fun a b => a ≤ b).Pairwise (· ≤ ·) := by
  have htrans : ∀ a b c : String, decide (a ≤ b) = true → decide (b ≤ c) = true → decide (a ≤ c) = true := by
    intro a b c hab hbc
    rw [decide_eq_true_eq] at hab hbc ⊢
    exact le_trans hab hbc
  have htotal : ∀ a b : String, (decide (a ≤ b) || decide (b ≤ a)) = true := by
    intro a b
    rw [Bool.or_eq_true, decide_eq_true_eq, decide_eq_true_eq]
    exact le_total a b
  exact (List.pairwise_mergeSort htrans htotal _).imp of_decide_eq_true

/-- Texts are the same once they are sorted if they are the same in any order. -/
theorem sortedTexts_eq_iff (ss ts : List String) :
    (ss.mergeSort fun a b => a ≤ b) = (ts.mergeSort fun a b => a ≤ b) ↔ ss.Perm ts := by
  have hss := List.mergeSort_perm ss fun a b => a ≤ b
  have hts := List.mergeSort_perm ts fun a b => a ≤ b
  constructor
  · intro hsame
    exact hss.symm.trans (hsame ▸ hts)
  · intro hperm
    apply ((hss.trans hperm).trans hts.symm).eq_of_pairwise _ (sortedTexts_ordered ss) (sortedTexts_ordered ts)
    intro x y _ _ hxy hyx
    exact le_antisymm hxy hyx

/-! ## Equal sets of filters -/

/-- The same filters in any order. -/
def SameFilters (a b : List FilterSpec) : Prop :=
  (a.map FilterSpec.identity).Perm (b.map FilterSpec.identity)

instance (a b : List FilterSpec) : Decidable (SameFilters a b) :=
  inferInstanceAs (Decidable (List.Perm _ _))

theorem SameFilters.refl (a : List FilterSpec) : SameFilters a a := List.Perm.refl _

theorem SameFilters.symm {a b : List FilterSpec} (h : SameFilters a b) : SameFilters b a := List.Perm.symm h

theorem SameFilters.trans {a b c : List FilterSpec} (hab : SameFilters a b) (hbc : SameFilters b c) :
    SameFilters a c := List.Perm.trans hab hbc

theorem filtersEqual_iff (a b : List FilterSpec) : filtersEqual a b = true ↔ SameFilters a b := by
  rw [filtersEqual, beq_iff_eq]
  exact sortedTexts_eq_iff _ _

namespace HistoryStore

/-! ## Sorting -/

theorem before_trans (a b c : HistoryEntry × Nat) (hab : before a b = true) (hbc : before b c = true) :
    before a c = true := by
  simp only [before, Bool.or_eq_true, Bool.and_eq_true, decide_eq_true_eq, beq_iff_eq] at hab hbc ⊢
  rcases hab with hab | ⟨hab, hplace⟩
  · rcases hbc with hbc | ⟨hbc, -⟩
    · exact .inl (lt_trans hbc hab)
    · exact .inl (hbc ▸ hab)
  · rcases hbc with hbc | ⟨hbc, hplace'⟩
    · exact .inl (hab ▸ hbc)
    · exact .inr ⟨hab.trans hbc, le_trans hplace' hplace⟩

theorem before_total (a b : HistoryEntry × Nat) : (before a b || before b a) = true := by
  simp only [before, Bool.or_eq_true, Bool.and_eq_true, decide_eq_true_eq, beq_iff_eq]
  rcases lt_trichotomy a.1.lastUsedAt b.1.lastUsedAt with hlt | heq | hgt
  · exact .inr (.inl hlt)
  · rcases le_total a.2 b.2 with hle | hle
    · exact .inr (.inr ⟨heq.symm, hle⟩)
    · exact .inl (.inr ⟨heq, hle⟩)
  · exact .inl (.inl hgt)

theorem le_of_before {a b : HistoryEntry × Nat} (h : before a b = true) :
    b.1.lastUsedAt ≤ a.1.lastUsedAt := by
  simp only [before, Bool.or_eq_true, Bool.and_eq_true, decide_eq_true_eq, beq_iff_eq] at h
  rcases h with hlt | ⟨heq, -⟩
  · exact le_of_lt hlt
  · exact le_of_eq heq.symm

variable {s : HistoryStore} {scope : HistoryScope} {l : List HistoryEntry}

theorem inScope_perm (s : HistoryStore) (scope : HistoryScope) :
    (s.inScope scope).Perm (s.entries.filter fun e => e.scope == scope) := by
  have hfilter : ((s.entries.zipIdx.filter fun e => e.1.scope == scope).map (·.1)) =
      s.entries.filter fun e => e.scope == scope := by
    have hplaced := List.filter_map (f := Prod.fst) (p := fun e : HistoryEntry => e.scope == scope)
      (l := s.entries.zipIdx)
    rw [List.zipIdx_map_fst] at hplaced
    exact hplaced.symm
  rw [← hfilter]
  exact (List.mergeSort_perm _ _).map _

theorem inScope_ordered (s : HistoryStore) (scope : HistoryScope) :
    (s.inScope scope).Pairwise fun a b => b.lastUsedAt ≤ a.lastUsedAt := by
  rw [inScope, List.pairwise_map]
  exact (List.pairwise_mergeSort before_trans before_total _).imp le_of_before

/-- The entries of a scope, from the last used to the first used. -/
structure Lists (s : HistoryStore) (scope : HistoryScope) (l : List HistoryEntry) : Prop where
  perm : l.Perm (s.entries.filter fun e => e.scope == scope)
  ordered : l.Pairwise fun a b => b.lastUsedAt < a.lastUsedAt

theorem Lists.mem_iff (h : s.Lists scope l) (e : HistoryEntry) :
    e ∈ l ↔ e ∈ s.entries ∧ e.scope = scope := by
  rw [h.perm.mem_iff, List.mem_filter, beq_iff_eq]

theorem Lists.eq_of_lastUsedAt (h : s.Lists scope l) {a b : HistoryEntry} (ha : a ∈ l) (hb : b ∈ l)
    (hsame : a.lastUsedAt = b.lastUsedAt) : a = b := by
  have hdistinct : (l.map HistoryEntry.lastUsedAt).Nodup := by
    rw [List.Nodup, List.pairwise_map]
    exact h.ordered.imp ne_of_gt
  exact List.inj_on_of_nodup_map hdistinct ha hb hsame

theorem Lists.nodup (h : s.Lists scope l) : l.Nodup := h.ordered.imp fun hlt hsame => by
  rw [hsame] at hlt
  exact lt_irrefl _ hlt

theorem Lists.inScope_eq (h : s.Lists scope l) : s.inScope scope = l := by
  have hordered : l.Pairwise fun a b => b.lastUsedAt ≤ a.lastUsedAt := h.ordered.imp le_of_lt
  have hperm : (s.inScope scope).Perm l := (inScope_perm s scope).trans h.perm.symm
  apply hperm.eq_of_pairwise _ (inScope_ordered s scope) hordered
  intro a b ha hb hba hab
  exact h.eq_of_lastUsedAt (hperm.mem_iff.mp ha) hb (le_antisymm hab hba)

theorem Lists.recent_eq (h : s.Lists scope l) {limit : Nat} (hlimit : s.limit = (limit : Int)) :
    s.recent scope = l.take limit := by
  rw [recent, h.inScope_eq, hlimit, Name.takeUpTo, if_pos (Int.natCast_nonneg limit), Int.toNat_natCast]

/-! ## Looking for an equal set -/

/-- Whether an entry is of these filters, in any order. -/
def isFor (filters : List FilterSpec) (e : HistoryEntry) : Bool := decide (SameFilters e.filters filters)

theorem filtersEqual_eq (filters : List FilterSpec) (e : HistoryEntry) :
    filtersEqual e.filters filters = isFor filters e := by
  rw [Bool.eq_iff_iff, filtersEqual_iff, isFor, decide_eq_true_eq]

theorem Lists.find?_eq (h : s.Lists scope l) (filters : List FilterSpec) :
    (s.find? scope filters).map (·.1) = l.find? (isFor filters) := by
  rw [← h.inScope_eq, inScope, List.find?_map]
  simp only [find?, filtersEqual_eq]
  rfl

theorem getElem?_of_find? {filters : List FilterSpec} {e : HistoryEntry} {place : Nat}
    (h : s.find? scope filters = some (e, place)) : s.entries[place]? = some e := by
  have hplaced : (e, place) ∈ s.placed scope := List.mem_of_find?_eq_some h
  rw [placed, List.mem_mergeSort, List.mem_filter] at hplaced
  exact List.mem_zipIdx_iff_getElem?.mp hplaced.1

/-- The entry that is found comes off the list, and nothing else. -/
theorem perm_eraseP_of_find? {p : HistoryEntry → Bool} {e : HistoryEntry} (h : l.find? p = some e) :
    l.Perm (e :: l.eraseP p) := by
  obtain ⟨hp, front, rest, rfl, hfront⟩ := List.find?_eq_some_iff_append.mp h
  have herase : (front ++ e :: rest).eraseP p = front ++ rest := by
    rw [List.eraseP_append_right]
    · rw [List.eraseP_cons_of_pos hp]
    · intro x hx
      simpa using hfront x hx
  rw [herase]
  exact List.perm_middle

/-! ## Changes -/

theorem filter_of_not_mem_drop {p : HistoryEntry → Bool} {size : Nat} (hnodup : l.Nodup)
    (hp : ∀ x ∈ l, p x = true ↔ x ∉ l.drop size) : l.filter p = l.take size := by
  have hkept : (l.take size).filter p = l.take size := by
    apply List.filter_eq_self.mpr
    intro x hx
    rw [hp x (List.mem_of_mem_take hx)]
    exact List.disjoint_take_drop hnodup (le_refl size) hx
  have hdropped : (l.drop size).filter p = [] := by
    apply List.filter_eq_nil_iff.mpr
    intro x hx
    rw [hp x (List.mem_of_mem_drop hx)]
    exact not_not_intro hx
  calc l.filter p = (l.take size ++ l.drop size).filter p := by rw [List.take_append_drop]
    _ = l.take size := by rw [List.filter_append, hkept, hdropped, List.append_nil]

/-- With ids of their own, the first entry that matches is the only one. -/
theorem dropFirst_eq (id userId : String) :
    ∀ {es : List HistoryEntry}, (es.map HistoryEntry.id).Nodup → dropFirst id userId es =
      if es.any fun e => e.id == id && e.userId == userId then
        some (es.filter fun e => !(e.id == id && e.userId == userId))
      else none := by
  intro es
  induction es with
  | nil => intro _; rfl
  | cons e rest ih =>
      intro hids
      rw [List.map_cons, List.nodup_cons] at hids
      rw [dropFirst]
      by_cases hmatch : (e.id == id && e.userId == userId) = true
      · have hothers : (rest.filter fun x => !(x.id == id && x.userId == userId)) = rest := by
          apply List.filter_eq_self.mpr
          intro x hx
          rw [Bool.and_eq_true, beq_iff_eq] at hmatch
          have hne : x.id ≠ id := by
            intro hsame
            exact hids.1 (List.mem_map.mpr ⟨x, hx, hsame.trans hmatch.1.symm⟩)
          simp [hne]
        rw [if_pos hmatch, List.any_cons, hmatch, Bool.true_or, if_pos rfl,
          List.filter_cons_of_neg (by simp [hmatch]), hothers]
      · rw [if_neg hmatch, ih hids.2, List.any_cons, Bool.eq_false_iff.mpr hmatch, Bool.false_or,
          List.filter_cons_of_pos (by simp [Bool.eq_false_iff.mpr hmatch])]
        by_cases hany : rest.any fun x => x.id == id && x.userId == userId
        · rw [if_pos hany, if_pos hany, Option.map_some]
        · rw [if_neg hany, if_neg hany, Option.map_none]

/-- A list is of a scope as long as the entries of the scope are the same, in any order. -/
theorem Lists.congr {t : HistoryStore} (h : s.Lists scope l)
    (hperm : (s.entries.filter fun e => e.scope == scope).Perm (t.entries.filter fun e => e.scope == scope)) :
    t.Lists scope l := ⟨h.perm.trans hperm, h.ordered⟩

/-- The lists of all scopes; each entry has an id of its own. -/
structure Tracks (s : HistoryStore) (lists : HistoryScope → List HistoryEntry) : Prop where
  lists : ∀ scope, s.Lists scope (lists scope)
  ids : (s.entries.map HistoryEntry.id).Nodup

variable {lists : HistoryScope → List HistoryEntry}

theorem Tracks.eq_of_id (h : s.Tracks lists) {a b : HistoryEntry} (ha : a ∈ s.entries) (hb : b ∈ s.entries)
    (hid : a.id = b.id) : a = b :=
  List.inj_on_of_nodup_map h.ids ha hb hid

/-- An entry that was used again moves to the front of its list. -/
theorem Tracks.replaceAt (h : s.Tracks lists) {filters : List FilterSpec} {e : HistoryEntry} {place : Nat}
    {now : String} (hfound : s.find? scope filters = some (e, place))
    (hnow : ∀ x ∈ s.entries, x.lastUsedAt < now) :
    (s.replaceAt place { e with lastUsedAt := now }).Tracks
      (Function.update lists scope
        ({ e with lastUsedAt := now } :: (lists scope).eraseP (isFor filters))) := by
  have hlist : (lists scope).find? (isFor filters) = some e := by
    rw [← (h.lists scope).find?_eq, hfound, Option.map_some]
  have hscope : e.scope = scope :=
    (((h.lists scope).mem_iff e).mp (List.mem_of_find?_eq_some hlist)).2
  obtain ⟨hplace, heq⟩ := List.getElem?_eq_some_iff.mp (getElem?_of_find? hfound)
  have hbefore : s.entries.Perm (e :: s.entries.eraseIdx place) :=
    heq ▸ (List.getElem_cons_eraseIdx_perm hplace).symm
  have hafter := List.set_perm_cons_eraseIdx hplace { e with lastUsedAt := now }
  constructor
  · intro other
    by_cases hother : other = scope
    · subst hother
      have hrest : ((lists other).eraseP (isFor filters)).Perm
          ((s.entries.eraseIdx place).filter fun x => x.scope == other) := by
        have hall := (perm_eraseP_of_find? hlist).symm.trans ((h.lists other).perm.trans (hbefore.filter _))
        rw [List.filter_cons_of_pos (by simp [hscope])] at hall
        exact hall.cons_inv
      rw [Function.update_self]
      constructor
      · apply List.Perm.trans _ (hafter.filter _).symm
        rw [List.filter_cons_of_pos (by simpa [HistoryEntry.scope] using hscope)]
        exact hrest.cons _
      · rw [List.pairwise_cons]
        constructor
        · intro x hx
          exact hnow x (((h.lists other).mem_iff x).mp (List.mem_of_mem_eraseP hx)).1
        · exact (h.lists other).ordered.sublist List.eraseP_sublist
    · rw [Function.update_of_ne hother]
      have hne : e.scope ≠ other := hscope.trans_ne (Ne.symm hother)
      apply (h.lists other).congr
      apply (hbefore.filter _).trans
      apply List.Perm.trans _ (hafter.filter _).symm
      rw [List.filter_cons_of_neg (by simpa using hne), List.filter_cons_of_neg]
      simpa [HistoryEntry.scope] using hne
  · have hids := (hafter.map HistoryEntry.id).trans (hbefore.map HistoryEntry.id).symm
    exact hids.nodup_iff.mpr h.ids

/-- A new entry comes first, before any are left out. -/
theorem Tracks.grow (h : s.Tracks lists) {e : HistoryEntry} (hid : ∀ x ∈ s.entries, x.id ≠ e.id)
    (hnow : ∀ x ∈ s.entries, x.lastUsedAt < e.lastUsedAt) :
    HistoryStore.Tracks { s with entries := s.entries ++ [e] }
      (Function.update lists e.scope (e :: lists e.scope)) := by
  have hgrown : (s.entries ++ [e]).Perm (e :: s.entries) := List.perm_append_singleton e s.entries
  constructor
  · intro other
    by_cases hother : other = e.scope
    · subst hother
      rw [Function.update_self]
      constructor
      · apply List.Perm.trans _ (hgrown.filter _).symm
        rw [List.filter_cons_of_pos (by simp)]
        exact (h.lists e.scope).perm.cons e
      · rw [List.pairwise_cons]
        constructor
        · intro x hx
          exact hnow x (((h.lists e.scope).mem_iff x).mp hx).1
        · exact (h.lists e.scope).ordered
    · rw [Function.update_of_ne hother]
      apply (h.lists other).congr
      apply List.Perm.trans _ (hgrown.filter _).symm
      rw [List.filter_cons_of_neg (by simpa using Ne.symm hother)]
  · have hids := hgrown.map HistoryEntry.id
    rw [hids.nodup_iff, List.map_cons, List.nodup_cons]
    refine ⟨?_, h.ids⟩
    intro hmem
    obtain ⟨x, hx, hsame⟩ := List.mem_map.mp hmem
    exact hid x hx hsame

/-- The last entries of one list are left out, by their ids; the other lists stay as they are. -/
theorem Tracks.cut (h : s.Tracks lists) (scope : HistoryScope) (size : Nat) :
    HistoryStore.Tracks
      { s with entries := s.entries.filter fun x =>
          !(((lists scope).drop size).map HistoryEntry.id).contains x.id }
      (Function.update lists scope ((lists scope).take size)) := by
  have hdropped : ∀ x ∈ s.entries,
      (!(((lists scope).drop size).map HistoryEntry.id).contains x.id) = true ↔ x ∉ (lists scope).drop size := by
    intro x hx
    rw [Bool.not_eq_true', ← Bool.not_eq_true, List.contains_iff_mem, List.mem_map, not_iff_not]
    constructor
    · rintro ⟨y, hy, hsame⟩
      have hmem := ((h.lists scope).mem_iff y).mp (List.mem_of_mem_drop hy)
      exact h.eq_of_id hmem.1 hx hsame ▸ hy
    · intro hmem
      exact ⟨x, hmem, rfl⟩
  constructor
  · intro other
    by_cases hother : other = scope
    · subst hother
      rw [Function.update_self]
      have hkept : ∀ x ∈ lists other,
          (!(((lists other).drop size).map HistoryEntry.id).contains x.id) = true ↔
            x ∉ (lists other).drop size := by
        intro x hx
        exact hdropped x (((h.lists other).mem_iff x).mp hx).1
      constructor
      · rw [List.filter_comm]
        apply List.Perm.trans _ ((h.lists other).perm.filter _)
        rw [filter_of_not_mem_drop (h.lists other).nodup hkept]
      · exact (h.lists other).ordered.sublist (List.take_sublist _ _)
    · rw [Function.update_of_ne hother]
      apply (h.lists other).congr
      rw [List.filter_comm]
      apply List.Perm.of_eq
      symm
      apply List.filter_eq_self.mpr
      intro x hx
      rw [List.mem_filter, beq_iff_eq] at hx
      rw [hdropped x hx.1]
      intro hmem
      have hscope := (((h.lists scope).mem_iff x).mp (List.mem_of_mem_drop hmem)).2
      exact hother (hx.2.symm.trans hscope)
  · exact h.ids.sublist (List.filter_sublist.map _)

theorem delete?_eq (hids : (s.entries.map HistoryEntry.id).Nodup) (id userId : String) :
    s.delete? id userId =
      if s.entries.any fun e => e.id == id && e.userId == userId then
        some { s with entries := s.entries.filter fun e => !(e.id == id && e.userId == userId) }
      else none := by
  rw [delete?, dropFirst_eq id userId hids]
  split <;> rfl

theorem entries_delete? (hids : (s.entries.map HistoryEntry.id).Nodup) (id userId : String) :
    ((s.delete? id userId).getD s).entries =
      s.entries.filter fun e => !(e.id == id && e.userId == userId) := by
  rw [delete?_eq hids]
  by_cases hany : s.entries.any fun e => e.id == id && e.userId == userId
  · rw [if_pos hany]
    rfl
  · rw [if_neg hany, Option.getD_none]
    symm
    apply List.filter_eq_self.mpr
    intro x hx
    rw [Bool.not_eq_true', ← Bool.not_eq_true]
    intro hmatch
    exact hany (List.any_eq_true.mpr ⟨x, hx, hmatch⟩)

/-- A deleted entry is missing from the list of its scope, if it was there. -/
theorem Tracks.erase (h : s.Tracks lists) (id userId : String) :
    ((s.delete? id userId).getD s).Tracks fun scope =>
      if scope.userId = userId then (lists scope).filter (fun e => e.id != id) else lists scope := by
  have herased := entries_delete? h.ids id userId
  constructor
  · intro scope
    have hlist : ((lists scope).filter fun e => !(e.id == id && e.userId == userId)).Perm
        (((s.delete? id userId).getD s).entries.filter fun e => e.scope == scope) := by
      rw [herased, List.filter_comm]
      exact (h.lists scope).perm.filter _
    have howner : ∀ e ∈ lists scope, e.userId = scope.userId := by
      intro e he
      exact congrArg HistoryScope.userId (((h.lists scope).mem_iff e).mp he).2
    have hfilter : ((lists scope).filter fun e => !(e.id == id && e.userId == userId)) =
        if scope.userId = userId then (lists scope).filter (fun e => e.id != id) else lists scope := by
      by_cases huser : scope.userId = userId
      · rw [if_pos huser]
        apply List.filter_congr
        intro e he
        simp [howner e he, huser, bne]
      · rw [if_neg huser]
        apply List.filter_eq_self.mpr
        intro e he
        simp [howner e he, huser]
    rw [← hfilter]
    exact ⟨hlist, (h.lists scope).ordered.sublist List.filter_sublist⟩
  · rw [herased]
    exact h.ids.sublist (List.filter_sublist.map _)

end HistoryStore

end TableSteward

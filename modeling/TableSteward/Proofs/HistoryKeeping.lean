import Mathlib.Data.List.Sigma
import TableSteward.Proofs.RecentlyUsed
import TableSteward.Proofs.StoreDocuments
import TableSteward.Proofs.StoreFaults

/-!
# What a save keeps

The times that are handed to a history need not grow: a clock may be set back.  `Reached` are the histories that saves
at any times, deletions and reloads lead to.  A set that is saved is then not always listed: `ahead` are the entries
that stand before it, and `listed_iff_room` says that it is listed just if they leave it a place, that a set which is
used again is always listed, and that a new set which is not listed is dropped at once and nothing else with it.
-/
set_option autoImplicit false

namespace TableSteward

namespace HistoryStore

/-- The histories that can be reached, by saves at any times with ids that no entry has.  They may be opened again under
another limit, and `most` is the greatest of these limits. -/
inductive Reached (most : Nat) : HistoryStore → Prop
  | opened {limit : Nat} (hlimit : limit ≤ most) : Reached most ⟨limit, []⟩
  | saved {s : HistoryStore} (scope : HistoryScope) (filters : List FilterSpec) (now : String) {id : String}
      (hs : Reached most s) (hid : ∀ x ∈ s.entries, x.id ≠ id) : Reached most (s.record scope filters now id).2
  | deleted {s t : HistoryStore} {id userId : String} (hs : Reached most s) (ht : s.delete? id userId = some t) :
      Reached most t
  | reopened {s t : HistoryStore} {fs : Files} {limit : Nat} (hs : Reached most s)
      (hfile : fs.Holds fileName s.toValue (.list [])) (hjson : s.toValue.isJson = true)
      (hdepth : s.toValue.depth ≤ Json.deepest) (hlimit : limit ≤ most) (ht : load limit fs = .ok t) :
      Reached most t

/-- The entries of a scope that stand before a set of filters which is used `now`: those used later, and of those
used at the same time the ones behind it in the history, where a set that is new stands last. -/
def ahead (s : HistoryStore) (scope : HistoryScope) (filters : List FilterSpec) (now : String) :
    List HistoryEntry :=
  let place := ((s.find? scope filters).map (·.2)).getD s.entries.length
  ((s.entries.take place).filter fun x => x.scope == scope && now < x.lastUsedAt) ++
    (s.entries.drop (place + 1)).filter fun x => x.scope == scope && now ≤ x.lastUsedAt

/-! ## Places in the order -/

variable {s t : HistoryStore} {scope : HistoryScope} {e : HistoryEntry} {size : Nat}

theorem before_iff (a b : HistoryEntry × Nat) : before a b = true ↔
    b.1.lastUsedAt < a.1.lastUsedAt ∨ (a.1.lastUsedAt = b.1.lastUsedAt ∧ b.2 ≤ a.2) := by
  rw [before, Bool.or_eq_true, Bool.and_eq_true, decide_eq_true_eq, decide_eq_true_eq, beq_iff_eq]

theorem place_eq_of_before {a b : HistoryEntry × Nat} (hab : before a b = true) (hba : before b a = true) :
    a.2 = b.2 := by
  have hsame : a.1.lastUsedAt = b.1.lastUsedAt := le_antisymm (le_of_before hba) (le_of_before hab)
  rw [before_iff, hsame] at hab hba
  have hle := (hab.resolve_left (lt_irrefl _)).2
  have hge := (hba.resolve_left (lt_irrefl _)).2
  omega

theorem nodup_placed (s : HistoryStore) (scope : HistoryScope) : ((s.placed scope).map Prod.snd).Nodup := by
  have hperm := (List.mergeSort_perm (s.entries.zipIdx.filter fun x => x.1.scope == scope) before).map Prod.snd
  rw [placed, hperm.nodup_iff]
  exact (List.nodup_zipIdx_map_snd s.entries).sublist (List.filter_sublist.map Prod.snd)

/-- An entry of a sorted scope is preceded by those that come before it. -/
theorem length_front_of_placed {front back : List (HistoryEntry × Nat)} {a : HistoryEntry × Nat}
    (h : s.placed scope = front ++ a :: back) :
    front.length = s.entries.zipIdx.countP fun x => x.1.scope == scope && (x.2 != a.2 && before x a) := by
  have hsorted : (s.placed scope).Pairwise fun x y => before x y = true :=
    List.pairwise_mergeSort before_trans before_total _
  have hplaces := nodup_placed s scope
  rw [h, List.pairwise_append, List.pairwise_cons] at hsorted
  rw [h, List.map_append, List.map_cons, List.nodup_middle, List.nodup_cons, List.mem_append, not_or] at hplaces
  obtain ⟨-, ⟨hback, -⟩, hfront⟩ := hsorted
  obtain ⟨⟨hfrontPlace, hbackPlace⟩, -⟩ := hplaces
  have hall : front.countP (fun x => x.2 != a.2 && before x a) = front.length := by
    rw [List.countP_eq_length]
    intro x hx
    have hne : x.2 ≠ a.2 := fun hsame => hfrontPlace (List.mem_map.mpr ⟨x, hx, hsame⟩)
    simp [hne, hfront x hx a (List.mem_cons_self ..)]
  have hnone : back.countP (fun x => x.2 != a.2 && before x a) = 0 := by
    rw [List.countP_eq_zero]
    intro x hx hcounted
    rw [Bool.and_eq_true, bne_iff_ne] at hcounted
    exact hcounted.1 (place_eq_of_before hcounted.2 (hback x hx))
  have hcount : (s.placed scope).countP (fun x => x.2 != a.2 && before x a) = front.length := by
    simp [h, List.countP_append, hall, hnone]
  rw [← hcount, placed, (List.mergeSort_perm _ _).countP_eq, List.countP_filter]
  apply List.countP_congr
  intro x _
  simp [and_comm]

theorem mem_take_append_cons {α : Type} {front back : List α} {a : α} (hfront : a ∉ front) (n : Nat) :
    a ∈ (front ++ a :: back).take n ↔ front.length < n := by
  rw [List.take_append, List.mem_append]
  constructor
  · rintro (hmem | hmem)
    · exact absurd (List.mem_of_mem_take hmem) hfront
    · by_contra hle
      rw [Nat.sub_eq_zero_of_le (not_lt.mp hle), List.take_zero] at hmem
      cases hmem
  · intro hlt
    obtain ⟨k, hk⟩ := Nat.exists_eq_add_of_lt hlt
    right
    rw [show n - front.length = k + 1 by omega, List.take_succ_cons]
    exact List.mem_cons_self ..

theorem recent_eq_take (hlimit : s.limit = (size : Int)) : s.recent scope = (s.inScope scope).take size := by
  rw [recent, hlimit, Name.takeUpTo, if_pos (Int.natCast_nonneg size), Int.toNat_natCast]

theorem overflow_eq_drop (hlimit : s.limit = (size : Int)) : s.overflow scope = (s.inScope scope).drop size := by
  rw [overflow, recent_eq_take hlimit, List.length_take, ← List.drop_eq_drop_min]

theorem mem_inScope_iff : e ∈ s.inScope scope ↔ e ∈ s.entries ∧ e.scope = scope := by
  rw [(inScope_perm s scope).mem_iff, List.mem_filter, beq_iff_eq]

theorem nodup_inScope (hids : (s.entries.map HistoryEntry.id).Nodup) : (s.inScope scope).Nodup := by
  rw [(inScope_perm s scope).nodup_iff]
  exact (List.Nodup.of_map _ hids).filter _

theorem length_inScope (s : HistoryStore) (scope : HistoryScope) :
    (s.inScope scope).length = s.entries.countP fun x => x.scope == scope := by
  rw [(inScope_perm s scope).length_eq, List.countP_eq_length_filter]

/-- An entry is listed just if there are fewer entries before it than are listed. -/
theorem mem_recent_iff {front back : List HistoryEntry} (hentries : s.entries = front ++ e :: back)
    (hids : (s.entries.map HistoryEntry.id).Nodup) (hscope : e.scope = scope) (hlimit : s.limit = (size : Int)) :
    e ∈ s.recent scope ↔
      ((front.filter fun x => x.scope == scope && e.lastUsedAt < x.lastUsedAt) ++
        back.filter fun x => x.scope == scope && e.lastUsedAt ≤ x.lastUsedAt).length < size := by
  have hplaced : (e, front.length) ∈ s.placed scope := by
    rw [placed, List.mem_mergeSort, List.mem_filter, List.mem_zipIdx_iff_getElem?, hentries]
    simp [hscope]
  obtain ⟨before', after, hsplit⟩ := List.append_of_mem hplaced
  have hinScope : s.inScope scope = before'.map Prod.fst ++ e :: after.map Prod.fst := by
    simp [inScope, hsplit]
  have hnotBefore : e ∉ before'.map Prod.fst := by
    have hnodup : (s.inScope scope).Nodup := nodup_inScope hids
    rw [hinScope, List.nodup_middle, List.nodup_cons, List.mem_append, not_or] at hnodup
    exact hnodup.1.1
  rw [recent_eq_take hlimit, hinScope, mem_take_append_cons hnotBefore, List.length_map,
    length_front_of_placed hsplit, hentries, List.zipIdx_append, List.zipIdx_cons, List.countP_append,
    List.countP_cons, List.length_append]
  have hfront : front.zipIdx.countP
        (fun x => x.1.scope == scope && (x.2 != front.length && before x (e, front.length))) =
      (front.filter fun x => x.scope == scope && decide (e.lastUsedAt < x.lastUsedAt)).length := by
    rw [← List.countP_eq_length_filter]
    conv_rhs => rw [← List.zipIdx_map_fst 0 front, List.countP_map]
    apply List.countP_congr
    intro x hx
    have hlt : x.2 < front.length := by simpa using List.snd_lt_of_mem_zipIdx hx
    have hbefore : before x (e, front.length) = true ↔ e.lastUsedAt < x.1.lastUsedAt := by
      rw [before_iff]
      exact or_iff_left fun hsame => absurd hsame.2 (Nat.not_le.mpr hlt)
    simp only [Bool.and_eq_true, bne_iff_ne, hbefore, decide_eq_true_eq, Function.comp_apply]
    exact and_congr_right fun _ => and_iff_right (Nat.ne_of_lt hlt)
  have hback : (back.zipIdx (0 + front.length + 1)).countP
        (fun x => x.1.scope == scope && (x.2 != front.length && before x (e, front.length))) =
      (back.filter fun x => x.scope == scope && decide (e.lastUsedAt ≤ x.lastUsedAt)).length := by
    rw [← List.countP_eq_length_filter]
    conv_rhs => rw [← List.zipIdx_map_fst (0 + front.length + 1) back, List.countP_map]
    apply List.countP_congr
    intro x hx
    have hlt : front.length < x.2 := by
      have hle := List.le_snd_of_mem_zipIdx hx
      omega
    have hbefore : before x (e, front.length) = true ↔ e.lastUsedAt ≤ x.1.lastUsedAt := by
      rw [before_iff, and_iff_left hlt.le, eq_comm]
      exact le_iff_lt_or_eq.symm
    simp only [Bool.and_eq_true, bne_iff_ne, hbefore, decide_eq_true_eq, Function.comp_apply]
    exact and_congr_right fun _ => and_iff_right (Nat.ne_of_gt hlt)
  rw [hfront, hback]
  simp

/-! ## A set that is used again -/

/-- The history is the same but for the time of one entry. -/
structure Bumps (s : HistoryStore) (scope : HistoryScope) (filters : List FilterSpec) (now : String)
    (used : HistoryEntry) (front back : List HistoryEntry) : Prop where
  concerns : used.scope = scope
  equal : filtersEqual used.filters filters = true
  entries_eq : s.entries = front ++ used :: back
  ahead_eq : s.ahead scope filters now =
    (front.filter fun x => x.scope == scope && now < x.lastUsedAt) ++
      back.filter fun x => x.scope == scope && now ≤ x.lastUsedAt
  record_eq : ∀ id, s.record scope filters now id =
    ({ used with lastUsedAt := now }, { s with entries := front ++ { used with lastUsedAt := now } :: back })

theorem bumps_of_find? {filters : List FilterSpec} {used : HistoryEntry} {place : Nat}
    (h : s.find? scope filters = some (used, place)) (now : String) :
    s.Bumps scope filters now used (s.entries.take place) (s.entries.drop (place + 1)) := by
  obtain ⟨hplace, hused⟩ := List.getElem?_eq_some_iff.mp (getElem?_of_find? h)
  have hmem : used ∈ s.inScope scope := List.mem_map.mpr ⟨_, List.mem_of_find?_eq_some h, rfl⟩
  constructor
  · exact (mem_inScope_iff.mp hmem).2
  · have hfound := List.find?_some h
    exact hfound
  · rw [← hused, List.getElem_cons_drop, List.take_append_drop]
  · simp only [HistoryStore.ahead, h, Option.map_some, Option.getD_some]
  · intro id
    rw [HistoryStore.record, h]
    simp only [replaceAt, List.set_eq_take_append_cons_drop, if_pos hplace]

theorem find?_eq_none_iff (filters : List FilterSpec) :
    s.find? scope filters = none ↔
      ∀ x ∈ s.entries, x.scope = scope → filtersEqual x.filters filters = false := by
  rw [find?, List.find?_eq_none]
  constructor
  · intro h x hx hscope
    obtain ⟨y, hy, rfl⟩ := List.mem_map.mp (mem_inScope_iff.mpr ⟨hx, hscope⟩)
    exact Bool.eq_false_iff.mpr (h y hy)
  · intro h y hy
    obtain ⟨hx, hscope⟩ := mem_inScope_iff.mp (List.mem_map.mpr ⟨y, hy, rfl⟩)
    exact Bool.eq_false_iff.mp (h y.1 hx hscope)

theorem ahead_of_new {filters : List FilterSpec} (h : s.find? scope filters = none) (now : String) :
    s.ahead scope filters now = s.entries.filter fun x => x.scope == scope && now < x.lastUsedAt := by
  rw [ahead, h, Option.map_none, Option.getD_none, List.take_length, List.drop_eq_nil_of_le (Nat.le_succ _),
    List.filter_nil, List.append_nil]

/-! ## A set that is new -/

/-- The entry of a set that is new. -/
def entryFor (scope : HistoryScope) (filters : List FilterSpec) (now id : String) : HistoryEntry :=
  ⟨id, scope.userId, scope.database, scope.table, filters, now⟩

theorem record_of_new {filters : List FilterSpec} (h : s.find? scope filters = none) (now id : String) :
    s.record scope filters now id = (entryFor scope filters now id, s.add (entryFor scope filters now id)) := by
  rw [record, h]
  rfl

/-- The history with one entry more, before any are left out. -/
def grown (s : HistoryStore) (e : HistoryEntry) : HistoryStore := { s with entries := s.entries ++ [e] }

theorem add_eq (s : HistoryStore) (e : HistoryEntry) : s.add e =
    { s with entries := (s.grown e).entries.filter fun x =>
        !(((s.grown e).overflow e.scope).map HistoryEntry.id).contains x.id } := rfl

theorem length_inScope_grown (s : HistoryStore) (e : HistoryEntry) :
    ((s.grown e).inScope e.scope).length = (s.inScope e.scope).length + 1 := by
  rw [length_inScope, length_inScope]
  simp [grown, List.countP_append]

/-- In a scope that holds fewer than are listed, no entry goes. -/
theorem add_of_room (hlimit : s.limit = (size : Int)) (hroom : (s.inScope e.scope).length < size) :
    s.add e = s.grown e := by
  have hnone : (s.grown e).overflow e.scope = [] := by
    have hdrop : (s.grown e).overflow e.scope = ((s.grown e).inScope e.scope).drop size := overflow_eq_drop hlimit
    rw [hdrop, List.drop_eq_nil_iff, length_inScope_grown]
    exact hroom
  rw [add_eq, hnone]
  simp [grown]

theorem nodup_grown_ids (hids : (s.entries.map HistoryEntry.id).Nodup) (hnew : ∀ x ∈ s.entries, x.id ≠ e.id) :
    ((s.grown e).entries.map HistoryEntry.id).Nodup := by
  rw [grown, ((List.perm_append_singleton e s.entries).map HistoryEntry.id).nodup_iff, List.map_cons, List.nodup_cons]
  refine ⟨?_, hids⟩
  intro hmem
  obtain ⟨x, hx, hsame⟩ := List.mem_map.mp hmem
  exact hnew x hx hsame

section Add

variable (hids : ((s.grown e).entries.map HistoryEntry.id).Nodup)

include hids

theorem kept_iff {x : HistoryEntry} (hx : x ∈ (s.grown e).entries) :
    (!(((s.grown e).overflow e.scope).map HistoryEntry.id).contains x.id) = true ↔
      x ∉ (s.grown e).overflow e.scope := by
  rw [Bool.not_eq_true', ← Bool.not_eq_true, List.contains_iff_mem, List.mem_map, not_iff_not]
  constructor
  · rintro ⟨y, hy, hsame⟩
    have hlisted := (mem_inScope_iff.mp (List.mem_of_mem_drop hy)).1
    exact List.inj_on_of_nodup_map hids hlisted hx hsame ▸ hy
  · intro hmem
    exact ⟨x, hmem, rfl⟩

theorem mem_add_iff {x : HistoryEntry} : x ∈ (s.add e).entries ↔
    x ∈ (s.grown e).entries ∧ x ∉ (s.grown e).overflow e.scope := by
  rw [add_eq, List.mem_filter]
  exact and_congr_right fun hx => kept_iff hids hx

variable (hlimit : s.limit = (size : Int))

include hlimit

/-- What is left of the scope are the entries that were listed. -/
theorem inScope_add_perm :
    ((s.add e).inScope e.scope).Perm ((s.grown e).recent e.scope) := by
  have hdrop : (s.grown e).overflow e.scope = ((s.grown e).inScope e.scope).drop size := overflow_eq_drop hlimit
  have htake : (s.grown e).recent e.scope = ((s.grown e).inScope e.scope).take size := recent_eq_take hlimit
  apply (inScope_perm _ _).trans
  rw [add_eq, List.filter_comm]
  apply ((inScope_perm (s.grown e) e.scope).filter _).symm.trans
  rw [htake]
  apply List.Perm.of_eq
  apply filter_of_not_mem_drop (nodup_inScope hids)
  intro x hx
  rw [← hdrop]
  exact kept_iff hids (mem_inScope_iff.mp hx).1

theorem length_inScope_add : ((s.add e).inScope e.scope).length ≤ size := by
  rw [(inScope_add_perm hids hlimit).length_eq,
    recent_eq_take (s := s.grown e) hlimit]
  exact List.length_take_le _ _

theorem mem_recent_add_iff {x : HistoryEntry} :
    x ∈ (s.add e).recent e.scope ↔ x ∈ (s.grown e).recent e.scope := by
  rw [recent_eq_take (s := s.add e) hlimit, List.take_of_length_le (length_inScope_add hids hlimit)]
  exact (inScope_add_perm hids hlimit).mem_iff

/-- As long as the new entry is listed, the entries that go are of its scope and were not used later. -/
theorem dropped_by_add (hlisted : e ∈ (s.add e).recent e.scope) {x : HistoryEntry}
    (hx : x ∈ (s.grown e).overflow e.scope) : x.lastUsedAt ≤ e.lastUsedAt := by
  rw [mem_recent_add_iff hids hlimit, recent_eq_take (s := s.grown e) hlimit] at hlisted
  rw [overflow_eq_drop (s := s.grown e) hlimit] at hx
  have hordered := inScope_ordered (s.grown e) e.scope
  rw [← List.take_append_drop size (inScope _ _), List.pairwise_append] at hordered
  exact hordered.2.2 e hlisted x hx

/-- In a scope that holds no more than are listed, a new entry that is not listed is the only one to go. -/
theorem add_eq_self (hsize : (s.inScope e.scope).length ≤ size) (hlisted : e ∉ (s.add e).recent e.scope) :
    s.add e = s := by
  have hmem : e ∈ (s.grown e).inScope e.scope := by
    rw [mem_inScope_iff]
    exact ⟨List.mem_append_right _ (List.mem_singleton_self e), rfl⟩
  have hlength : ((s.grown e).inScope e.scope).length ≤ size + 1 := by
    rw [length_inScope_grown]
    exact Nat.succ_le_succ hsize
  have hdrop : (s.grown e).overflow e.scope = ((s.grown e).inScope e.scope).drop size := overflow_eq_drop hlimit
  rw [mem_recent_add_iff hids hlimit, recent_eq_take (s := s.grown e) hlimit] at hlisted
  rw [← List.take_append_drop size (inScope _ _), List.mem_append] at hmem
  have hlast : (s.grown e).overflow e.scope = [e] := by
    have hone := hmem.resolve_left hlisted
    have hshort : (((s.grown e).inScope e.scope).drop size).length ≤ 1 := by
      rw [List.length_drop]
      omega
    obtain ⟨x, hx⟩ := List.length_eq_one_iff.mp (le_antisymm hshort (List.length_pos_of_mem hone))
    rw [hx, List.mem_singleton] at hone
    rw [hdrop, hx, hone]
  have hkept : s.entries.filter (fun x => !([e].map HistoryEntry.id).contains x.id) = s.entries := by
    apply List.filter_eq_self.mpr
    intro x hx
    rw [grown, List.map_append, List.nodup_append] at hids
    have hne := hids.2.2 x.id (List.mem_map_of_mem hx) e.id (by simp)
    simp [hne]
  rw [add_eq, hlast, grown, List.filter_append, hkept]
  simp

end Add

/-! ## What holds of every history that is reached -/

/-- The ids tell the entries apart, and no scope holds more of them than the greatest limit. -/
structure Sound (most : Nat) (s : HistoryStore) : Prop where
  ids : (s.entries.map HistoryEntry.id).Nodup
  limit : ∃ size : Nat, size ≤ most ∧ s.limit = (size : Int)
  sizes : ∀ scope, (s.inScope scope).length ≤ most

variable {most : Nat}

/-- What is asked of the entries is kept when they lose some, or change in other respects. -/
theorem Sound.of_entries (h : s.Sound most) {size : Nat} (hsize : size ≤ most) (hlimit : t.limit = (size : Int))
    (hids : (t.entries.map HistoryEntry.id).Sublist (s.entries.map HistoryEntry.id))
    (hscopes : (t.entries.map HistoryEntry.scope).Sublist (s.entries.map HistoryEntry.scope)) : t.Sound most := by
  constructor
  · exact h.ids.sublist hids
  · exact ⟨size, hsize, hlimit⟩
  · intro scope
    have hcount := hscopes.countP_le (p := (· == scope))
    rw [List.countP_map, List.countP_map] at hcount
    have hold := h.sizes scope
    rw [length_inScope] at hold ⊢
    exact hcount.trans hold

theorem Sound.bumps (h : s.Sound most) {filters : List FilterSpec} {now : String} {used : HistoryEntry}
    {front back : List HistoryEntry} (hbumps : s.Bumps scope filters now used front back) (id : String) :
    (s.record scope filters now id).2.Sound most := by
  obtain ⟨size, hsize, hlimit⟩ := h.limit
  have hlimit' : (s.record scope filters now id).2.limit = (size : Int) := by
    rw [hbumps.record_eq]
    exact hlimit
  apply h.of_entries hsize hlimit'
  · simp [hbumps.record_eq, hbumps.entries_eq]
  · simp [hbumps.record_eq, hbumps.entries_eq, HistoryEntry.scope]

theorem Sound.add (h : s.Sound most) (hnew : ∀ x ∈ s.entries, x.id ≠ e.id) : (s.add e).Sound most := by
  obtain ⟨size, hsize, hlimit⟩ := h.limit
  have hids := nodup_grown_ids h.ids hnew
  constructor
  · rw [add_eq]
    exact hids.sublist (List.filter_sublist.map _)
  · exact ⟨size, hsize, hlimit⟩
  · intro scope
    by_cases hscope : e.scope = scope
    · subst hscope
      exact (length_inScope_add hids hlimit).trans hsize
    · have hold := h.sizes scope
      rw [length_inScope] at hold ⊢
      calc (s.add e).entries.countP (fun x => x.scope == scope)
          ≤ (s.grown e).entries.countP fun x => x.scope == scope := by
            rw [add_eq]
            exact List.filter_sublist.countP_le
        _ = s.entries.countP fun x => x.scope == scope := by simp [grown, List.countP_append, hscope]
        _ ≤ most := hold

theorem Reached.sound (h : s.Reached most) : s.Sound most := by
  induction h with
  | @opened limit hlimit =>
      constructor
      · exact List.nodup_nil
      · exact ⟨limit, hlimit, rfl⟩
      · intro scope
        rw [length_inScope]
        exact Nat.zero_le most
  | @saved s scope filters now id _ hid ih =>
      cases hfound : s.find? scope filters with
      | some found =>
          obtain ⟨used, place⟩ := found
          exact ih.bumps (bumps_of_find? hfound now) id
      | none =>
          rw [record_of_new hfound]
          exact ih.add hid
  | @deleted s t id userId _ ht ih =>
      obtain ⟨rest, hrest, rfl⟩ := Option.map_eq_some_iff.mp ht
      obtain ⟨size, hsize, hlimit⟩ := ih.limit
      have hsub := sublist_of_dropFirst hrest
      exact ih.of_entries hsize hlimit (hsub.map _) (hsub.map _)
  | @reopened s t fs limit _ hfile hjson hdepth hlimit ht ih =>
      have hload := load_of_holds (s := { s with limit := limit }) hfile hjson hdepth
      obtain rfl : t = HistoryStore.sorted { s with limit := limit } := Except.ok.inj (ht.symm.trans hload)
      apply ih.of_entries hlimit rfl
      · simp only [sorted, List.map_map]
        exact List.Sublist.refl _
      · simp only [sorted, List.map_map]
        exact List.Sublist.refl _

/-! ## One save -/

section Record

variable {filters : List FilterSpec} {now id : String} (h : s.Sound most) (hnew : ∀ x ∈ s.entries, x.id ≠ id)

include h hnew

theorem mem_recent_record_iff (hlimit : s.limit = (size : Int)) :
    (s.record scope filters now id).1 ∈ (s.record scope filters now id).2.recent scope ↔
      (s.ahead scope filters now).length < size := by
  cases hfound : s.find? scope filters with
  | some found =>
      obtain ⟨used, place⟩ := found
      have hbumps := bumps_of_find? hfound now
      have hids := (h.bumps hbumps id).ids
      rw [hbumps.record_eq] at hids ⊢
      rw [hbumps.ahead_eq]
      exact mem_recent_iff rfl hids hbumps.concerns hlimit
  | none =>
      have hids := nodup_grown_ids (e := entryFor scope filters now id) h.ids hnew
      rw [ahead_of_new hfound, record_of_new hfound]
      have hlisted : entryFor scope filters now id ∈ (s.grown (entryFor scope filters now id)).recent scope ↔ _ :=
        mem_recent_iff rfl hids rfl hlimit
      rw [List.filter_nil, List.append_nil] at hlisted
      exact (mem_recent_add_iff hids hlimit).trans hlisted

/-- What a save removes is of its scope, and was used no later as long as the entry that is saved is listed. -/
theorem gone_of_record (hlimit : s.limit = (size : Int)) {x : HistoryEntry} (hx : x ∈ s.entries)
    (hgone : ∀ y ∈ (s.record scope filters now id).2.entries, y.id ≠ x.id) :
    x.scope = scope ∧ ((s.ahead scope filters now).length < size → x.lastUsedAt ≤ now) := by
  rw [← mem_recent_record_iff h hnew hlimit]
  cases hfound : s.find? scope filters with
  | some found =>
      obtain ⟨used, place⟩ := found
      have hbumps := bumps_of_find? hfound now
      rw [hbumps.record_eq] at hgone
      rw [hbumps.entries_eq, List.mem_append, List.mem_cons] at hx
      rcases hx with hx | rfl | hx
      · exact absurd rfl (hgone x (List.mem_append_left _ hx))
      · exact absurd rfl (hgone { x with lastUsedAt := now } (List.mem_append_right _ (List.mem_cons_self ..)))
      · exact absurd rfl (hgone x (List.mem_append_right _ (List.mem_cons_of_mem _ hx)))
  | none =>
      have hids := nodup_grown_ids (e := entryFor scope filters now id) h.ids hnew
      rw [record_of_new hfound] at hgone ⊢
      have hdropped : x ∈ (s.grown (entryFor scope filters now id)).overflow scope := by
        by_contra hkept
        have hmem := (mem_add_iff hids).mpr ⟨List.mem_append_left _ hx, hkept⟩
        exact hgone x hmem rfl
      constructor
      · exact (mem_inScope_iff.mp (List.mem_of_mem_drop hdropped)).2
      · intro hlisted
        exact dropped_by_add hids hlimit hlisted hdropped

/-- A set that is used again is listed, in a scope that holds no more than are listed. -/
theorem listed_of_equal (hlimit : s.limit = (most : Int)) {x : HistoryEntry} (hx : x ∈ s.entries)
    (hscope : x.scope = scope) (hequal : filtersEqual x.filters filters = true) :
    (s.ahead scope filters now).length < most := by
  rw [← mem_recent_record_iff h hnew hlimit]
  cases hfound : s.find? scope filters with
  | some found =>
      obtain ⟨used, place⟩ := found
      have hbumps := bumps_of_find? hfound now
      have hsizes := (h.bumps hbumps id).sizes scope
      have hlimit' : (s.record scope filters now id).2.limit = (most : Int) :=
        (limit_apply (.save scope filters now id) s).trans hlimit
      rw [recent_eq_take hlimit', List.take_of_length_le hsizes, mem_inScope_iff, hbumps.record_eq]
      exact ⟨List.mem_append_right _ (List.mem_cons_self ..), hbumps.concerns⟩
  | none =>
      rw [(find?_eq_none_iff filters).mp hfound x hx hscope] at hequal
      cases hequal

/-- A set that is not listed leaves the history as it was, in a scope that holds no more than are listed. -/
theorem record_eq_self (hlimit : s.limit = (most : Int)) (hlisted : ¬ (s.ahead scope filters now).length < most) :
    (s.record scope filters now id).2 = s := by
  cases hfound : s.find? scope filters with
  | some found =>
      obtain ⟨used, place⟩ := found
      have hbumps := bumps_of_find? hfound now
      have hused : used ∈ s.entries := hbumps.entries_eq ▸ List.mem_append_right _ (List.mem_cons_self ..)
      exact absurd (listed_of_equal h hnew hlimit hused hbumps.concerns hbumps.equal) hlisted
  | none =>
      have hids := nodup_grown_ids (e := entryFor scope filters now id) h.ids hnew
      rw [← mem_recent_record_iff h hnew hlimit, record_of_new hfound] at hlisted
      rw [record_of_new hfound]
      exact add_eq_self hids hlimit (h.sizes scope) hlisted

end Record

/-! ## The service -/

variable {σ : Type}

/-- A save answers the entry if the history can be written. -/
theorem saveHistory_of_encodable (scope : HistoryScope) {filters : List FilterSpec} (hfilters : filters ≠ [])
    {s : Service σ} (hwritable : s.writable = true)
    (htext : (s.history.record scope filters s.now s.nextId).2.toValue.encodable = true) :
    ((Service.saveHistory scope filters).runOn s).1 = .ok (s.history.record scope filters s.now s.nextId).1 := by
  have hset : ∀ (t : Service σ) (history : HistoryStore) (e : HistoryEntry), t.writable = true →
      history.toValue.encodable = true →
        ((do Service.setHistory history; return e : Action σ HistoryEntry).runOn t).1 = .ok e := by
    intro t history e ht hhistory
    obtain ⟨text, hwritten⟩ := Files.documentText_of_encodable hhistory
    simp only [Service.setHistory, Service.persist, Service.filesWith, Files.write, ht, hwritten, Action.runOn_bind,
      Action.runOn_modify, Action.runOn_get, Action.runOn_lift, if_true]
    rfl
  have hempty : ¬ filters.isEmpty = true := by
    rw [List.isEmpty_iff]
    exact hfilters
  rw [Service.saveHistory, if_neg hempty, Action.runOn_bind, Action.runOn_get]
  cases hfound : s.history.find? scope filters with
  | none =>
      simp only [hfound, record] at htext ⊢
      rw [Action.runOn_bind, Action.runOn_freshId]
      exact hset _ _ _ hwritable htext
  | some found =>
      obtain ⟨e, place⟩ := found
      simp only [hfound, record] at htext ⊢
      exact hset _ _ _ hwritable htext

/-- What a save keeps, at whatever time.  It answers an entry if the history can be written, and this is listed just if
fewer entries than are listed stand before it; what goes is of its scope, and was used no later if the entry is listed.
As long as the limit was never lowered, a set that is used again is listed, and a set that is not listed leaves the
history as it was. -/
theorem listed_iff_room {s : Service σ} (hreached : s.history.Reached most) {size : Nat}
    (hlimit : s.history.limit = (size : Int)) (hnew : ∀ x ∈ s.history.entries, x.id ≠ s.nextId)
    (scope : HistoryScope) {filters : List FilterSpec} (hfilters : filters ≠ []) :
    let after := ((Service.saveHistory scope filters).runOn s).2.history
    let listed := (s.history.ahead scope filters s.now).length < size
    (s.writable = true → after.toValue.encodable = true →
      ∃ e, ((Service.saveHistory scope filters).runOn s).1 = .ok e) ∧
      (∀ e, ((Service.saveHistory scope filters).runOn s).1 = .ok e → (e ∈ after.recent scope ↔ listed)) ∧
      (∀ x ∈ s.history.entries, (∀ y ∈ after.entries, y.id ≠ x.id) →
        x.scope = scope ∧ (listed → x.lastUsedAt ≤ s.now)) ∧
      (size = most →
        ((∃ x ∈ s.history.entries, x.scope = scope ∧ filtersEqual x.filters filters = true) → listed) ∧
        (¬ listed → after = s.history)) := by
  intro after listed
  have hsound := hreached.sound
  obtain ⟨hhistory, hanswer⟩ := Service.saveHistory_run scope hfilters s
  refine ⟨?_, ?_, ?_, ?_⟩
  · intro hwritable htext
    simp only [after, hhistory] at htext
    exact ⟨_, saveHistory_of_encodable scope hfilters hwritable htext⟩
  · intro e he
    rw [hanswer e he]
    simp only [after, hhistory]
    exact mem_recent_record_iff hsound hnew hlimit
  · intro x hx hgone
    simp only [after, hhistory] at hgone
    exact gone_of_record hsound hnew hlimit hx hgone
  · rintro rfl
    constructor
    · rintro ⟨x, hx, hscope, hequal⟩
      exact listed_of_equal hsound hnew hlimit hx hscope hequal
    · intro hunlisted
      simp only [after, hhistory]
      exact record_eq_self hsound hnew hlimit hunlisted

/-- A service whose clock is set back by a day after it has saved a set of filters. -/
def clockSetBack (limit : Nat) : Service Unit :=
  let paid : List FilterSpec := [⟨"status", "eq", .text "paid"⟩]
  { Service.bare with
    now := "2025-01-01"
    ids := 1
    history := (record ⟨limit, []⟩ ⟨"ann", "Prod", "orders"⟩ paid "2025-01-02" "id1").2 }

theorem reached_clockSetBack (limit : Nat) : (clockSetBack limit).history.Reached limit :=
  .saved _ _ _ (.opened (le_refl limit)) fun _ hx => nomatch hx

theorem limit_clockSetBack (limit : Nat) : (clockSetBack limit).history.limit = (limit : Int) :=
  limit_apply (.save _ _ "2025-01-02" "id1") ⟨limit, []⟩

/-- With room for two sets, both are listed, the one that is saved last behind the other. -/
theorem listed_iff_room_for_two :
    let prod : HistoryScope := ⟨"ann", "Prod", "orders"⟩
    let west : List FilterSpec := [⟨"region", "eq", .text "west"⟩]
    let saved := (Service.saveHistory prod west).runOn (clockSetBack 2)
    (clockSetBack 2).history.Reached 2 ∧ (clockSetBack 2).history.limit = 2 ∧
      (∀ x ∈ (clockSetBack 2).history.entries, x.id ≠ (clockSetBack 2).nextId) ∧ west ≠ [] ∧
      (∃ e, saved.1 = .ok e ∧ e ∈ saved.2.history.recent prod) ∧
      (saved.2.history.recent prod).map HistoryEntry.id = ["id1", "id2"] := by
  intro prod west saved
  have hnew : ∀ x ∈ (clockSetBack 2).history.entries, x.id ≠ (clockSetBack 2).nextId := by decide +kernel
  have hwest : west ≠ [] := by decide
  have hroom := (listed_iff_room (reached_clockSetBack 2) (limit_clockSetBack 2) hnew prod hwest).2.1
  let e := entryFor prod west "2025-01-01" "id2"
  have hrecord : ((clockSetBack 2).history.record prod west "2025-01-01" "id2").2 =
      (clockSetBack 2).history.grown e := by
    rw [record_of_new (by decide +kernel), add_of_room (limit_clockSetBack 2) (by decide +kernel)]
  have hlists : ((clockSetBack 2).history.grown e).Lists prod ((clockSetBack 2).history.grown e).entries :=
    ⟨.of_eq (List.filter_eq_self.mpr (by decide +kernel)).symm, by decide +kernel⟩
  have hsaved := saveHistory_of_encodable prod hwest (s := clockSetBack 2) rfl (hrecord ▸ by decide +kernel)
  have hafter : saved.2.history = (clockSetBack 2).history.grown e :=
    (Service.saveHistory_run prod hwest (clockSetBack 2)).1.trans hrecord
  refine ⟨reached_clockSetBack 2, limit_clockSetBack 2, hnew, hwest, ⟨_, hsaved, ?_⟩, ?_⟩
  · rw [hroom _ hsaved]
    decide +kernel
  · rw [hafter, hlists.recent_eq (limit_clockSetBack 2)]
    decide +kernel

/-- With room for one, the set that is saved is answered and not listed. -/
theorem dropped_by_own_save :
    let prod : HistoryScope := ⟨"ann", "Prod", "orders"⟩
    let west : List FilterSpec := [⟨"region", "eq", .text "west"⟩]
    let saved := (Service.saveHistory prod west).runOn (clockSetBack 1)
    (clockSetBack 1).history.Reached 1 ∧ (clockSetBack 1).history.limit = 1 ∧
      (∀ x ∈ (clockSetBack 1).history.entries, x.id ≠ (clockSetBack 1).nextId) ∧
      ∃ e, saved.1 = .ok e ∧ e ∉ saved.2.history.recent prod := by
  intro prod west saved
  have hnew : ∀ x ∈ (clockSetBack 1).history.entries, x.id ≠ (clockSetBack 1).nextId := by decide +kernel
  have hwest : west ≠ [] := by decide
  have hrecord : ((clockSetBack 1).history.record prod west (clockSetBack 1).now (clockSetBack 1).nextId).2 =
      (clockSetBack 1).history :=
    record_eq_self (reached_clockSetBack 1).sound hnew (limit_clockSetBack 1) (by decide +kernel)
  have hsaved := saveHistory_of_encodable prod hwest (s := clockSetBack 1) rfl (by rw [hrecord]; decide +kernel)
  have hafter : saved.2.history = (clockSetBack 1).history :=
    (Service.saveHistory_run prod hwest (clockSetBack 1)).1.trans hrecord
  have hlisted : (saved.2.history.recent prod).map HistoryEntry.id = ["id1"] := by
    rw [hafter]
    decide +kernel
  refine ⟨reached_clockSetBack 1, limit_clockSetBack 1, hnew, _, hsaved, ?_⟩
  intro hmem
  have hid := List.mem_map_of_mem (f := HistoryEntry.id) hmem
  rw [hlisted, List.mem_singleton] at hid
  have hne : ((clockSetBack 1).history.record prod west "2025-01-01" (clockSetBack 1).nextId).1.id ≠ "id1" := by
    decide +kernel
  exact hne hid

end HistoryStore

end TableSteward

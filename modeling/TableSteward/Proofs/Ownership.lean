import TableSteward.Proofs.Conduct
import TableSteward.Proofs.StoreDocuments

/-!
# Whose entries operations change

Ids are given once.  As long as that is so, an operation changes the history and the blocks of one user only, its owner;
and an operation that has an owner leaves definitions and settings alone.
-/
set_option autoImplicit false

namespace TableSteward

/-- The entries of a user, for whatever table. -/
def HistoryStore.ofUser (s : HistoryStore) (user : String) : List HistoryEntry :=
  s.entries.filter fun e => e.userId == user

namespace HistoryStore

variable {s : HistoryStore} {user : String}

theorem scope_of_find? {scope : HistoryScope} {filters : List FilterSpec} {e : HistoryEntry} {place : Nat}
    (h : s.find? scope filters = some (e, place)) : e.scope = scope := by
  have hplaced : (e, place) ∈ s.placed scope := List.mem_of_find?_eq_some h
  rw [placed, List.mem_mergeSort, List.mem_filter] at hplaced
  exact eq_of_beq hplaced.2

theorem ofUser_replaceAt {e d : HistoryEntry} {place : Nat} (hold : s.entries[place]? = some d)
    (hd : d.userId ≠ user) (he : e.userId ≠ user) : (s.replaceAt place e).ofUser user = s.ofUser user := by
  obtain ⟨hlt, hget⟩ := List.getElem?_eq_some_iff.mp hold
  have hsplit : s.entries = s.entries.take place ++ d :: s.entries.drop (place + 1) := by
    rw [← hget, List.getElem_cons_drop, List.take_append_drop]
  rw [ofUser, ofUser, replaceAt, List.set_eq_take_append_cons_drop, if_pos hlt]
  conv_rhs => rw [hsplit]
  simp [List.filter_append, hd, he]

theorem nodup_grown (hids : (s.entries.map HistoryEntry.id).Nodup) {e : HistoryEntry}
    (hnew : e.id ∉ s.entries.map HistoryEntry.id) : ((s.entries ++ [e]).map HistoryEntry.id).Nodup := by
  rw [List.map_append, List.nodup_append_comm]
  exact List.nodup_cons.mpr ⟨hnew, hids⟩

/-- What does not fit any more is of the scope to which something was added. -/
theorem ofUser_add (hids : (s.entries.map HistoryEntry.id).Nodup) {e : HistoryEntry}
    (hnew : e.id ∉ s.entries.map HistoryEntry.id) (he : e.userId ≠ user) : (s.add e).ofUser user = s.ofUser user := by
  have hgrown := nodup_grown hids hnew
  let grown : HistoryStore := { s with entries := s.entries ++ [e] }
  have hother : ∀ x ∈ grown.entries, x.userId = user → x.id ∉ (grown.overflow e.scope).map HistoryEntry.id := by
    intro x hx huser hdropped
    obtain ⟨y, hy, hid⟩ := List.mem_map.mp hdropped
    have hscope := List.mem_of_mem_drop hy
    rw [(inScope_perm _ _).mem_iff, List.mem_filter] at hscope
    obtain rfl : y = x := List.inj_on_of_nodup_map hgrown hscope.1 hx hid
    have hsame : y.userId = e.userId := congrArg HistoryScope.userId (eq_of_beq hscope.2)
    exact he (hsame.symm.trans huser)
  have hkept : (s.add e).ofUser user = grown.ofUser user := by
    rw [ofUser, ofUser, add, List.filter_filter]
    apply List.filter_congr
    intro x hx
    by_cases huser : x.userId = user
    · simpa [huser] using hother x hx huser
    · simp [huser]
  rw [hkept, ofUser, ofUser, List.filter_append]
  simp [he]

theorem ofUser_delete {id owner : String} {rest : HistoryStore} (hids : (s.entries.map HistoryEntry.id).Nodup)
    (h : s.delete? id owner = some rest) (howner : owner ≠ user) : rest.ofUser user = s.ofUser user := by
  have hrest := entries_delete? hids id owner
  rw [h, Option.getD_some] at hrest
  rw [ofUser, ofUser, hrest, List.filter_filter]
  apply List.filter_congr
  intro x _
  by_cases huser : x.userId = user
  · simp [huser, howner.symm]
  · simp [huser]

end HistoryStore

namespace BlockStore

variable {s : BlockStore} {user : String}

theorem ownedBy_eq (s : BlockStore) (user : String) :
    s.ownedBy user = (s.blocks.filter fun e => e.2.owner == user).map (·.2) := List.filter_map

theorem ownedBy_add {b : ReportBlock} (hnew : b.id ∉ s.blocks.keys) :
    (s.add b).ownedBy user = s.ownedBy user ++ [b].filter fun c => c.owner == user := by
  rw [ownedBy, ownedBy, add, Entries.put_of_not_mem hnew, List.map_append, List.filter_append]
  rfl

theorem ownedBy_delete (hkeys : s.blocks.keys.Nodup) {id owner : String} {rest : BlockStore}
    (h : s.delete? id owner = some rest) (howner : owner ≠ user) : rest.ownedBy user = s.ownedBy user := by
  obtain ⟨b, hget, rfl, rfl⟩ := of_delete? h
  have hkept := Entries.filter_erase hkeys hget (p := fun e => e.2.owner == user) (beq_false_of_ne howner)
  rw [ownedBy_eq, ownedBy_eq, hkept]

end BlockStore

/-! ## Fresh ids -/

namespace Service

variable {σ : Type} {s t : Service σ}

/-- Ids are given once: none is used twice, and none that is used will be given again. -/
structure FreshIds (s : Service σ) : Prop where
  history : (s.history.entries.map HistoryEntry.id).Nodup
  blocks : s.blocks.blocks.keys.Nodup
  unused : ∀ n, s.ids < n → "id" ++ toString n ∉ s.history.entries.map HistoryEntry.id ++ s.blocks.blocks.keys

theorem idText_injective {m n : Nat} (h : "id" ++ toString m = "id" ++ toString n) : m = n := by
  have htexts := congrArg String.toList h
  rw [String.toList_append, String.toList_append, List.append_cancel_left_eq, Nat.toString_eq_repr,
    Nat.toString_eq_repr, Nat.toList_repr, Nat.toList_repr] at htexts
  have hvalues := congrArg Text.digitsValue htexts
  rwa [Text.digitsValue_toDigits, Text.digitsValue_toDigits] at hvalues

theorem FreshIds.quiet (h : s.FreshIds) (hquiet : s.Quiet t) : t.FreshIds := by
  obtain ⟨link, cache, ids, rfl, hids⟩ := hquiet
  exact ⟨h.history, h.blocks, fun n hn => h.unused n (lt_of_le_of_lt hids hn)⟩

theorem FreshIds.nextId_unused (h : s.FreshIds) :
    s.nextId ∉ s.history.entries.map HistoryEntry.id ∧ s.nextId ∉ s.blocks.blocks.keys := by
  have hunused := h.unused (s.ids + 1) (Nat.lt_succ_self _)
  rw [List.mem_append, not_or] at hunused
  exact hunused

theorem FreshIds.withFiles (h : s.FreshIds) (files : Files) : FreshIds { s with files := files } :=
  ⟨h.history, h.blocks, h.unused⟩

/-- No ids are new, or the next one is. -/
theorem FreshIds.change (h : s.FreshIds) {history : HistoryStore} {blocks : BlockStore} {ids : Nat}
    (hhistory : (history.entries.map HistoryEntry.id).Nodup) (hblocks : blocks.blocks.keys.Nodup) (hids : s.ids ≤ ids)
    (hold : ∀ id ∈ history.entries.map HistoryEntry.id ++ blocks.blocks.keys,
      id ∈ s.history.entries.map HistoryEntry.id ++ s.blocks.blocks.keys ∨ (id = s.nextId ∧ s.ids < ids)) :
    FreshIds { s with history := history, blocks := blocks, ids := ids } := by
  refine ⟨hhistory, hblocks, fun n hn hmem => ?_⟩
  rcases hold _ hmem with hmem | ⟨hnext, hlt⟩
  · exact h.unused n (lt_of_le_of_lt hids hn) hmem
  · obtain rfl := idText_injective hnext
    exact absurd hn (not_lt.mpr hlt)

theorem FreshIds.effect (h : s.FreshIds) (c : StoreCommand) : (c.effect s).service.FreshIds := by
  cases c with
  | setDefinitions | setSettings => exact ⟨h.history, h.blocks, h.unused⟩
  | saveHistory scope filters =>
      simp only [StoreCommand.effect]
      split
      · exact h
      · split
        · rename_i e place hfound
          have hids : (s.history.replaceAt place { e with lastUsedAt := s.now }).entries.map HistoryEntry.id =
              s.history.entries.map HistoryEntry.id := by
            have hplace : (s.history.entries.map HistoryEntry.id)[place]? = some e.id := by
              rw [List.getElem?_map, HistoryStore.getElem?_of_find? hfound, Option.map_some]
            obtain ⟨hlt, hid⟩ := List.getElem?_eq_some_iff.mp hplace
            rw [HistoryStore.replaceAt, List.map_set, ← hid, List.set_getElem_self]
          exact h.change (hids ▸ h.history) h.blocks (le_refl _) (hids ▸ fun id hid => .inl hid)
        · let e : HistoryEntry := ⟨s.nextId, scope.userId, scope.database, scope.table, filters, s.now⟩
          have hsub : ((s.history.add e).entries.map HistoryEntry.id).Sublist
              ((s.history.entries ++ [e]).map HistoryEntry.id) := List.filter_sublist.map _
          refine h.change ((HistoryStore.nodup_grown h.history h.nextId_unused.1).sublist hsub) h.blocks
            (Nat.le_succ _) fun id hid => ?_
          rcases List.mem_append.mp hid with hid | hid
          · rw [List.map_append] at hsub
            rcases List.mem_append.mp (hsub.subset hid) with hid | hid
            · exact .inl (List.mem_append_left _ hid)
            · exact .inr ⟨List.mem_singleton.mp hid, Nat.lt_succ_self _⟩
          · exact .inl (List.mem_append_right _ hid)
  | deleteHistory id userId =>
      simp only [StoreCommand.effect]
      split
      · rename_i rest hrest
        obtain ⟨es, hes, rfl⟩ := Option.map_eq_some_iff.mp hrest
        have hsub := (HistoryStore.sublist_of_dropFirst hes).map HistoryEntry.id
        refine h.change (h.history.sublist hsub) h.blocks (le_refl _) fun id hid => .inl ?_
        exact (List.mem_append.mp hid).elim (fun hid => List.mem_append_left _ (hsub.subset hid))
          (List.mem_append_right _)
      · exact h
  | createBlock owner kind title config =>
      simp only [StoreCommand.effect]
      split
      · exact h
      · split
        · exact h.quiet ⟨s.link, s.cache, s.ids + 1, rfl, Nat.le_succ _⟩
        · rename_i b hb
          have hid : b.id = s.nextId := (ReportBlock.of_ofParts hb).1
          have hkeys : (s.blocks.add b).blocks.keys = s.blocks.blocks.keys ++ [s.nextId] := by
            rw [BlockStore.add, hid, Entries.keys_put_of_not_mem h.nextId_unused.2]
          refine h.change h.history (Entries.nodup_put h.blocks _ _) (Nat.le_succ _) fun id hmem => ?_
          rw [hkeys, ← List.append_assoc] at hmem
          rcases List.mem_append.mp hmem with hmem | hmem
          · exact .inl hmem
          · exact .inr ⟨List.mem_singleton.mp hmem, Nat.lt_succ_self _⟩
  | deleteBlock id owner =>
      simp only [StoreCommand.effect]
      split
      · rename_i rest hrest
        obtain ⟨-, -, -, rfl⟩ := BlockStore.of_delete? hrest
        have hsub : (s.blocks.blocks.erase id).keys.Sublist s.blocks.blocks.keys := List.filter_sublist.map _
        refine h.change h.history (Entries.nodup_filter h.blocks _) (le_refl _) fun id hmem => .inl ?_
        exact (List.mem_append.mp hmem).elim (List.mem_append_left _)
          fun hmem => List.mem_append_right _ (hsub.subset hmem)
      · exact h

/-! ## Operations -/

/-- An operation that has an owner leaves definitions and settings alone. -/
theorem shared_effect {c : StoreCommand} (h : c.owner? ≠ none) (s : Service σ) :
    (c.effect s).service.definitions = s.definitions ∧ (c.effect s).service.settings = s.settings := by
  cases c with
  | setDefinitions | setSettings => exact absurd rfl h
  | _ =>
      simp only [StoreCommand.effect]
      (repeat' split) <;> exact ⟨rfl, rfl⟩

variable {user : String}

theorem history_effect (h : s.FreshIds) {c : StoreCommand} (hother : c.owner? ≠ some (.text user)) :
    (c.effect s).service.history.ofUser user = s.history.ofUser user := by
  cases c with
  | saveHistory scope filters =>
      have hscope : scope.userId ≠ user := fun h => hother (by rw [StoreCommand.owner?, h])
      simp only [StoreCommand.effect]
      split
      · rfl
      · split
        · rename_i e place hfound
          have he : e.userId ≠ user := by
            rw [← HistoryStore.scope_of_find? hfound] at hscope
            exact hscope
          exact HistoryStore.ofUser_replaceAt (HistoryStore.getElem?_of_find? hfound) he he
        · exact HistoryStore.ofUser_add h.history h.nextId_unused.1 hscope
  | deleteHistory id owner =>
      simp only [StoreCommand.effect]
      split
      · rename_i rest hrest
        exact HistoryStore.ofUser_delete h.history hrest fun h => hother (by rw [StoreCommand.owner?, h])
      · rfl
  | _ =>
      simp only [StoreCommand.effect]
      (repeat' split) <;> rfl

theorem blocks_effect (h : s.FreshIds) {c : StoreCommand} (hother : c.owner? ≠ some (.text user)) :
    (c.effect s).service.blocks.ownedBy user = s.blocks.ownedBy user := by
  cases c with
  | createBlock owner kind title config =>
      simp only [StoreCommand.effect]
      split
      · rfl
      · split
        · rfl
        · rename_i b hb
          obtain ⟨hid, howner, -⟩ := ReportBlock.of_ofParts hb
          have hne : b.owner ≠ user := fun hb => hother (by rw [StoreCommand.owner?, howner, hb])
          refine (BlockStore.ownedBy_add (hid ▸ h.nextId_unused.2)).trans ?_
          simp [hne]
  | deleteBlock id owner =>
      simp only [StoreCommand.effect]
      split
      · rename_i rest hrest
        exact BlockStore.ownedBy_delete h.blocks hrest fun h => hother (by rw [StoreCommand.owner?, h])
      · rfl
  | _ =>
      simp only [StoreCommand.effect]
      (repeat' split) <;> rfl

end Service

end TableSteward

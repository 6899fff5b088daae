import TableSteward.Proofs.Ownership
import TableSteward.Proofs.StoreFaults

/-!
# Blocks of others

What a user finds, gets and deletes among the blocks depends on the blocks of this user only, and leaves those of others
where they are.  Two services that differ in the blocks of others and in the files stay so under the operations of the
user; these have the same outcomes if the blocks of others can be written.
-/
set_option autoImplicit false

namespace TableSteward

namespace BlockStore

variable {s t : BlockStore} {user : String}

/-- The blocks of everyone else, under their ids. -/
def others (s : BlockStore) (user : String) : Entries ReportBlock := s.blocks.filter fun e => e.2.owner != user

/-! ## What a user finds -/

theorem Keyed.mem_ownedBy (h : s.Keyed) (b : ReportBlock) :
    b ∈ s.ownedBy user ↔ s.get b.id = some b ∧ b.owner = user := by
  rw [ownedBy, List.mem_filter, List.mem_map, beq_iff_eq, get, ← Entries.mem_iff_get? h.keys]
  refine and_congr_left fun _ => ⟨?_, fun hmem => ⟨_, hmem, rfl⟩⟩
  rintro ⟨e, he, rfl⟩
  rwa [← h.ids e he]

/-- A block of the user is found among the blocks of the user. -/
theorem Keyed.get_filter (h : s.Keyed) (id : String) :
    (s.get id).filter (·.owner == user) = (s.ownedBy user).find? (·.id == id) := by
  apply Option.ext
  intro b
  rw [Option.filter_eq_some_iff, beq_iff_eq]
  constructor
  · rintro ⟨hget, howner⟩
    have hid : id = b.id := h.ids (id, b) (Entries.mem_of_get? hget)
    have hfound : ((s.ownedBy user).find? (·.id == id)).isSome := by
      rw [List.find?_isSome]
      exact ⟨b, (h.mem_ownedBy b).mpr ⟨hid ▸ hget, howner⟩, beq_iff_eq.mpr hid.symm⟩
    obtain ⟨c, hc⟩ := Option.isSome_iff_exists.mp hfound
    have hmatch := List.find?_some hc
    have hcid : c.id = id := eq_of_beq hmatch
    have hcget := ((h.mem_ownedBy c).mp (List.mem_of_find?_eq_some hc)).1
    have hsame : s.get id = some c := hcid ▸ hcget
    rw [hc, ← hsame, hget]
  · intro hfound
    have hmatch := List.find?_some hfound
    have hid : b.id = id := eq_of_beq hmatch
    exact hid ▸ (h.mem_ownedBy b).mp (List.mem_of_find?_eq_some hfound)

theorem get_filter_congr (hs : s.Keyed) (ht : t.Keyed) (hsame : t.ownedBy user = s.ownedBy user) (id : String) :
    (t.get id).filter (·.owner == user) = (s.get id).filter (·.owner == user) := by
  rw [ht.get_filter, hs.get_filter, hsame]

theorem ownedBlock_eq (blocks : BlockStore) (r : Requester) (id : String) :
    Reporter.ownedBlock blocks r id =
      match (blocks.get id).filter (·.owner == r.user.id) with
      | some b => .ok b
      | none => refuse .blockNotFound := by
  rw [Reporter.ownedBlock]
  cases blocks.get id with
  | none => rfl
  | some b =>
      simp only [Option.filter_some]
      cases b.owner == r.user.id <;> rfl

/-! ## What a user changes -/

theorem others_add {b : ReportBlock} (hnew : b.id ∉ s.blocks.keys) (hb : b.owner = user) :
    (s.add b).others user = s.others user := by
  rw [others, others, add, Entries.put_of_not_mem hnew, List.filter_append]
  simp [hb]

theorem others_delete (hkeys : s.blocks.keys.Nodup) {id : String} {rest : BlockStore}
    (h : s.delete? id user = some rest) : rest.others user = s.others user := by
  obtain ⟨b, hget, howner, rfl⟩ := of_delete? h
  exact Entries.filter_erase hkeys hget (by simp [howner])

theorem Keyed.ownedBy_delete_own (h : s.Keyed) (id : String) :
    (⟨s.blocks.erase id⟩ : BlockStore).ownedBy user = (s.ownedBy user).filter (·.id != id) := by
  rw [ownedBy, ownedBy, Entries.erase, List.filter_map, List.filter_map, List.filter_map, List.filter_filter,
    List.filter_filter]
  congr 1
  apply List.filter_congr
  intro e he
  rw [Function.comp_apply, Function.comp_apply, h.ids e he, Bool.and_comm]

/-! ## What can be written -/

theorem encodable_iff (s : BlockStore) (user : String) : s.toValue.encodable = true ↔
    (∀ b ∈ s.ownedBy user, (Value.dict b.config).encodable = true) ∧
      ∀ e ∈ s.others user, (Value.dict e.2.config).encodable = true := by
  have hparts : (∀ e ∈ s.blocks, (Value.dict e.2.config).encodable = true) ↔
      (∀ b ∈ s.ownedBy user, (Value.dict b.config).encodable = true) ∧
        ∀ e ∈ s.others user, (Value.dict e.2.config).encodable = true := by
    simp only [ownedBy, others, List.mem_filter, List.mem_map, beq_iff_eq, bne_iff_ne]
    constructor
    · intro h
      refine ⟨?_, fun e he => h e he.1⟩
      rintro b ⟨⟨e, he, rfl⟩, -⟩
      exact h e he
    · intro h e he
      by_cases howner : e.2.owner = user
      · exact h.1 e.2 ⟨⟨e, he, rfl⟩, howner⟩
      · exact h.2 e ⟨he, howner⟩
  rw [encodable_toValue, List.all_eq_true, ← hparts]

end BlockStore

/-! ## Two services -/

namespace Service

variable {σ : Type} {s t : Service σ} {user : String}

/-- Two services that hold the same blocks of a user in the same order, and differ at most in the blocks of others and
in the files. -/
structure Secluded (user : String) (s t : Service σ) : Prop where
  same : t = { s with blocks := t.blocks, files := t.files }
  own : t.blocks.ownedBy user = s.blocks.ownedBy user
  left : s.FreshIds ∧ s.blocks.Keyed
  right : t.FreshIds ∧ t.blocks.Keyed

/-- The blocks of others can be written. -/
def OthersEncodable (s : Service σ) (user : String) : Prop :=
  ∀ e ∈ s.blocks.others user, (Value.dict e.2.config).encodable = true

instance (s : Service σ) (user : String) : Decidable (s.OthersEncodable user) :=
  inferInstanceAs (Decidable (∀ e ∈ s.blocks.others user, (Value.dict e.2.config).encodable = true))

theorem OthersEncodable.of_others (hs : s.OthersEncodable user) (h : t.blocks.others user = s.blocks.others user) :
    t.OthersEncodable user := by
  rwa [OthersEncodable, h]

theorem Secluded.nextId (h : Secluded user s t) : t.nextId = s.nextId := by
  rw [h.same]
  rfl

/-- Two effects with the same answer. -/
inductive SecludedEffects (user : String) : StoreEffect σ → StoreEffect σ → Prop
  | answered (r : Result StoreAnswer) {s t : Service σ} (h : Secluded user s t) :
      SecludedEffects user (.answered r s) (.answered r t)
  | changed (a : StoreAnswer) {s t : Service σ} (h : Secluded user s t) :
      SecludedEffects user (.changed a s) (.changed a t)

theorem Secluded.effect (h : Secluded user s t) {c : StoreCommand} (hstore : c.store = .blocks)
    (howner : c.owner? = some (.text user)) : SecludedEffects user (c.effect s) (c.effect t) := by
  have hleft := And.intro (h.left.1.effect c) (keyed_effect h.left.2 c)
  have hright := And.intro (h.right.1.effect c) (keyed_effect h.right.2 c)
  have hsame := h.same
  cases c with
  | createBlock owner kind title config =>
      cases hkind : BlockStore.allowKind kind with
      | error f =>
          simp only [StoreCommand.effect, hkind]
          exact .answered _ h
      | ok k =>
          cases hb : ReportBlock.ofParts s.nextId owner kind title config with
          | error f =>
              simp only [StoreCommand.effect, hkind, hb, h.nextId, StoreEffect.service_answered] at hleft hright ⊢
              exact .answered _ ⟨by rw [hsame], h.own, hleft, hright⟩
          | ok b =>
              simp only [StoreCommand.effect, hkind, hb, h.nextId, StoreEffect.service_changed] at hleft hright ⊢
              have hid := (ReportBlock.of_ofParts hb).1
              refine .changed _ ⟨by rw [hsame], ?_, hleft, hright⟩
              rw [BlockStore.ownedBy_add (hid ▸ h.nextId ▸ h.right.1.nextId_unused.2),
                BlockStore.ownedBy_add (hid ▸ h.left.1.nextId_unused.2), h.own]
  | deleteBlock id owner =>
      obtain rfl : owner = user := Value.text.inj (Option.some.inj howner)
      have hfound := BlockStore.get_filter_congr h.left.2 h.right.2 h.own id
      have hdelete := BlockStore.delete?_eq s.blocks id owner
      have hdelete' := BlockStore.delete?_eq t.blocks id owner
      rw [hfound] at hdelete'
      cases hget : (s.blocks.get id).filter (·.owner == owner) with
      | none =>
          rw [hget, Option.map_none] at hdelete hdelete'
          simp only [StoreCommand.effect, hdelete, hdelete']
          exact .answered _ h
      | some b =>
          rw [hget, Option.map_some] at hdelete hdelete'
          simp only [StoreCommand.effect, hdelete, hdelete', StoreEffect.service_changed] at hleft hright ⊢
          refine .changed _ ⟨by rw [hsame], ?_, hleft, hright⟩
          rw [h.right.2.ownedBy_delete_own, h.left.2.ownedBy_delete_own, h.own]
  | _ => cases hstore

/-- What the operation changes is no block of another user. -/
theorem others_effect (h : s.FreshIds) {c : StoreCommand} (howner : c.owner? = some (.text user) ∨ c.owner? = none) :
    (c.effect s).service.blocks.others user = s.blocks.others user := by
  cases c with
  | createBlock owner kind title config =>
      simp only [StoreCommand.effect]
      split
      · rfl
      · split
        · rfl
        · rename_i b hb
          obtain ⟨hid, hparts, -⟩ := ReportBlock.of_ofParts hb
          have howned : some owner = some (.text user) := howner.resolve_right (Option.some_ne_none _)
          exact BlockStore.others_add (hid ▸ h.nextId_unused.2)
            (Value.text.inj (hparts.symm.trans (Option.some.inj howned)))
  | deleteBlock id owner =>
      simp only [StoreCommand.effect]
      split
      · rename_i rest hrest
        have howned : some (Value.text owner) = some (.text user) := howner.resolve_right (Option.some_ne_none _)
        obtain rfl : owner = user := Value.text.inj (Option.some.inj howned)
        exact BlockStore.others_delete h.blocks hrest
      · rfl
  | _ =>
      simp only [StoreCommand.effect]
      (repeat' split) <;> rfl

/-- The same is written or fails to be, if the blocks of others can be written. -/
theorem Secluded.written (h : Secluded user s t) (a : StoreAnswer) :
    Secluded user (StoreKind.blocks.written a s).2 (StoreKind.blocks.written a t).2 ∧
      (s.OthersEncodable user → t.OthersEncodable user →
        (StoreKind.blocks.written a t).1 = (StoreKind.blocks.written a s).1) := by
  constructor
  · have hleft := StoreKind.blocks.written_snd a s
    have hright := StoreKind.blocks.written_snd a t
    rw [hleft, hright]
    exact ⟨by rw [h.same], h.own, ⟨h.left.1.withFiles _, h.left.2⟩, ⟨h.right.1.withFiles _, h.right.2⟩⟩
  · intro hs ht
    have hwritable : t.writable = s.writable := by rw [h.same]
    have hencodable : t.blocks.toValue.encodable = s.blocks.toValue.encodable := by
      rw [Bool.eq_iff_iff, t.blocks.encodable_iff user, s.blocks.encodable_iff user, h.own]
      exact and_congr_right fun _ => iff_of_true ht hs
    rw [StoreKind.written_fst, StoreKind.written_fst, StoreKind.document, StoreKind.document, hwritable, hencodable]

/-- An operation on the blocks is answered at once or changes them. -/
theorem blocks_of_changed (h : s.FreshIds) {c : StoreCommand} (hstore : c.store = .blocks) {a : StoreAnswer}
    {u : Service σ} (heffect : c.effect s = .changed a u) : u.blocks ≠ s.blocks := by
  intro hsame
  cases c with
  | createBlock owner kind title config =>
      simp only [StoreCommand.effect] at heffect
      split at heffect
      · cases heffect
      · split at heffect
        · cases heffect
        · rename_i b hb
          cases heffect
          have hnew : b.id ∉ s.blocks.blocks.keys := (ReportBlock.of_ofParts hb).1 ▸ h.nextId_unused.2
          have hlength := congrArg (fun b => b.blocks.length) hsame
          simp [BlockStore.add, Entries.put_of_not_mem hnew] at hlength
  | deleteBlock id owner =>
      simp only [StoreCommand.effect] at heffect
      split at heffect
      · rename_i rest hrest
        cases heffect
        obtain rfl : rest = s.blocks := hsame
        obtain ⟨b, hget, -, herased⟩ := BlockStore.of_delete? hrest
        have hkept : s.blocks.blocks.erase id = s.blocks.blocks := congrArg BlockStore.blocks herased.symm
        have hmissing := Entries.get?_erase h.blocks id id
        rw [hkept, if_pos rfl, hget] at hmissing
        cases hmissing
      · cases heffect
  | _ => cases hstore

/-- Two runs on such services: they lead to such services again, and come to the same if the first changes no block, or
if the blocks of others can be written. -/
structure Secludes {α : Type} (user : String) (s t : Service σ) (run run' : Result α × Service σ) : Prop where
  after : Secluded user run.2 run'.2
  unchanged : run.2.blocks = s.blocks → run'.1 = run.1
  encodable : s.OthersEncodable user → t.OthersEncodable user → run'.1 = run.1

/-- What comes before and leaves the blocks alone makes no difference. -/
theorem Secludes.before {α : Type} {u v : Service σ} {run run' : Result α × Service σ}
    (h : Secludes user u v run run') (hs : u.blocks = s.blocks) (ht : v.blocks = t.blocks) :
    Secludes user s t run run' := by
  refine ⟨h.after, fun hblocks => h.unchanged (hblocks.trans hs.symm), fun hes het => ?_⟩
  exact h.encodable (hes.of_others (by rw [hs])) (het.of_others (by rw [ht]))

theorem Secluded.perform (h : Secluded user s t) {c : StoreCommand} (hstore : c.store = .blocks)
    (howner : c.owner? = some (.text user)) : Secludes user s t (c.perform.runOn s) (c.perform.runOn t) := by
  have heffects := h.effect hstore howner
  have hothers := others_effect h.left.1 (.inl howner)
  have hothers' := others_effect h.right.1 (.inl howner)
  have hchanged : ∀ a u, c.effect s = .changed a u → u.blocks ≠ s.blocks :=
    fun _ _ => blocks_of_changed h.left.1 hstore
  rw [c.runOn_perform, c.runOn_perform, hstore]
  generalize c.effect s = effect at heffects hothers hchanged
  generalize c.effect t = effect' at heffects hothers'
  cases heffects with
  | answered r hafter => exact ⟨hafter, fun _ => rfl, fun _ _ => rfl⟩
  | @changed a u v hafter =>
      obtain ⟨hwritten, hsame⟩ := hafter.written a
      refine ⟨hwritten, fun hblocks => ?_, fun hs ht => hsame (hs.of_others hothers) (ht.of_others hothers')⟩
      have hkept := StoreKind.blocks.written_snd a u
      dsimp only at hblocks
      rw [hkept] at hblocks
      exact absurd hblocks (hchanged a u rfl)

end Service

end TableSteward

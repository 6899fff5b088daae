import TableSteward.Proofs.Answer
import TableSteward.Proofs.Wording

/-!
# Clearance

Rows are read from tables that the catalog has, that a restricted requester was granted, and that are not hidden
from the requester, except in reports.  A request for any other table ends in a fault before it reads a row.
-/
set_option autoImplicit false

namespace TableSteward

open Exchange

/-! ## Keys that are texts -/

theorem Value.eq_of_sameKey_text {v : Value} {s : String} (h : v.sameKey (.text s) = true) :
    v = .text s := by
  cases v with
  | text a =>
      have hs : (a == s) = true := h
      rw [eq_of_beq hs]
  | real x => cases x <;> exact nomatch h
  | decimal x => cases x <;> exact nomatch h
  | _ => exact nomatch h

theorem Gate.mem_of_isGranted {g : Gate} {database fullName : String}
    (h : g.isGranted database fullName = true) : ⟨.text database, fullName⟩ ∈ g.grants := by
  obtain ⟨⟨stored, table⟩, hmem, hkeys⟩ := List.any_eq_true.mp h
  obtain ⟨hdatabase, htable⟩ := Bool.and_eq_true_iff.mp hkeys
  obtain rfl := Value.eq_of_sameKey_text hdatabase
  obtain rfl : table = fullName := eq_of_beq htable
  exact hmem

/-! ## Statements and their tables -/

theorem Statement.Over.plan? {s : Statement} {p : JoinPlan} {primaryKey : List Value}
    (h : s.Over p primaryKey) : s.plan? = some p := by
  cases s with
  | count q | page q _ | declareCursor q =>
      cases q with
      | table q => exact congrArg some h.1
      | given _ => exact False.elim h
  | chart q | metric q => exact congrArg some h.1
  | _ => exact False.elim h

/-! ## Open tables -/

namespace Desk

variable (d : Desk) (r : Requester)

/-- The role of the requester is restricted, or the policy does not define it. -/
def Confines : Prop := ∀ role, d.policy.roles.get? r.user.role = some role → role.tier = .restricted

def Unveils : Prop := ∃ role, d.policy.roles.get? r.user.role = some role ∧ role.seesHidden = true

/-- What has to hold of a table before a request reads its rows. -/
structure Opens (q : Request) (js : List Entry) (database : String) (t : TableRef) : Prop where
  found : Found js database t
  granted : d.Confines r → ⟨.text database, t.fullName⟩ ∈ r.grants
  shown : (∀ id page, q ≠ .block id page) → d.Unveils r ∨
    ∀ settings, d.settings.get database t.fullName = some settings → settings.isVisible = true

variable {d : Desk} {r : Requester} {q : Request} {w : Errand} {js : List Entry}

theorem gate_of_errand (h : d.errand? r q = some w) :
    w.gate.policy = d.policy ∧ w.gate.user = r.user ∧ w.gate.grants = r.grants ∧
      ((∀ id page, q ≠ .block id page) →
        w.bypass = false ∧ w.gate.visible = some d.settings.isVisible) := by
  cases q with
  | tables _ => exact nomatch h
  | columns _ _ | rows _ _ | exportCheck _ | exportPage _ _ _ | exportAll _ _ =>
      cases h
      exact ⟨rfl, rfl, rfl, fun _ => ⟨rfl, rfl⟩⟩
  | block id page =>
      obtain ⟨s, -, rfl⟩ := Option.map_eq_some_iff.mp h
      exact ⟨rfl, rfl, rfl, fun hblock => absurd rfl (hblock id page)⟩

theorem restricted_of_confines {g : Gate} (hpolicy : g.policy = d.policy) (huser : g.user = r.user)
    (h : d.Confines r) : g.role.tier = .restricted := by
  unfold Gate.role Policy.role
  rw [hpolicy, huser]
  cases hrole : d.policy.roles.get? r.user.role with
  | none => rfl
  | some role => exact h role hrole

theorem unveils_of_seesHidden {g : Gate} (hpolicy : g.policy = d.policy) (huser : g.user = r.user)
    (h : g.role.seesHidden = true) : d.Unveils r := by
  unfold Gate.role Policy.role at h
  rw [hpolicy, huser] at h
  cases hrole : d.policy.roles.get? r.user.role with
  | none =>
      rw [hrole] at h
      exact nomatch h
  | some role =>
      rw [hrole] at h
      exact ⟨role, hrole, h⟩

theorem opens_of_clears {t : TableRef} (herrand : d.errand? r q = some w) (h : w.Clears js t) :
    d.Opens r q js w.database t := by
  obtain ⟨hpolicy, huser, hgrants, hbrowsed⟩ := gate_of_errand herrand
  refine ⟨h.found, ?_, ?_⟩
  · intro hconfined
    have hread := h.readable
    unfold Gate.mayRead at hread
    rw [restricted_of_confines hpolicy huser hconfined] at hread
    rw [← hgrants]
    exact Gate.mem_of_isGranted hread
  · intro hblock
    obtain ⟨hbypass, hvisible⟩ := hbrowsed hblock
    have hsee : w.gate.maySee w.database t.fullName = true := by
      rcases h.visible with h | h
      · exact absurd h (by simp [hbypass])
      · exact h
    unfold Gate.maySee at hsee
    rw [hvisible] at hsee
    rcases Bool.or_eq_true_iff.mp hsee with hrole | hshown
    · exact Or.inl (unveils_of_seesHidden hpolicy huser hrole)
    · right
      intro settings hget
      have hvisible : d.settings.isVisible w.database t.fullName = true := hshown
      unfold SettingsStore.isVisible at hvisible
      rw [hget] at hvisible
      exact hvisible

/-! ## Runs of requests -/

variable {σ : Type} [Server σ]

/-- Every data statement of a request is about the tables that the request names, which were all open when it
was executed; and a request with a table that is not open fails without a data statement. -/
theorem reads_only_open_tables (d : Desk) (r : Requester) (q : Request) (l : Link σ) :
    Accounted
      (fun earlier c s => s.isData = true →
        ∃ w p, d.errand? r q = some w ∧ c.site = .browsed w.database ∧ s.ReadsFrom p ∧
          List.Forall₂ (fun name t => TableRef.ofText name = .ok t.ref) w.names p.tables ∧
          ∀ t ∈ p.tables, d.Opens r q earlier w.database t.ref)
      (d.journal r q l) ∧
    ∀ w name, d.errand? r q = some w → name ∈ w.names →
      (∀ t, TableRef.ofText name = .ok t → ¬ d.Opens r q (d.journal r q l) w.database t) →
      (∃ f, ((d.answer r q).runOn l).1 = .error f) ∧
        ∀ e ∈ d.journal r q l, ∀ c s, e.call = .execute c s → s.isData = false := by
  constructor
  · intro earlier e later c s hsplit hcall htelling hdata
    cases herrand : d.errand? r q with
    | none =>
        have hnothing := d.accounted_journal_without_errand r herrand l
        exact False.elim (hnothing earlier e later c s hsplit hcall htelling)
    | some w =>
        have hallows := d.accounted_journal r herrand l earlier e later c s hsplit hcall htelling
        obtain ⟨p, key, hgrounds, -, hover⟩ := hallows.data hdata
        refine ⟨w, p, rfl, hallows.site, Statement.readsFrom_of_plan? hover.plan?, hgrounds.named, ?_⟩
        intro t ht
        exact opens_of_clears herrand (hgrounds.admitted t ht).clears
  · intro w name herrand hname hclosed
    have hbarred : ∀ js, js <+: d.journal r q l → ¬ w.Cleared js := by
      intro js hpre hcleared
      obtain ⟨t, hparse, ht⟩ := hcleared name hname
      exact hclosed t hparse (opens_of_clears herrand (ht.mono hpre))
    constructor
    · cases hresult : ((d.answer r q).runOn l).1 with
      | error f => exact ⟨f, rfl⟩
      | ok reply =>
          have hcleared := d.cleared_of_answer r herrand hresult
          exact absurd hcleared (hbarred _ (List.prefix_refl _))
    · intro e he c s hcall
      by_contra hs
      have hdata : s.isData = true := by simpa using hs
      obtain ⟨earlier, later, hsplit⟩ := List.append_of_mem he
      have hallows := d.accounted_journal r herrand l earlier e later c s hsplit hcall
        (Statement.isTelling_of_isData hdata)
      obtain ⟨p, key, hgrounds, -⟩ := hallows.data hdata
      exact hbarred earlier (hsplit ▸ List.prefix_append earlier _) hgrounds.cleared

end Desk

end TableSteward

import TableSteward.Proofs.Handler
import TableSteward.Proofs.ReadOnly

/-!
# Who asks

A request is let in for the active user that it names, and to the routes of administrators if the role of this user is
elevated.  To find that out the application database may be asked, and no other; nothing else happens on the way in.
-/
set_option autoImplicit false

namespace TableSteward

/-! ## Questions to the application database -/

section Questions

variable {σ : Type}

/-- Of the databases only that of the application was asked. -/
def Link.Inquires (l m : Link σ) : Prop :=
  ∃ events, m.trace = events ++ l.trace ∧ ∀ c st, Event.executed c st ∈ events → c.site = .application

theorem Link.Inquires.refl (l : Link σ) : l.Inquires l := ⟨[], rfl, fun _ _ h => nomatch h⟩

theorem Link.Inquires.trans {l m n : Link σ} (h : l.Inquires m) (h' : m.Inquires n) : l.Inquires n := by
  obtain ⟨events, htrace, hsites⟩ := h
  obtain ⟨events', htrace', hsites'⟩ := h'
  refine ⟨events' ++ events, by rw [htrace', htrace, List.append_assoc], fun c st hmem => ?_⟩
  exact (List.mem_append.mp hmem).elim (hsites' c st) (hsites c st)

namespace Service

variable {s t u : Service σ}

def Inquired (s t : Service σ) : Prop := ∃ link, t = { s with link := link } ∧ s.link.Inquires link

theorem Inquired.refl (s : Service σ) : s.Inquired s := ⟨s.link, rfl, .refl _⟩

theorem Inquired.trans (h : s.Inquired t) (h' : t.Inquired u) : s.Inquired u := by
  obtain ⟨link, rfl, hlink⟩ := h
  obtain ⟨link', rfl, hlink'⟩ := h'
  exact ⟨link', rfl, hlink.trans hlink'⟩

theorem Inquired.quiet (h : s.Inquired t) : s.Quiet t := by
  obtain ⟨link, rfl, -⟩ := h
  exact .withLink s link

end Service

variable [Server σ]

theorem Exchange.inquires_execute (task : FailedTask) (st : Statement) (l : Link σ) :
    l.Inquires ((reporting task (onConnection .application fun c => execute c st)).runOn l).2 := by
  simp only [runOn_reporting, runOn_onConnection, connect, execute, runOn_bind, runOn_get, runOn_discard, runOn_ask,
    runOn_note]
  cases (Server.answer l.server (.connect ⟨l.connections + 1, .application⟩)).1 with
  | none => exact ⟨[], rfl, fun _ _ h => absurd h List.not_mem_nil⟩
  | some rows =>
      refine ⟨[_, _, _], rfl, fun c st hmem => ?_⟩
      simp only [List.mem_cons, List.not_mem_nil, reduceCtorEq, Event.executed.injEq, false_or, or_false] at hmem
      rw [hmem.1]

theorem StoredDirectory.inquires_user? (id : String) (l : Link σ) : l.Inquires ((user? id).runOn l).2 := by
  have hasked := Exchange.inquires_execute .loadUser (.userById id) l
  rw [user?, Exchange.runOn_bind]
  rcases hrun : (Exchange.reporting .loadUser <| Exchange.onConnection .application fun c =>
    Exchange.execute c (.userById id)).runOn l with ⟨f | rows, m⟩ <;> rw [hrun] at hasked
  · exact hasked
  · cases rows with
    | nil => exact hasked
    | cons row rows =>
        simp only [map_eq_pure_bind, Exchange.runOn_bind]
        cases userOfRow row <;> exact hasked

theorem StoredDirectory.inquires_grantsFor (id : String) (l : Link σ) : l.Inquires ((grantsFor id).runOn l).2 := by
  have hasked := Exchange.inquires_execute .loadGrants (.grantsOf id) l
  rw [grantsFor, Exchange.runOn_bind]
  rcases hrun : (Exchange.reporting .loadGrants <| Exchange.onConnection .application fun c =>
    Exchange.execute c (.grantsOf id)).runOn l with ⟨f | rows, m⟩ <;> rw [hrun] at hasked
  · exact hasked
  · simp only [Exchange.runOn_bind]
    cases rows.mapM grantOfRow <;> exact hasked

namespace Service

theorem inquired_user? (id : String) (s : Service σ) : s.Inquired ((user? id).runOn s).2 := by
  simp only [user?, Action.runOn_bind, Action.runOn_get]
  split
  · rw [Action.runOn_onLink]
    exact ⟨_, rfl, StoredDirectory.inquires_user? id s.link⟩
  · exact .refl s

theorem inquired_grantsFor (id : String) (s : Service σ) : s.Inquired ((grantsFor id).runOn s).2 := by
  simp only [grantsFor, Action.runOn_bind, Action.runOn_get]
  split
  · rw [Action.runOn_onLink]
    exact ⟨_, rfl, StoredDirectory.inquires_grantsFor id s.link⟩
  · exact .refl s

/-! ## The requester -/

/-- The user that a request names, if there is one and it is active. -/
def requester? (s : Service σ) (r : Http.Request) : Option User :=
  match r.user.filter (!·.isEmpty) with
  | none => none
  | some id =>
      match ((user? id).runOn s).1 with
      | .ok (some u) => if u.active then some u else none
      | _ => none

def isElevated (s : Service σ) (u : User) : Bool :=
  match s.policy.lookUp u.role with
  | .ok role => role.tier == .elevated
  | .error _ => false

end Service

namespace Http

open Handler

/-- What comes of the question who asks: only the application database was asked, and whoever is let in fits. -/
structure Admits (s : Service σ) (admitted : Requester → Prop)
    (run : Result (Except Response Requester) × Service σ) : Prop where
  inquired : s.Inquired run.2
  fits : ∀ q, run.1 = .ok (.ok q) → admitted q

theorem admits_requester (r : Request) (s : Service σ) :
    Admits s (fun q => s.requester? r = some q.user) (r.requester.runOn s) := by
  unfold Request.requester Service.requester?
  cases r.user.filter (!·.isEmpty) with
  | none => exact ⟨.refl s, nofun⟩
  | some id =>
      have hasked := Service.inquired_user? id s
      simp only [activeUser, runOn_bind, runOn_act]
      rcases hrun : (Service.user? id).runOn s with ⟨f | found, t⟩ <;> rw [hrun] at hasked
      · exact ⟨hasked, nofun⟩
      · cases found with
        | none => exact ⟨hasked, nofun⟩
        | some u =>
            simp only [Except.map]
            split
            · have hgrants := Service.inquired_grantsFor u.id t
              simp only [runOn_pure]
              rcases hrun' : (Service.grantsFor u.id).runOn t with ⟨f | grants, v⟩ <;> rw [hrun'] at hgrants
              · exact ⟨hasked.trans hgrants, nofun⟩
              · refine ⟨hasked.trans hgrants, fun q hq => ?_⟩
                cases hq
                rfl
            · exact ⟨hasked, nofun⟩

theorem admits_admin (r : Request) (s : Service σ) :
    Admits s (fun q => s.requester? r = some q.user ∧ s.isElevated q.user = true) (r.admin.runOn s) := by
  obtain ⟨hasked, hfits⟩ := admits_requester r s
  rw [Request.admin, runOn_bind]
  rcases hrun : r.requester.runOn s with ⟨f | ⟨resp | q⟩, t⟩ <;> rw [hrun] at hasked hfits
  · exact ⟨hasked, nofun⟩
  · exact ⟨hasked, nofun⟩
  · have hpolicy : t.policy = s.policy := by
      obtain ⟨link, rfl, -⟩ := hasked
      rfl
    simp only [runOn_bind, runOn_state, runOn_lift, hpolicy]
    cases hrole : s.policy.lookUp q.user.role with
    | error f => exact ⟨hasked, nofun⟩
    | ok role =>
        simp only [Except.map]
        split
        · rename_i htier
          refine ⟨hasked, fun q' hq => ?_⟩
          cases hq
          exact ⟨hfits q rfl, by simp only [Service.isElevated, hrole, htier]⟩
        · exact ⟨hasked, nofun⟩

end Http

end Questions

end TableSteward

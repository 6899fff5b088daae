import TableSteward.Proofs.Requester
import TableSteward.Proofs.StoreCommand

/-!
# What endpoints do to the stores

An endpoint lets its requester in and is then quiet, or it performs one operation of the stores: for its requester, or
for nobody in particular if it is a route of administrators.  Once a store has changed, the request is not declined any
more.  `lawful_endpoints` goes through all endpoints.
-/
set_option autoImplicit false

namespace TableSteward

open Http

/-- Whose entries an operation changes.  Definitions and settings are nobody's. -/
def StoreCommand.owner? : StoreCommand → Option Value
  | setDefinitions .. | setSettings .. => none
  | saveHistory scope _ => some (.text scope.userId)
  | deleteHistory _ userId => some (.text userId)
  | createBlock owner .. => some owner
  | deleteBlock _ owner => some (.text owner)

theorem StoreCommand.quiet_of_answered {σ : Type} {c : StoreCommand} {s t : Service σ} {r : Result StoreAnswer}
    (h : c.effect s = .answered r t) : s.Quiet t := by
  refine ⟨s.link, s.cache, t.ids, service_of_answered h, ?_⟩
  have hids := c.ids_effect s
  rwa [h] at hids

namespace Http

variable {σ : Type}

/-! ## Conduct -/

/-- What the client gets: refusals are answered, any other fault is not. -/
def settled : Result (Except Response Response) → Result Response
  | .ok (.ok response) | .ok (.error response) => .ok response
  | .error (.refused refusal) => .ok (.ofRefusal refusal)
  | .error f => .error f

def Declines (outcome : Result (Except Response Response)) : Prop :=
  ∃ response, settled outcome = .ok response ∧ 400 ≤ response.status

/-- The stores are left alone, or one operation has changed its store and the request was not declined. -/
inductive Conduct (C : StoreCommand → Prop) (s : Service σ) :
    Result (Except Response Response) × Service σ → Prop
  | quiet {outcome : Result (Except Response Response)} {t : Service σ} (h : s.Quiet t) : Conduct C s (outcome, t)
  | changed {outcome : Result (Except Response Response)} {c : StoreCommand} (hc : C c) {m : Service σ}
      (hm : s.Quiet m) {a : StoreAnswer} {u : Service σ} (heffect : c.effect m = .changed a u)
      (houtcome : ¬ Declines outcome) : Conduct C s (outcome, (c.store.written a u).2)

theorem Conduct.after {C : StoreCommand → Prop} {s t : Service σ}
    {run : Result (Except Response Response) × Service σ} (ht : s.Quiet t) (h : Conduct C t run) : Conduct C s run := by
  cases h with
  | quiet h => exact .quiet (ht.trans h)
  | changed hc hm heffect houtcome => exact .changed hc (ht.trans hm) heffect houtcome

theorem Conduct.weaken {C D : StoreCommand → Prop} {s : Service σ}
    {run : Result (Except Response Response) × Service σ} (h : Conduct C s run) (hCD : ∀ c, C c → D c) :
    Conduct D s run := by
  cases h with
  | quiet h => exact .quiet h
  | changed hc hm heffect houtcome => exact .changed (hCD _ hc) hm heffect houtcome

/-! ### Answers to what was done -/

mutual

/-- That something cannot be put into an answer is no refusal. -/
theorem documentOf_error {f : Fault} : ∀ v : Value, documentOf v = .error f → f = .unanswerable
  | .list items, h => by
      rw [documentOf] at h
      cases hitems : documentItems items with
      | ok ds =>
          rw [hitems] at h
          exact nomatch h
      | error g =>
          rw [hitems] at h
          cases h
          exact documentItems_error items hitems
  | .dict entries, h => by
      rw [documentOf] at h
      cases hentries : documentEntries entries with
      | ok ds =>
          rw [hentries] at h
          exact nomatch h
      | error g =>
          rw [hentries] at h
          cases h
          exact documentEntries_error entries hentries
  | .bytes bs, h => by
      rw [documentOf] at h
      split at h <;> cases h
      rfl
  | .memory _, h => (Except.error.inj h).symm
  | .null, h | .bool _, h | .int _, h | .real _, h | .decimal _, h | .date _, h | .timestamp _, h | .time _ _, h
  | .duration _, h | .uuid _, h | .text _, h => nomatch h

theorem documentItems_error {f : Fault} : ∀ items : List Value, documentItems items = .error f → f = .unanswerable
  | v :: rest, h => by
      rw [documentItems] at h
      cases hv : documentOf v with
      | error g =>
          rw [hv] at h
          cases h
          exact documentOf_error v hv
      | ok d =>
          cases hrest : documentItems rest with
          | error g =>
              rw [hv, hrest] at h
              cases h
              exact documentItems_error rest hrest
          | ok ds =>
              rw [hv, hrest] at h
              exact nomatch h

theorem documentEntries_error {f : Fault} :
    ∀ entries : List (String × Value), documentEntries entries = .error f → f = .unanswerable
  | (key, v) :: rest, h => by
      rw [documentEntries] at h
      cases hv : documentOf v with
      | error g =>
          rw [hv] at h
          cases h
          exact documentOf_error v hv
      | ok d =>
          cases hrest : documentEntries rest with
          | error g =>
              rw [hv, hrest] at h
              cases h
              exact documentEntries_error rest hrest
          | ok ds =>
              rw [hv, hrest] at h
              exact nomatch h

end

theorem accepts_succeed (v : Value) (s : Service σ) : ¬ Declines (Handler.runOn (Handler.succeed v) s).1 := by
  rw [Handler.succeed, Handler.runOn_bind, Handler.runOn_lift]
  cases hv : documentOf v with
  | ok d =>
      rintro ⟨response, hresponse, hstatus⟩
      cases hresponse
      exact absurd hstatus (by decide : ¬ 400 ≤ 200)
  | error f =>
      obtain rfl := documentOf_error v hv
      rintro ⟨response, hresponse, -⟩
      exact nomatch hresponse

namespace Handler

variable {α β : Type} {C : StoreCommand → Prop}

def Conducts (C : StoreCommand → Prop) (h : Handler σ Response) : Prop := ∀ s, Conduct C s (runOn h s)

theorem Quiet.conducts {h : Handler σ Response} (hh : h.Quiet) : Conducts C h := fun s => .quiet (hh s)

theorem Quiet.thenConducts {h : Handler σ α} (hh : h.Quiet) {k : α → Handler σ Response}
    (hk : ∀ a, Conducts C (k a)) : Conducts C (h >>= k) := by
  intro s
  have hfirst := hh s
  rw [runOn_bind]
  rcases hrun : runOn h s with ⟨f | ⟨r | a⟩, t⟩ <;> rw [hrun] at hfirst
  · exact .quiet hfirst
  · exact .quiet hfirst
  · exact (hk a t).after hfirst

theorem act_bind (x : Action σ α) (k : α → Action σ β) : act (x >>= k) = act x >>= fun a => act (k a) := by
  apply ExceptT.ext
  simp [act]

/-- An operation of a store, with an answer that is made of its result alone. -/
theorem conducts_act {x : Action σ α} {c : StoreCommand} {f : α → StoreAnswer} (hperform : c.perform = f <$> x)
    (hc : C c) {finish : α → Handler σ Response} (hstateless : ∀ a, (finish a).Stateless)
    (haccepts : ∀ a, f a ≠ .deleted false → ∀ s, ¬ Declines (runOn (finish a) s).1) :
    Conducts C (act x >>= finish) := by
  intro s
  obtain ⟨outcome, houtcome, hact⟩ := runOn_act_bind x hstateless
  have hrun := c.runOn_perform s
  rw [hperform, Action.runOn_map] at hrun
  rw [hact]
  rcases hx : x.runOn s with ⟨r, m⟩
  rw [hx] at hrun
  cases heffect : c.effect s with
  | answered r' t =>
      rw [heffect] at hrun
      obtain rfl : m = t := congrArg Prod.snd hrun
      exact .quiet (StoreCommand.quiet_of_answered heffect)
  | changed b u =>
      rw [heffect] at hrun
      have hwritten : (r.map f, m) = c.store.written b u := hrun
      obtain rfl : m = (c.store.written b u).2 := congrArg Prod.snd hwritten
      have hresult : r.map f = (c.store.written b u).1 := congrArg Prod.fst hwritten
      refine .changed hc (.refl s) heffect ?_
      cases r with
      | error g =>
          rcases c.store.written_cases b u with ⟨files, h⟩ | ⟨g', hg', h⟩ <;> rw [h] at hresult
          · exact nomatch hresult
          · obtain rfl : g = g' := Except.error.inj hresult
            rintro ⟨response, hresponse, -⟩
            rcases hg' with rfl | rfl <;> exact nomatch hresponse
      | ok a =>
          have hb : f a = b := by
            rcases c.store.written_cases b u with ⟨files, h⟩ | ⟨g', hg', h⟩ <;> rw [h] at hresult
            · exact Except.ok.inj hresult
            · exact nomatch hresult
          have hdeclines := haccepts a (hb ▸ StoreCommand.answer_of_changed heffect) s
          rwa [houtcome] at hdeclines

end Handler

/-! ## Endpoints -/

/-- The routes of administrators. -/
def adminPatterns : List (List Segment) :=
  [path ["api", "admin", "table-settings"], path ["api", "filters"], path ["api", "admin", "cache", "clear"]]

variable [Server σ]

/-- An endpoint for everyone examines nothing.  Any other lets its requester in first, and what it then does to the
stores it does for its requester, or as a route of administrators.  To get something changes nothing. -/
inductive Endpoint.Lawful (e : Endpoint σ) : Prop
  | forEveryone (hpattern : e.pattern ∉ adminPatterns) (h : ∀ r places body, (e.respond r places body).Stateless)
  | forUsers (hpattern : e.pattern ∉ adminPatterns)
      {k : Request → List String → Option Value → Requester → Handler σ Response}
      (hrespond : ∀ r places body, e.respond r places body = r.requester >>= k r places body)
      (h : ∀ r places body (q : Requester), (k r places body q).Conducts fun c =>
        c.owner? = some (.text q.user.id) ∧ e.method ≠ "GET")
  | forAdmins {k : Request → List String → Option Value → Requester → Handler σ Response}
      (hrespond : ∀ r places body, e.respond r places body = r.admin >>= k r places body)
      (h : ∀ r places body (q : Requester), (k r places body q).Conducts fun c =>
        c.owner? = none ∧ e.method ≠ "GET")

open Handler

section Lawful

variable {pattern : List Segment}

theorem lawful_get {respond : Request → List String → Handler σ Response} (hpattern : pattern ∉ adminPatterns)
    {k : Request → List String → Requester → Handler σ Response}
    (hrespond : ∀ r places, respond r places = r.requester >>= k r places)
    (hk : ∀ r places q, (k r places q).Quiet) : (Endpoint.get pattern respond).Lawful :=
  .forUsers hpattern (fun r places _ => hrespond r places) fun r places _ q => (hk r places q).conducts

theorem lawful_delete {respond : Request → List String → Handler σ Response} (hpattern : pattern ∉ adminPatterns)
    {k : Request → List String → Requester → Handler σ Response}
    (hrespond : ∀ r places, respond r places = r.requester >>= k r places)
    (hk : ∀ r places (q : Requester), (k r places q).Conducts fun c => c.owner? = some (.text q.user.id)) :
    (Endpoint.delete pattern respond).Lawful := by
  refine .forUsers hpattern (fun r places _ => hrespond r places) fun r places _ q s => ?_
  exact (hk r places q s).weaken fun c hc => ⟨hc, (by decide : "DELETE" ≠ "GET")⟩

theorem lawful_post {respond : Request → List String → Option Value → Handler σ Response}
    (hpattern : pattern ∉ adminPatterns) {k : Request → List String → Option Value → Requester → Handler σ Response}
    (hrespond : ∀ r places body, respond r places body = r.requester >>= k r places body)
    (hk : ∀ r places body (q : Requester), (k r places body q).Conducts fun c => c.owner? = some (.text q.user.id)) :
    (Endpoint.post pattern respond).Lawful := by
  refine .forUsers hpattern hrespond fun r places body q s => ?_
  exact (hk r places body q s).weaken fun c hc => ⟨hc, (by decide : "POST" ≠ "GET")⟩

theorem lawful_adminPost {respond : Request → List String → Option Value → Handler σ Response}
    {k : Request → List String → Option Value → Requester → Handler σ Response}
    (hrespond : ∀ r places body, respond r places body = r.admin >>= k r places body)
    (hk : ∀ r places body (q : Requester), (k r places body q).Conducts fun c => c.owner? = none) :
    (Endpoint.post pattern respond).Lawful := by
  refine .forAdmins hrespond fun r places body q s => ?_
  exact (hk r places body q s).weaken fun c hc => ⟨hc, (by decide : "POST" ≠ "GET")⟩

end Lawful

/-! ### Tables and exports -/

theorem lawful_databases : (Endpoint.get (path ["api", "databases"]) databases : Endpoint σ).Lawful :=
  lawful_get (by decide) (fun _ _ => discard_bind _ _) fun _ _ _ =>
    quiet_state.bind fun _ => (stateless_succeed _).quiet

theorem lawful_tables : (Endpoint.get (path ["api", "tables", "*"]) tables : Endpoint σ).Lawful :=
  lawful_get (by decide) (fun _ _ => rfl) fun _ _ _ =>
    quiet_state.bind fun _ => (quiet_link _).bind fun _ => (stateless_succeed _).quiet

theorem lawful_columns : (Endpoint.get (path ["api", "columns", "*", "*"]) columns : Endpoint σ).Lawful :=
  lawful_get (by decide) (fun _ _ => rfl) fun _ _ _ =>
    quiet_state.bind fun _ => (quiet_link _).bind fun _ =>
      ((stateless_lift _).bind fun _ => stateless_succeed _).quiet

theorem lawful_tableSettings : (Endpoint.get (path ["api", "table-settings"]) tableSettings : Endpoint σ).Lawful :=
  lawful_get (by decide) (fun _ _ => discard_bind _ _) fun _ _ _ =>
    quiet_state.bind fun _ => (stateless_succeed _).quiet

theorem lawful_rows : (Endpoint.post (path ["api", "rows"]) rows : Endpoint σ).Lawful :=
  lawful_post (by decide) (fun _ _ _ => rfl) fun _ _ _ _ =>
    ((stateless_inBody _ _).quiet.bind fun _ => quiet_state.bind fun _ => (quiet_link _).bind fun _ =>
      (stateless_succeed _).quiet).conducts

theorem lawful_exportCheck : (Endpoint.post (path ["api", "export", "check"]) exportCheck : Endpoint σ).Lawful :=
  lawful_post (by decide) (fun _ _ _ => rfl) fun _ _ _ _ =>
    ((stateless_inBody _ _).quiet.bind fun _ => quiet_state.bind fun _ => (quiet_link _).bind fun _ =>
      (stateless_succeed _).quiet).conducts

theorem lawful_exportRows : (Endpoint.get (path ["api", "export"]) exportRows : Endpoint σ).Lawful :=
  lawful_get (by decide) (fun _ _ => rfl) fun _ _ _ =>
    (stateless_inQuery _ _).quiet.bind fun _ => (stateless_lift _).quiet.bind fun _ => quiet_state.bind fun _ =>
      (quiet_link _).bind fun _ => (quiet_link _).bind fun _ => (stateless_pure _).quiet

/-! ### Settings, definitions and histories -/

theorem lawful_changeTableSettings :
    (Endpoint.post (path ["api", "admin", "table-settings"]) changeTableSettings : Endpoint σ).Lawful :=
  lawful_adminPost (fun _ _ _ => discard_bind _ _) fun _ _ _ _ =>
    (stateless_inBody _ _).quiet.thenConducts fun change => (stateless_lift _).quiet.thenConducts fun table =>
      conducts_act (c := .setSettings change.database table.fullName change.settings) (f := fun _ => .done)
        rfl (by rfl) (fun _ => stateless_confirm _) fun _ _ s => accepts_succeed _ s

theorem lawful_historyOf :
    (Endpoint.get (path ["api", "filters", "history", "*", "*"]) historyOf : Endpoint σ).Lawful :=
  lawful_get (by decide) (fun _ _ => rfl) fun _ _ _ => quiet_state.bind fun _ => (stateless_succeed _).quiet

theorem lawful_recordHistory :
    (Endpoint.post (path ["api", "filters", "history"]) recordHistory : Endpoint σ).Lawful :=
  lawful_post (by decide) (fun _ _ _ => rfl) fun _ _ _ q =>
    (stateless_inBody _ _).quiet.thenConducts fun body => (stateless_lift _).quiet.thenConducts fun _ =>
      conducts_act (c := .saveHistory ⟨q.user.id, body.database, body.table⟩ body.filters) (f := .entry)
        rfl (by rfl) (fun _ => stateless_succeed _) fun _ _ s => accepts_succeed _ s

omit [Server σ] in
/-- Something was found and deleted, or the answer is that there is no such thing. -/
theorem conducts_delete {x : Action σ Bool} {c : StoreCommand} {C : StoreCommand → Prop} {missing : Response}
    (hperform : c.perform = StoreAnswer.deleted <$> x) (hc : C c) :
    Conducts C (act x >>= fun found => if found = true then confirm [] else return missing) := by
  refine conducts_act hperform hc (fun found => ?_) fun found hfound s => ?_
  · cases found
    · exact stateless_pure _
    · exact stateless_confirm _
  · cases found
    · exact absurd rfl hfound
    · exact accepts_succeed _ s

theorem lawful_forgetHistory :
    (Endpoint.delete (path ["api", "filters", "history", "*"]) forgetHistory : Endpoint σ).Lawful :=
  lawful_delete (by decide) (fun _ _ => rfl) fun _ places q =>
    conducts_delete (c := .deleteHistory (place places 0) q.user.id) rfl rfl

theorem lawful_definitionsOf : (Endpoint.get (path ["api", "filters", "*"]) definitionsOf : Endpoint σ).Lawful :=
  lawful_get (by decide) (fun _ _ => discard_bind _ _) fun _ _ _ =>
    quiet_state.bind fun _ => (stateless_succeed _).quiet

theorem lawful_changeDefinitions :
    (Endpoint.post (path ["api", "filters"]) changeDefinitions : Endpoint σ).Lawful :=
  lawful_adminPost (fun _ _ _ => discard_bind _ _) fun _ _ _ _ =>
    (stateless_inBody _ _).quiet.thenConducts fun (table, definitions) =>
      (stateless_lift _).quiet.thenConducts fun _ =>
        conducts_act (c := .setDefinitions table definitions) (f := fun _ => .done)
          rfl (by rfl) (fun _ => stateless_confirm _) fun _ _ s => accepts_succeed _ s

/-! ### Report blocks -/

theorem lawful_ownBlocks : (Endpoint.get (path ["api", "reports", "blocks"]) ownBlocks : Endpoint σ).Lawful :=
  lawful_get (by decide) (fun _ _ => rfl) fun _ _ _ => quiet_state.bind fun _ => (stateless_succeed _).quiet

omit [Server σ] in
/-- A configuration is examined before the block is stored. -/
theorem act_createBlock (q : Requester) (kind : String) (title config : Value) :
    act (Service.createBlock q kind title config : Action σ ReportBlock) =
      act (discard (Action.lift (BlockConfig.parse kind config))) >>= fun _ =>
        act (Service.storeBlock (.text q.user.id) (.text kind) title config) := act_bind _ _

theorem lawful_makeBlock : (Endpoint.post (path ["api", "reports", "blocks"]) makeBlock : Endpoint σ).Lawful := by
  refine lawful_post (by decide) (fun _ _ _ => rfl) fun _ _ _ q =>
    (stateless_inBody _ _).quiet.thenConducts fun (kind, title, config) => ?_
  have hparse : (discard (Action.lift (BlockConfig.parse kind (.dict config))) : Action σ PUnit).Quiet := by
    intro s
    cases BlockConfig.parse kind (.dict config) <;> exact .refl s
  dsimp only
  rw [act_createBlock, bind_assoc]
  refine (quiet_act hparse).thenConducts fun _ => ?_
  exact conducts_act (c := .createBlock (.text q.user.id) (.text kind) (.ofOption title) (.dict config)) (f := .block)
    rfl (by rfl) (fun _ => stateless_succeed _) fun _ _ s => accepts_succeed _ s

theorem lawful_dropBlock :
    (Endpoint.delete (path ["api", "reports", "blocks", "*"]) dropBlock : Endpoint σ).Lawful :=
  lawful_delete (by decide) (fun _ _ => rfl) fun _ places q =>
    conducts_delete (c := .deleteBlock (place places 0) q.user.id) rfl rfl

theorem lawful_runBlock :
    (Endpoint.post (path ["api", "reports", "blocks", "*", "run"]) runBlock : Endpoint σ).Lawful :=
  lawful_post (by decide) (fun _ _ _ => rfl) fun _ _ _ _ =>
    ((stateless_inOptionalBody _ _ _).quiet.bind fun _ => quiet_state.bind fun _ => (quiet_link _).bind fun _ =>
      (stateless_succeed _).quiet).conducts

/-! ### Dashboards -/

omit [Server σ] in
theorem quiet_provider (kind : String) : (Service.provider kind : Action σ (Provider σ)).Quiet := by
  refine Action.quiet_get.bind fun s => ?_
  split
  · exact Action.quiet_pure _
  · exact Action.quiet_refused _

omit [Server σ] in
theorem quiet_cached (key : String) : (Service.cached key : Action σ (Option Value)).Quiet := fun s => .withCache s _

omit [Server σ] in
theorem quiet_keep (key : String) (v : Value) (lifetime : Int) :
    (Service.keep key v lifetime : Action σ Unit).Quiet := by
  intro s
  simp only [Service.keep, Action.runOn_bind, Action.runOn_get, Action.runOn_set, Action.runOn_lift]
  exact .withCache s _

theorem quiet_computeDashboard (key : String) (compute : Provider σ) (q : DashboardRequest) :
    (Service.computeDashboard key compute q).Quiet :=
  Action.quiet_get.bind fun _ => (Action.quiet_onLink _).bind fun _ => Action.quiet_get.bind fun _ =>
    (Action.quiet_lift _).bind fun _ => (quiet_keep _ _ _).bind fun _ => Action.quiet_pure _

theorem quiet_dashboard (kind : String) (q : DashboardRequest) (refresh : Bool) :
    (Service.dashboard kind q refresh : Action σ Value).Quiet := by
  refine (quiet_provider kind).bind fun compute => ?_
  cases refresh with
  | true =>
      exact (Action.quiet_pure none).bindOption (quiet_computeDashboard _ _ _) fun _ => Action.quiet_pure _
  | false => exact (quiet_cached _).bindOption (quiet_computeDashboard _ _ _) fun _ => Action.quiet_pure _

theorem lawful_dashboard : (Endpoint.get (path ["api", "dashboards", "*", "*"]) dashboard : Endpoint σ).Lawful :=
  lawful_get (by decide) (fun _ _ => discard_bind _ _) fun _ _ _ =>
    (stateless_inQuery _ _).quiet.bind fun _ => (stateless_lift _).quiet.bind fun _ =>
      (quiet_act (quiet_dashboard _ _ _)).bind fun _ => (stateless_succeed _).quiet

theorem lawful_cacheStats : (Endpoint.get (path ["api", "cache", "stats"]) cacheStats : Endpoint σ).Lawful :=
  lawful_get (by decide) (fun _ _ => discard_bind _ _) fun _ _ _ =>
    quiet_state.bind fun _ => (stateless_succeed _).quiet

omit [Server σ] in
theorem quiet_clearCache (pattern : Option String) : (Service.clearCache pattern : Action σ Nat).Quiet :=
  fun s => .withCache s _

theorem lawful_clearCache :
    (Endpoint.post (path ["api", "admin", "cache", "clear"]) clearCache : Endpoint σ).Lawful :=
  lawful_adminPost (fun _ _ _ => discard_bind _ _) fun _ _ _ _ =>
    ((stateless_inOptionalBody _ _ _).quiet.bind fun _ => (quiet_act (quiet_clearCache _)).bind fun _ =>
      (stateless_confirm _).quiet).conducts

theorem lawful_health : (Endpoint.get (path ["health"]) health : Endpoint σ).Lawful :=
  .forEveryone (show path ["health"] ∉ adminPatterns by decide) fun _ _ _ => stateless_succeed _

theorem lawful_endpoints : ∀ e ∈ (endpoints : List (Endpoint σ)), e.Lawful := by
  simp only [endpoints, tableEndpoints, exportEndpoints, filterEndpoints, reportEndpoints, dashboardEndpoints,
    List.cons_append, List.nil_append, List.forall_mem_cons]
  exact ⟨lawful_databases, lawful_tables, lawful_columns, lawful_tableSettings, lawful_changeTableSettings,
    lawful_rows, lawful_exportCheck, lawful_exportRows, lawful_historyOf, lawful_recordHistory, lawful_forgetHistory,
    lawful_definitionsOf, lawful_changeDefinitions, lawful_ownBlocks, lawful_makeBlock, lawful_dropBlock,
    lawful_runBlock, lawful_dashboard, lawful_cacheStats, lawful_clearCache, lawful_health, fun e he => nomatch he⟩

end Http

end TableSteward

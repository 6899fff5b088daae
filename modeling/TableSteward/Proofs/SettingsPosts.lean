import TableSteward.Proofs.CacheKeys
import TableSteward.Proofs.TableNames

/-!
# Settings of tables

Settings are stored by one text for the database and the table, with a colon between them.  A database may hold colons
of its own, but the full name of a table does not, so the text tells the two apart.  `settings_by_table` says what
follows for runs of requests: the settings of a table are those that were posted last for it, and what is posted for
another table, or for a table of that name in another database, shows nowhere.
-/
set_option autoImplicit false

namespace TableSteward

/-! ## The key of a table -/

theorem TableRef.colon_not_mem_fullName (t : TableRef) : ':' ∉ t.fullName.toList := by
  have hname : ∀ i : Identifier, ':' ∉ i.name.toList := by
    intro i hmem
    exact absurd (List.all_eq_true.mp (Name.all_isPart_of_isWord i.isWord_name) ':' hmem) (by decide)
  simp [fullName, hname]

namespace SettingsStore

variable {database database' : String} {t t' : TableRef}

/-- A key is read from its end: the last colon is the one behind the database. -/
theorem key_eq_iff : key database t.fullName = key database' t'.fullName ↔ database = database' ∧ t = t' := by
  constructor
  · intro h
    have hends := congrArg (fun s => s.toList.reverse) h
    simp only [key, String.toList_append, List.reverse_append, List.append_assoc] at hends
    have hcount : ∀ u : TableRef, u.fullName.toList.reverse.count ':' = 0 := by
      intro u
      simpa [List.count_eq_zero] using u.colon_not_mem_fullName
    obtain ⟨htable, hdatabase⟩ := append_separator_inj hends ((hcount t).trans (hcount t').symm)
    exact ⟨String.toList_inj.mp (List.reverse_inj.mp hdatabase),
      TableRef.fullName_injective (String.toList_inj.mp (List.reverse_inj.mp htable))⟩
  · intro ⟨hdatabase, ht⟩
    rw [hdatabase, ht]

theorem get_set_table (s : SettingsStore) (settings : TableSettings) :
    (s.set database t.fullName settings).get database' t'.fullName =
      if database = database' ∧ t = t' then some settings else s.get database' t'.fullName := by
  simp only [get, set, Entries.get?_put, key_eq_iff, eq_comm]

end SettingsStore

/-! ## Posts -/

/-- Settings for a table of a database. -/
structure SettingsPost where
  database : String
  table : TableRef
  settings : TableSettings
  deriving DecidableEq

namespace SettingsPost

/-- The post is for the table of the database. -/
def isFor (database : String) (t : TableRef) (p : SettingsPost) : Bool := p.database == database && p.table == t

/-- What a document posts, if it is a change of settings and names a table. -/
def ofValue? (v : Value) : Option SettingsPost :=
  match Http.bodyRecord Http.SettingsChange.fields v with
  | .wrong _ => none
  | .ok change =>
      match TableRef.ofText change.table with
      | .ok t => some ⟨change.database, t, change.settings⟩
      | .error _ => none

end SettingsPost

def SettingsStore.post (s : SettingsStore) (p : SettingsPost) : SettingsStore :=
  s.set p.database p.table.fullName p.settings

/-- Of the posts for a table the last one counts. -/
theorem SettingsStore.get_posts (database : String) (t : TableRef) (posts : List SettingsPost) (s : SettingsStore) :
    (posts.foldl post s).get database t.fullName =
      ((posts.filter (·.isFor database t)).getLast?.map SettingsPost.settings).or (s.get database t.fullName) := by
  induction posts generalizing s with
  | nil => simp
  | cons p posts ih =>
      rw [List.foldl_cons, ih, post, get_set_table, List.filter_cons]
      by_cases hp : p.database = database ∧ p.table = t
      · have hfor : p.isFor database t = true := by simp [SettingsPost.isFor, hp]
        rw [if_pos hp, if_pos hfor, List.getLast?_cons]
        cases (posts.filter (·.isFor database t)).getLast? <;> simp
      · have hfor : ¬ p.isFor database t = true := by simpa [SettingsPost.isFor] using hp
        rw [if_neg hp, if_neg hfor]

namespace Http

/-- The document in the body of a request, if it can be read. -/
def Request.body? (r : Request) : Option Value :=
  if r.body.isEmpty then none
  else (Json.textOfBytes? r.body).bind fun s => (Json.read s).toOption

/-- Nothing is posted by who is not let in. -/
def postedBy (admitted : Result (Except Response Requester)) (post? : Option SettingsPost) : Option SettingsPost :=
  match admitted with
  | .ok (.ok _) => post?
  | _ => none

theorem postedBy_none (admitted : Result (Except Response Requester)) : postedBy admitted none = none := by
  unfold postedBy
  split <;> rfl

def settingsPattern : List Segment := path ["api", "admin", "table-settings"]

end Http

namespace Service

variable {σ : Type} [Server σ]

/-- What a request posts: it is one to the route of settings, an administrator is let in, and the body can be read. -/
def settingsPost? (s : Service σ) (r : Http.Request) : Option SettingsPost :=
  match (Http.route (Text.upper r.method) r.path : Http.Routing σ) with
  | .found e _ =>
      if e.method = "POST" ∧ e.pattern = Http.settingsPattern then
        Http.postedBy (r.admin.runOn s).1 (r.body?.bind SettingsPost.ofValue?)
      else none
  | _ => none

/-- What the requests of a run post, one after the other. -/
def settingsPosts : Service σ → List (HttpStep σ) → List SettingsPost
  | _, [] => []
  | s, c :: steps => ((c.start s).settingsPost? c.request).toList ++ settingsPosts (c.run s).2 steps

end Service

/-! ## Requests that spare the settings -/

theorem StoreCommand.settings_effect {σ : Type} {c : StoreCommand} (h : c.store ≠ .settings) (s : Service σ) :
    (c.effect s).service.settings = s.settings := by
  cases c <;> simp only [effect] <;> (repeat' split) <;> first | rfl | exact absurd rfl h

namespace Http

variable {σ : Type}

namespace Handler

variable {α β : Type}

def Spares (h : Handler σ α) : Prop := ∀ s : Service σ, (runOn h s).2.settings = s.settings

theorem Quiet.spares {h : Handler σ α} (hh : h.Quiet) : h.Spares := fun s => (hh s).sameStores.settings

theorem Spares.bind {h : Handler σ α} {k : α → Handler σ β} (hh : h.Spares) (hk : ∀ a, (k a).Spares) :
    (h >>= k).Spares := by
  intro s
  have hfirst := hh s
  rw [runOn_bind]
  rcases hrun : runOn h s with ⟨f | ⟨r | a⟩, t⟩ <;> rw [hrun] at hfirst
  · exact hfirst
  · exact hfirst
  · exact (hk a t).trans hfirst

/-- An operation on another store. -/
theorem spares_act {x : Action σ α} {c : StoreCommand} {f : α → StoreAnswer} (hperform : c.perform = f <$> x)
    (hc : c.store ≠ .settings) : (act x).Spares := by
  intro s
  have hrun : (x.runOn s).2 = (c.perform.runOn s).2 := by rw [hperform, Action.runOn_map]
  have heffect := c.settings_effect hc s
  rw [runOn_act, hrun, c.runOn_perform]
  cases hanswer : c.effect s with
  | answered r t =>
      rw [hanswer] at heffect
      exact heffect
  | changed a t =>
      rw [hanswer] at heffect
      rw [c.store.written_snd]
      exact heffect

theorem spares_delete {x : Action σ Bool} {c : StoreCommand} {missing : Response}
    (hperform : c.perform = StoreAnswer.deleted <$> x) (hc : c.store ≠ .settings) :
    (act x >>= fun found => if found = true then confirm [] else return missing).Spares := by
  refine (spares_act hperform hc).bind fun found => ?_
  cases found with
  | true => exact (stateless_confirm _).quiet.spares
  | false => exact (stateless_pure _).quiet.spares

end Handler

open Handler

variable [Server σ]

theorem quiet_requester (r : Request) : (r.requester : Handler σ Requester).Quiet :=
  fun s => (admits_requester r s).inquired.quiet

theorem quiet_admin (r : Request) : (r.admin : Handler σ Requester).Quiet :=
  fun s => (admits_admin r s).inquired.quiet

def Endpoint.Spares (e : Endpoint σ) : Prop := ∀ r places body, (e.respond r places body).Spares

theorem Endpoint.Lawful.spares {e : Endpoint σ} (he : e.Lawful) (hmethod : e.method = "GET") : e.Spares := by
  have hquiet : ∀ {C : StoreCommand → Prop} {s : Service σ} {run}, Conduct (fun c => C c ∧ e.method ≠ "GET") s run →
      s.Quiet run.2 := by
    intro C s run h
    cases h with
    | quiet h => exact h
    | changed hc => exact absurd hmethod hc.2
  intro r places body
  cases he with
  | forEveryone hpattern h => exact (h r places body).quiet.spares
  | forUsers hpattern hrespond h =>
      rw [hrespond]
      exact ((quiet_requester r).bind fun q s => hquiet (h r places body q s)).spares
  | forAdmins hrespond h =>
      rw [hrespond]
      exact ((quiet_admin r).bind fun q s => hquiet (h r places body q s)).spares

omit [Server σ] in
theorem spares_quietly {pattern : List Segment} {respond : Request → List String → Option Value → Handler σ Response}
    (h : ∀ r places body, (respond r places body).Quiet) : (Endpoint.post pattern respond).Spares :=
  fun r places body => (h r places body).spares

theorem spares_rows : (Endpoint.post (path ["api", "rows"]) rows : Endpoint σ).Spares :=
  spares_quietly fun r _ _ => (quiet_requester r).bind fun _ => (stateless_inBody _ _).quiet.bind fun _ =>
    quiet_state.bind fun _ => (quiet_link _).bind fun _ => (stateless_succeed _).quiet

theorem spares_exportCheck : (Endpoint.post (path ["api", "export", "check"]) exportCheck : Endpoint σ).Spares :=
  spares_quietly fun r _ _ => (quiet_requester r).bind fun _ => (stateless_inBody _ _).quiet.bind fun _ =>
    quiet_state.bind fun _ => (quiet_link _).bind fun _ => (stateless_succeed _).quiet

theorem spares_runBlock :
    (Endpoint.post (path ["api", "reports", "blocks", "*", "run"]) runBlock : Endpoint σ).Spares :=
  spares_quietly fun r _ _ => (quiet_requester r).bind fun _ => (stateless_inOptionalBody _ _ _).quiet.bind fun _ =>
    quiet_state.bind fun _ => (quiet_link _).bind fun _ => (stateless_succeed _).quiet

theorem spares_clearCache : (Endpoint.post (path ["api", "admin", "cache", "clear"]) clearCache : Endpoint σ).Spares :=
  spares_quietly fun r _ _ => quiet_discard (quiet_admin r) <|
    (stateless_inOptionalBody _ _ _).quiet.bind fun _ => (quiet_act (quiet_clearCache _)).bind fun _ =>
      (stateless_confirm _).quiet

theorem spares_changeDefinitions : (Endpoint.post (path ["api", "filters"]) changeDefinitions : Endpoint σ).Spares := by
  intro r places body
  change (changeDefinitions r places body).Spares
  rw [changeDefinitions, discard_bind]
  exact (quiet_admin r).spares.bind fun _ => (stateless_inBody _ _).quiet.spares.bind fun (table, definitions) =>
    (stateless_lift _).quiet.spares.bind fun _ =>
      (spares_act (c := .setDefinitions table definitions) (f := fun _ => .done) rfl nofun).bind fun _ =>
        (stateless_confirm _).quiet.spares

theorem spares_recordHistory :
    (Endpoint.post (path ["api", "filters", "history"]) recordHistory : Endpoint σ).Spares :=
  fun r _ _ => (quiet_requester r).spares.bind fun requester => (stateless_inBody _ _).quiet.spares.bind fun q =>
    (stateless_lift _).quiet.spares.bind fun _ =>
      (spares_act (c := .saveHistory ⟨requester.user.id, q.database, q.table⟩ q.filters) (f := .entry) rfl nofun).bind
        fun _ => (stateless_succeed _).quiet.spares

theorem spares_forgetHistory :
    (Endpoint.delete (path ["api", "filters", "history", "*"]) forgetHistory : Endpoint σ).Spares :=
  fun r places _ => (quiet_requester r).spares.bind fun requester =>
    spares_delete (c := .deleteHistory (place places 0) requester.user.id) rfl nofun

theorem spares_makeBlock : (Endpoint.post (path ["api", "reports", "blocks"]) makeBlock : Endpoint σ).Spares := by
  refine fun r _ _ => (quiet_requester r).spares.bind fun requester =>
    (stateless_inBody _ _).quiet.spares.bind fun (kind, title, config) => ?_
  have hparse : (discard (Action.lift (BlockConfig.parse kind (.dict config))) : Action σ PUnit).Quiet := by
    intro s
    cases BlockConfig.parse kind (.dict config) <;> exact .refl s
  dsimp only
  rw [act_createBlock, bind_assoc]
  exact (quiet_act hparse).spares.bind fun _ =>
    (spares_act (c := .createBlock (.text requester.user.id) (.text kind) (.ofOption title) (.dict config))
      (f := .block) rfl nofun).bind fun _ => (stateless_succeed _).quiet.spares

theorem spares_dropBlock :
    (Endpoint.delete (path ["api", "reports", "blocks", "*"]) dropBlock : Endpoint σ).Spares :=
  fun r places _ => (quiet_requester r).spares.bind fun requester =>
    spares_delete (c := .deleteBlock (place places 0) requester.user.id) rfl nofun

/-- The endpoint posts settings, or it spares them. -/
def Endpoint.Posts (e : Endpoint σ) : Prop :=
  e = .post settingsPattern changeTableSettings ∨ (e.pattern ≠ settingsPattern ∧ e.Spares)

theorem posts_get {pattern : List Segment} {respond : Request → List String → Handler σ Response}
    (hpattern : pattern ≠ settingsPattern) (he : (Endpoint.get pattern respond).Lawful) :
    (Endpoint.get pattern respond).Posts := .inr ⟨hpattern, he.spares rfl⟩

theorem posts_delete {pattern : List Segment} {respond : Request → List String → Handler σ Response}
    (hpattern : pattern ≠ settingsPattern) (he : (Endpoint.delete pattern respond).Spares) :
    (Endpoint.delete pattern respond).Posts := .inr ⟨hpattern, he⟩

theorem posts_post {pattern : List Segment} {respond : Request → List String → Option Value → Handler σ Response}
    (hpattern : pattern ≠ settingsPattern) (he : (Endpoint.post pattern respond).Spares) :
    (Endpoint.post pattern respond).Posts := .inr ⟨hpattern, he⟩

theorem posts_endpoints : ∀ e ∈ (endpoints : List (Endpoint σ)), e.Posts := by
  simp only [endpoints, tableEndpoints, exportEndpoints, filterEndpoints, reportEndpoints, dashboardEndpoints,
    List.cons_append, List.nil_append, List.forall_mem_cons]
  exact ⟨posts_get (by decide) lawful_databases, posts_get (by decide) lawful_tables,
    posts_get (by decide) lawful_columns, posts_get (by decide) lawful_tableSettings, .inl rfl,
    posts_post (by decide) spares_rows, posts_post (by decide) spares_exportCheck,
    posts_get (by decide) lawful_exportRows, posts_get (by decide) lawful_historyOf,
    posts_post (by decide) spares_recordHistory, posts_delete (by decide) spares_forgetHistory,
    posts_get (by decide) lawful_definitionsOf, posts_post (by decide) spares_changeDefinitions,
    posts_get (by decide) lawful_ownBlocks, posts_post (by decide) spares_makeBlock,
    posts_delete (by decide) spares_dropBlock, posts_post (by decide) spares_runBlock,
    posts_get (by decide) lawful_dashboard, posts_get (by decide) lawful_cacheStats,
    posts_post (by decide) spares_clearCache, posts_get (by decide) lawful_health, by simp⟩

/-! ## Requests that post settings -/

omit [Server σ] in
/-- A body that cannot be read is all that is answered to. -/
theorem runOn_document (r : Request) (s : Service σ) :
    runOn r.document s = (.ok (.ok r.body?), s) ∨
      (r.body? = none ∧ ∃ response, runOn r.document s = (.ok (.error response), s)) := by
  unfold Request.document Request.body?
  cases r.body.isEmpty with
  | true => exact .inl rfl
  | false =>
      cases Json.textOfBytes? r.body with
      | none => exact .inr ⟨rfl, _, rfl⟩
      | some text =>
          simp only [Bool.false_eq_true, if_false, Option.bind_some]
          cases Json.read text with
          | ok v => exact .inl rfl
          | error f => cases f <;> exact .inr ⟨rfl, _, rfl⟩

omit [Server σ] in
theorem Handler.runOn_bind_of_stopped {α β : Type} {h : Handler σ α} {s : Service σ}
    (hstopped : ∀ a, (runOn h s).1 ≠ .ok (.ok a)) (k : α → Handler σ β) : (runOn (h >>= k) s).2 = (runOn h s).2 := by
  rw [runOn_bind]
  rcases hrun : runOn h s with ⟨f | ⟨r | a⟩, t⟩
  · rfl
  · rfl
  · exact absurd (by rw [hrun]) (hstopped a)

omit [Server σ] in
theorem runOn_valid_wrong {α : Type} (document : Value) (is : List Issue) (s : Service σ) :
    (∀ a, (runOn (Handler.valid document (.wrong is) : Handler σ α) s).1 ≠ .ok (.ok a)) ∧
      (runOn (Handler.valid document (.wrong is) : Handler σ α) s).2 = s := by
  simp only [Handler.valid]
  split
  · simp [Except.map]
  · split
    · simp [Except.map]
    · simp

/-- A body that posts nothing is declined before anything is stored. -/
theorem spares_of_posts_nothing {body : Option Value} (hbody : body.bind SettingsPost.ofValue? = none) (r : Request)
    (places : List String) : (changeTableSettings r places body : Handler σ Response).Spares := by
  rw [changeTableSettings, discard_bind]
  refine (quiet_admin r).spares.bind fun _ s => ?_
  have hwrong : ∀ document is (k : SettingsChange → Handler σ Response),
      (runOn (Handler.valid document (.wrong is) >>= k) s).2.settings = s.settings := by
    intro document is k
    obtain ⟨hstopped, hsame⟩ := runOn_valid_wrong (α := SettingsChange) document is s
    rw [runOn_bind_of_stopped hstopped, hsame]
  cases body with
  | none =>
      simp only [inBody, inDocument, Checked.complain, Checked.within]
      exact hwrong ..
  | some v =>
      simp only [Option.bind_some, SettingsPost.ofValue?] at hbody
      simp only [inBody, inDocument]
      cases hcheck : bodyRecord SettingsChange.fields v with
      | wrong is => exact hwrong ..
      | ok change =>
          cases hname : TableRef.ofText change.table with
          | ok t =>
              simp only [hcheck, hname] at hbody
              cases hbody
          | error f =>
              simp only [Checked.within, Handler.valid, pure_bind, hname]
              rfl

/-- The settings after a request to their route. -/
theorem settings_posted (r : Request) (places : List String) (body : Option Value) (s : Service σ) :
    ((changeTableSettings r places body).runOn s).2.settings =
      (postedBy (r.admin.runOn s).1 (body.bind SettingsPost.ofValue?)).toList.foldl SettingsStore.post s.settings := by
  cases hpost : body.bind SettingsPost.ofValue? with
  | none =>
      rw [spares_of_posts_nothing hpost r places s, postedBy_none]
      rfl
  | some p =>
      obtain ⟨v, rfl, hv⟩ := Option.bind_eq_some_iff.mp hpost
      rcases hadmin : (r.admin.runOn s).1 with f | response | q
      case ok.ok =>
        unfold SettingsPost.ofValue? at hv
        cases hbody : bodyRecord SettingsChange.fields v with
        | wrong is =>
            rw [hbody] at hv
            cases hv
        | ok change =>
            cases hname : TableRef.ofText change.table with
            | error f =>
                simp only [hbody, hname] at hv
                cases hv
            | ok t =>
                simp only [hbody, hname, Option.some.injEq] at hv
                subst hv
                exact settings_changeTableSettings hadmin places hbody hname
      all_goals
        have hstopped : ∀ q, (r.admin.runOn s).1 ≠ .ok (.ok q) := by simp [hadmin]
        rw [changeTableSettings, discard_bind, runOn_bind_of_stopped hstopped]
        exact (quiet_admin r).spares s

theorem settings_answer_posting (r : Request) (places : List String) (s : Service σ) :
    (((Endpoint.post settingsPattern changeTableSettings).answer r places).runOn s).2.settings =
      (postedBy (r.admin.runOn s).1 (r.body?.bind SettingsPost.ofValue?)).toList.foldl SettingsStore.post
        s.settings := by
  have hanswer : (Endpoint.post settingsPattern changeTableSettings : Endpoint σ).answer r places =
      r.document >>= changeTableSettings r places := rfl
  rw [hanswer, Handler.runOn_bind]
  rcases runOn_document r s with hbody | ⟨hnone, response, hbody⟩ <;> rw [hbody]
  · exact settings_posted r places r.body? s
  · rw [hnone, Option.bind_none, postedBy_none]
    rfl

omit [Server σ] in
theorem Endpoint.Spares.answer {e : Endpoint σ} (he : e.Spares) (r : Request) (places : List String) :
    (e.answer r places).Spares := by
  intro s
  rcases e.answer_cases r places with hstateless | ⟨body, hrun⟩
  · exact hstateless.quiet.spares s
  · rw [hrun]
    exact he r places body s

end Http

namespace Service

variable {σ : Type} [Server σ]

/-- A request stores what it posts, and another one leaves the settings as they are. -/
theorem settings_serve (s : Service σ) (r : Http.Request) :
    ((Http.serve r).runOn s).2.settings = (s.settingsPost? r).toList.foldl SettingsStore.post s.settings := by
  rw [Http.runOn_serve, Http.runOn_respond, settingsPost?]
  cases hroute : (Http.route (Text.upper r.method) r.path : Http.Routing σ) with
  | unknown => rfl
  | wrongMethod => rfl
  | found e places =>
      obtain ⟨hmem, hmethod⟩ := Http.of_route hroute
      rcases Http.posts_endpoints e hmem with rfl | ⟨hpattern, hspares⟩
      · exact Http.settings_answer_posting r places s
      · dsimp only
        rw [hspares.answer r places s, if_neg fun h => hpattern h.2]
        rfl

/-- A run stores what its requests post, one after the other. -/
theorem settings_afterRequests (s : Service σ) (steps : List (HttpStep σ)) :
    (s.afterRequests steps).settings = (s.settingsPosts steps).foldl SettingsStore.post s.settings := by
  induction steps generalizing s with
  | nil => rfl
  | cons c steps ih =>
      have hstep : (c.run s).2.settings =
          (((c.start s).settingsPost? c.request).toList).foldl SettingsStore.post s.settings :=
        settings_serve (c.start s) c.request
      rw [settingsPosts, List.foldl_append, ← hstep]
      exact ih (c.run s).2

end Service

/-! ## What settings show -/

namespace Gate

/-- Another visibility makes no difference where it shows the same. -/
theorem authorize_of_visible {m : Type → Type} [Monad m] [MonadExceptOf Fault m] (g : Gate)
    (visible : Option Visibility) {database s : String} {t : TableRef} (hname : TableRef.ofText s = .ok t)
    (hsee : { g with visible := visible }.maySee database t.fullName = g.maySee database t.fullName) (bypass : Bool)
    (tableExists : TableRef → m Bool) :
    { g with visible := visible }.authorize bypass tableExists database (.text s) =
      g.authorize bypass tableExists database (.text s) := by
  have hvalue : TableRef.ofValue (.text s) = .ok t := hname
  unfold authorize
  simp only [hvalue, hsee]
  rfl

end Gate

/-- The database and the name of the table that a request is for. -/
def Request.table? : Request → Option (String × String)
  | .columns database table => some (database, table)
  | .rows q _ | .exportCheck q | .exportPage q _ _ | .exportAll q _ => some (q.database, q.table)
  | .tables _ | .block .. => none

section Shown

variable {σ : Type} [Server σ] {store : SettingsStore} {database name : String} {t : TableRef}

/-- The settings of a table are the same in another store. -/
def SettingsStore.AgreesAt (s s' : SettingsStore) (database : String) (t : TableRef) : Prop :=
  s'.get database t.fullName = s.get database t.fullName

theorem SettingsStore.AgreesAt.isVisible {s s' : SettingsStore} (h : s.AgreesAt s' database t) :
    s'.isVisible database t.fullName = s.isVisible database t.fullName := by
  rw [SettingsStore.isVisible, SettingsStore.isVisible, h]

namespace Browser

variable (b : Browser) (u : Requester)

theorem maySee_of_agrees (h : b.settings.AgreesAt store database t) :
    ({ b.gate u with visible := some store.isVisible } : Gate).maySee database t.fullName =
      (b.gate u).maySee database t.fullName :=
  congrArg ((b.gate u).role.seesHidden || ·) h.isVisible

theorem authorize_of_agrees (h : b.settings.AgreesAt store database t) (hname : TableRef.ofText name = .ok t)
    (c : Connection) :
    (({ b with settings := store } : Browser).authorize u c database name : Exchange σ TableRef) =
      b.authorize u c database name :=
  (b.gate u).authorize_of_visible _ hname (b.maySee_of_agrees u h) ..

variable {q : TableRequest}

theorem prepare_of_agrees (h : b.settings.AgreesAt store q.database t) (hname : TableRef.ofText q.table = .ok t)
    (c : Connection) :
    (({ b with settings := store } : Browser).prepare u c q : Exchange σ Prepared) = b.prepare u c q := by
  unfold prepare
  rw [b.authorize_of_agrees u h hname]

theorem fetchPage_of_agrees (h : b.settings.AgreesAt store q.database t) (hname : TableRef.ofText q.table = .ok t)
    (page : Value) :
    (({ b with settings := store } : Browser).fetchPage u q page : Exchange σ _) = b.fetchPage u q page := by
  unfold fetchPage
  simp only [b.prepare_of_agrees u h hname]

theorem prepareCount_of_agrees (h : b.settings.AgreesAt store q.database t) (hname : TableRef.ofText q.table = .ok t) :
    (({ b with settings := store } : Browser).prepareCount u q : Exchange σ _) = b.prepareCount u q := by
  unfold prepareCount
  simp only [b.prepare_of_agrees u h hname]

end Browser

/-- What a table is asked for comes to the same, with the same effects. -/
theorem Desk.answer_of_agrees (d : Desk) (u : Requester) {q : Request} (hq : q.table? = some (database, name))
    (hname : TableRef.ofText name = .ok t) (h : d.settings.AgreesAt store database t) :
    (({ d with settings := store } : Desk).answer u q : Exchange σ Reply) = d.answer u q := by
  have hbrowser : ({ d with settings := store } : Desk).browser = { d.browser with settings := store } := rfl
  have hb : d.browser.settings.AgreesAt store database t := h
  cases q with
  | tables | block => cases hq
  | columns =>
      cases hq
      simp only [answer, Browser.listColumns, hbrowser, d.browser.authorize_of_agrees u hb hname]
  | rows q page =>
      cases hq
      simp only [answer, Browser.fetchRows, hbrowser, d.browser.fetchPage_of_agrees u hb hname]
  | exportCheck q =>
      cases hq
      simp only [answer, Browser.exportCheck, hbrowser]
      rw [d.browser.prepareCount_of_agrees u (q := { q with sort := [] }) hb hname]
  | exportPage q page patience =>
      cases hq
      simp only [answer, Browser.exportPage, hbrowser, d.browser.fetchPage_of_agrees u hb hname]
  | exportAll q patience =>
      cases hq
      simp only [answer, Browser.exportAll, hbrowser, d.browser.prepareCount_of_agrees u hb hname]

/-- What a listing shows of a table. -/
def shownOf (t : TableRef) (shown : List Value) : List Value :=
  shown.filter fun entry =>
    match entry.entry? "fullName" with
    | some (.text name) => name == t.fullName
    | _ => false

theorem Browser.shownOf_listing (b : Browser) (t : TableRef) (listing : List Listing) :
    shownOf t (listing.map (b.listingValue database)) =
      (listing.filter fun l => l.fullName == t.fullName).map (b.listingValue database) := by
  rw [shownOf, List.filter_map]
  rfl

/-- A listing shows the same of a table. -/
theorem Browser.listTables_of_agrees (b : Browser) (u : Requester) (h : b.settings.AgreesAt store database t) :
    (shownOf t <$> ({ b with settings := store } : Browser).listTables u database : Exchange σ _) =
      shownOf t <$> b.listTables u database := by
  have hsee := b.maySee_of_agrees u h
  have hshown : ∀ listing : List Listing,
      shownOf t ((listing.filter fun l => (b.gate u).mayRead database l.fullName &&
          ({ b.gate u with visible := some store.isVisible } : Gate).maySee database l.fullName).map
            (({ b with settings := store } : Browser).listingValue database)) =
        shownOf t ((listing.filter fun l => (b.gate u).mayRead database l.fullName &&
          (b.gate u).maySee database l.fullName).map (b.listingValue database)) := by
    intro listing
    rw [shownOf_listing, shownOf_listing, List.filter_filter, List.filter_filter]
    have hsame : ∀ l : Listing, l.fullName = t.fullName →
        ({ b with settings := store } : Browser).listingValue database l = b.listingValue database l := by
      intro l hl
      simp only [listingValue, hl]
      rw [h]
    have hfilter : (listing.filter fun l => l.fullName == t.fullName && ((b.gate u).mayRead database l.fullName &&
          ({ b.gate u with visible := some store.isVisible } : Gate).maySee database l.fullName)) =
        listing.filter fun l => l.fullName == t.fullName &&
          ((b.gate u).mayRead database l.fullName && (b.gate u).maySee database l.fullName) := by
      refine List.filter_congr fun l _ => ?_
      cases hl : l.fullName == t.fullName with
      | false => rfl
      | true => rw [eq_of_beq hl, hsee]
    rw [hfilter]
    refine List.map_congr_left fun l hl => hsame l ?_
    simpa using (Bool.and_eq_true_iff.mp (List.mem_filter.mp hl).2).1
  unfold listTables
  simp only [map_bind, map_pure]
  congr 1
  funext listing
  have hbrowsable : (({ b with settings := store } : Browser).gate u).browsable database listing =
      if (b.gate u).hasRoleName && (b.gate u).hasGrantKeys then
        .ok (listing.filter fun l => (b.gate u).mayRead database l.fullName &&
          ({ b.gate u with visible := some store.isVisible } : Gate).maySee database l.fullName)
      else .error .notAKey := rfl
  rw [hbrowsable, Gate.browsable]
  cases (b.gate u).hasRoleName && (b.gate u).hasGrantKeys with
  | false => rfl
  | true => exact congrArg (pure : List Value → Exchange σ (List Value)) (hshown listing)

end Shown

namespace Service

variable {σ : Type} [Server σ]

/-- Whoever posts settings is elevated. -/
theorem elevated_of_settingsPost? {s : Service σ} {r : Http.Request} {p : SettingsPost}
    (h : s.settingsPost? r = some p) : ∃ u, s.requester? r = some u ∧ s.isElevated u = true := by
  unfold settingsPost? at h
  split at h
  · split at h
    · rcases hadmin : (r.admin.runOn s).1 with f | response | q
      · simp [Http.postedBy, hadmin] at h
      · simp [Http.postedBy, hadmin] at h
      · exact ⟨q.user, (Http.admits_admin r s).fits q hadmin⟩
    · cases h
  · cases h

/-- The settings of a table of a database are those of the last post for it, or else those that were there before; a
table that never had any is visible.  As long as nothing is posted for the table itself, listings show the same of it,
and whatever it is asked for, by any of its names, comes to the same. -/
theorem settings_by_table (s : Service σ) (steps : List (HttpStep σ)) (database : String) (t : TableRef) :
    let after := s.afterRequests steps
    let posts := (s.settingsPosts steps).filter (·.isFor database t)
    after.settings.get database t.fullName =
        (posts.getLast?.map SettingsPost.settings).or (s.settings.get database t.fullName) ∧
      (posts = [] → s.settings.get database t.fullName = none →
        after.settings.isVisible database t.fullName = true) ∧
      (posts = [] → ∀ (d : Desk) (u : Requester), d.settings = s.settings →
        let later : Desk := { d with settings := after.settings }
        (∀ q name, q.table? = some (database, name) → TableRef.ofText name = .ok t →
          (later.answer u q : Exchange σ Reply) = d.answer u q) ∧
        (shownOf t <$> later.browser.listTables u database : Exchange σ (List Value)) =
          shownOf t <$> d.browser.listTables u database) := by
  intro after posts
  have hstored : after.settings.get database t.fullName =
      (posts.getLast?.map SettingsPost.settings).or (s.settings.get database t.fullName) := by
    rw [settings_afterRequests, SettingsStore.get_posts]
  have hsame : posts = [] → s.settings.AgreesAt after.settings database t := by
    intro hnone
    rw [SettingsStore.AgreesAt, hstored, hnone]
    rfl
  refine ⟨hstored, fun hnone hunset => ?_, ?_⟩
  · rw [(hsame hnone).isVisible, SettingsStore.isVisible, hunset]
  · intro hnone d u hd later
    have hagrees : d.settings.AgreesAt after.settings database t := hd ▸ hsame hnone
    exact ⟨fun q name hq hname => d.answer_of_agrees u hq hname hagrees, d.browser.listTables_of_agrees u hagrees⟩

/-- The orders are hidden, and then the lines of a database that is called like the key of the orders.  The lines are
hidden by their post, and of the orders everything shows as before. -/
theorem settings_by_table_of_orders :
    let root : User := ⟨"root", .text "root@example.com", .text "admin", true⟩
    let hidden : TableSettings := ⟨false, none, []⟩
    let orders : TableRef := ⟨TableRef.defaultSchema, ⟨"orders", by decide⟩⟩
    let lines : TableRef := ⟨TableRef.defaultSchema, ⟨"lines", by decide⟩⟩
    let s : Service Unit :=
      { bare with
        directory := .ofUsers [(root, [])]
        settings := (⟨[]⟩ : SettingsStore).set "Prod" orders.fullName hidden }
    let post : HttpStep Unit :=
      { request :=
          { method := "POST"
            path := "/api/admin/table-settings"
            user := some "root"
            body := Text.encode
              "\x7b\"database\": \"Prod:public.orders\", \"tableName\": \"lines\", \"isVisible\": false\x7d" }
        now := "2024-03-01", clock := .int 0, today := bare.today }
    let after := s.afterRequests [post]
    let d : Desk := ⟨s.policy, s.settings, s.blocks, 50, 1000, .int 30000⟩
    let later : Desk := { d with settings := after.settings }
    let u : Requester := ⟨root, [], .null⟩
    after.settings.get "Prod:public.orders" lines.fullName = some hidden ∧
      after.settings.get "Prod" orders.fullName = some hidden ∧
      after.settings.isVisible "Prod" lines.fullName = true ∧
      (later.answer u (.columns "Prod" "orders") : Exchange Unit Reply) = d.answer u (.columns "Prod" "orders") ∧
      (shownOf orders <$> later.browser.listTables u "Prod" : Exchange Unit (List Value)) =
        shownOf orders <$> d.browser.listTables u "Prod" := by
  intro root hidden orders lines s post after d later u
  have hposts : s.settingsPosts [post] = [⟨"Prod:public.orders", lines, hidden⟩] := by decide +kernel
  have hnone : ∀ t, (s.settingsPosts [post]).filter (·.isFor "Prod" t) = [] := by
    intro t
    rw [hposts]
    rfl
  have hlines := (settings_by_table s [post] "Prod:public.orders" lines).1
  rw [hposts] at hlines
  obtain ⟨horders, -, hshown⟩ := settings_by_table s [post] "Prod" orders
  obtain ⟨hanswer, hlisted⟩ := hshown (hnone orders) d u rfl
  rw [hnone orders] at horders
  exact ⟨hlines, horders, (settings_by_table s [post] "Prod" lines).2.1 (hnone lines) rfl,
    hanswer _ _ rfl rfl, hlisted⟩

end Service

end TableSteward

import TableSteward.Proofs.Ownership

/-!
# Who changes what

Requests arrive one after the other, and meanwhile time passes and the databases become what they like.  Whatever a
client sends, definitions and settings change only by a request of an elevated user, and a history or the blocks of a
user only by a request of that user.  What is declined and what only gets something changes no store.
-/
set_option autoImplicit false

namespace TableSteward

theorem Action.runOn_tryCatch {σ α : Type} (x : Action σ α) (g : Fault → Action σ α) (s : Service σ) :
    (tryCatch x g : Action σ α).runOn s =
      match x.runOn s with
      | (.ok a, t) => (.ok a, t)
      | (.error f, t) => (g f).runOn t := by
  unfold runOn
  rw [ExceptT.run_tryCatch, StateT.run_bind]
  rcases StateT.run (ExceptT.run x) s with ⟨r, t⟩
  cases r <;> rfl

namespace Http

variable {σ : Type} [Server σ]

/-! ## Routes -/

omit [Server σ] in
theorem of_routeAmong {method path : String} {e : Endpoint σ} {places : List String} :
    ∀ {es : List (Endpoint σ)}, routeAmong method path es = .found e places → e ∈ es ∧ e.method = method := by
  intro es
  induction es with
  | nil => exact fun h => nomatch h
  | cons d rest ih =>
      intro h
      rw [routeAmong] at h
      split at h
      · exact (ih h).imp_left (List.mem_cons_of_mem _)
      · split at h
        · rename_i hmethod
          cases h
          exact ⟨List.mem_cons_self .., eq_of_beq hmethod⟩
        · split at h
          · exact nomatch h
          · exact (ih h).imp_left (List.mem_cons_of_mem _)

theorem of_route {method path : String} {e : Endpoint σ} {places : List String}
    (h : route method path = .found e places) :
    e ∈ endpoints ∧ e.method = method := by
  rw [route] at h
  split at h
  · exact of_routeAmong h
  · exact of_routeAmong h

/-! ## Answers -/

theorem runOn_respond (r : Request) (s : Service σ) :
    (respond r).runOn s =
      match (route (Text.upper r.method) r.path : Routing σ) with
      | .unknown => (.ok .notFound, s)
      | .wrongMethod => (.ok .methodNotAllowed, s)
      | .found e places => (settled ((e.answer r places).runOn s).1, ((e.answer r places).runOn s).2) := by
  rw [respond]
  cases (route (Text.upper r.method) r.path : Routing σ) with
  | unknown => rfl
  | wrongMethod => rfl
  | found e places =>
      have hanswer : (e.answer r places).run.runOn s = (e.answer r places).runOn s := rfl
      simp only [Action.runOn_tryCatch, Action.runOn_bind, hanswer]
      rcases (e.answer r places).runOn s with ⟨f | ⟨response | response⟩, t⟩
      · cases f <;> rfl
      · rfl
      · rfl

/-- An answer that can be sent. -/
def sent : Result Response → Result Response
  | .ok response => if response.isSendable then .ok response else .error .notEncodableText
  | .error f => .error f

theorem runOn_serve (r : Request) (s : Service σ) :
    (serve r).runOn s = (sent ((respond r).runOn s).1, ((respond r).runOn s).2) := by
  rw [serve, Action.runOn_bind]
  rcases (respond r).runOn s with ⟨f | response, t⟩
  · rfl
  · simp only [sent]
    split <;> rfl

/-! ## Conduct -/

/-- What the requester of a request may have done. -/
def Permits (s : Service σ) (r : Request) (c : StoreCommand) : Prop :=
  Text.upper r.method ≠ "GET" ∧ ∃ u, s.requester? r = some u ∧
    (c.owner? = some (.text u.id) ∨ (c.owner? = none ∧ s.isElevated u = true))

omit [Server σ] in
/-- A body that cannot be read is all that is answered to, or the endpoint responds. -/
theorem Endpoint.answer_cases (e : Endpoint σ) (r : Request) (places : List String) :
    (e.answer r places).Stateless ∨
      ∃ body, ∀ s, Handler.runOn (e.answer r places) s = Handler.runOn (e.respond r places body) s := by
  cases hreads : e.readsBody with
  | false =>
      refine .inr ⟨none, fun s => ?_⟩
      rw [Endpoint.answer, hreads]
      rfl
  | true =>
      obtain ⟨outcome, hbody⟩ := Handler.stateless_document (σ := σ) r
      have hanswer : e.answer r places = r.document >>= e.respond r places := by
        rw [Endpoint.answer, hreads]
        rfl
      rcases outcome with f | ⟨response | body⟩
      · exact .inl ⟨.error f, fun s => by rw [hanswer, Handler.runOn_bind, hbody]⟩
      · exact .inl ⟨.ok (.error response), fun s => by rw [hanswer, Handler.runOn_bind, hbody]⟩
      · exact .inr ⟨body, fun s => by rw [hanswer, Handler.runOn_bind, hbody]⟩

theorem Endpoint.Lawful.conduct {e : Endpoint σ} (he : e.Lawful) {r : Request}
    (hmethod : e.method = Text.upper r.method)
    (places : List String) (s : Service σ) : Conduct (Permits s r) s (Handler.runOn (e.answer r places) s) := by
  rcases e.answer_cases r places with hstateless | ⟨body, hrun⟩
  · exact .quiet (hstateless.quiet s)
  rw [hrun]
  cases he with
  | forEveryone hpattern h => exact .quiet ((h r places body).quiet s)
  | forUsers hpattern hrespond h =>
      obtain ⟨hasked, hfits⟩ := admits_requester r s
      rw [hrespond, Handler.runOn_bind]
      rcases hrun : Handler.runOn r.requester s with ⟨f | ⟨response | q⟩, t⟩ <;> rw [hrun] at hasked hfits
      · exact .quiet hasked.quiet
      · exact .quiet hasked.quiet
      · refine ((h r places body q t).after hasked.quiet).weaken fun c hc => ?_
        exact ⟨hmethod ▸ hc.2, q.user, hfits q rfl, .inl hc.1⟩
  | forAdmins hrespond h =>
      obtain ⟨hasked, hfits⟩ := admits_admin r s
      rw [hrespond, Handler.runOn_bind]
      rcases hrun : Handler.runOn r.admin s with ⟨f | ⟨response | q⟩, t⟩ <;> rw [hrun] at hasked hfits
      · exact .quiet hasked.quiet
      · exact .quiet hasked.quiet
      · refine ((h r places body q t).after hasked.quiet).weaken fun c hc => ?_
        exact ⟨hmethod ▸ hc.2, q.user, (hfits q rfl).1, .inr ⟨hc.1, (hfits q rfl).2⟩⟩

/-- Nobody may enter: no active user is named, or the route is one of administrators and the user is none. -/
def Unadmitted (s : Service σ) (r : Request) : Prop :=
  s.requester? r = none ∨
    ∃ (e : Endpoint σ) (places : List String), route (Text.upper r.method) r.path = .found e places ∧
      e.pattern ∈ adminPatterns ∧ ∀ u, s.requester? r = some u → s.isElevated u = false

theorem Endpoint.Lawful.inquired {e : Endpoint σ} (he : e.Lawful) {r : Request} {s : Service σ}
    (hun : s.requester? r = none ∨ (e.pattern ∈ adminPatterns ∧ ∀ u, s.requester? r = some u → s.isElevated u = false))
    (places : List String) : s.Inquired (Handler.runOn (e.answer r places) s).2 := by
  rcases e.answer_cases r places with ⟨outcome, hrun⟩ | ⟨body, hrun⟩ <;> rw [hrun]
  · exact .refl s
  cases he with
  | forEveryone hpattern h =>
      obtain ⟨outcome, hrun⟩ := h r places body
      rw [hrun]
      exact .refl s
  | forUsers hpattern hrespond h =>
      have hnone : s.requester? r = none := hun.resolve_right fun h => hpattern h.1
      obtain ⟨hasked, hfits⟩ := admits_requester r s
      rw [hrespond, Handler.runOn_bind]
      rcases hrun : Handler.runOn r.requester s with ⟨f | ⟨response | q⟩, t⟩ <;> rw [hrun] at hasked hfits
      · exact hasked
      · exact hasked
      · exact nomatch hnone.symm.trans (hfits q rfl)
  | forAdmins hrespond h =>
      obtain ⟨hasked, hfits⟩ := admits_admin r s
      rw [hrespond, Handler.runOn_bind]
      rcases hrun : Handler.runOn r.admin s with ⟨f | ⟨response | q⟩, t⟩ <;> rw [hrun] at hasked hfits
      · exact hasked
      · exact hasked
      · obtain ⟨hnamed, helevated⟩ := hfits q rfl
        rcases hun with hnone | ⟨-, hplain⟩
        · exact nomatch hnone.symm.trans hnamed
        · exact nomatch (hplain q.user hnamed).symm.trans helevated

theorem Unadmitted.inquired {s : Service σ} {r : Request} (h : Unadmitted s r) : s.Inquired ((serve r).runOn s).2 := by
  rw [runOn_serve, runOn_respond]
  cases hroute : (route (Text.upper r.method) r.path : Routing σ) with
  | unknown => exact .refl s
  | wrongMethod => exact .refl s
  | found e places =>
      apply (lawful_endpoints e (of_route hroute).1).inquired
      rcases h with hnone | ⟨e', places', hroute', hpattern, hplain⟩
      · exact .inl hnone
      · cases hroute.symm.trans hroute'
        exact .inr ⟨hpattern, hplain⟩

/-- What a request comes to: the stores are left alone, or one operation that the requester may have done has changed
its store, and the answer, if there is one, is no refusal. -/
inductive Served (C : StoreCommand → Prop) (s : Service σ) : Result Response × Service σ → Prop
  | quiet {outcome : Result Response} {t : Service σ} (h : s.Quiet t) : Served C s (outcome, t)
  | changed {outcome : Result Response} {c : StoreCommand} (hc : C c) {m : Service σ} (hm : s.Quiet m)
      {a : StoreAnswer} {u : Service σ} (heffect : c.effect m = .changed a u)
      (houtcome : ∀ response, outcome = .ok response → response.status < 400) :
      Served C s (outcome, (c.store.written a u).2)

theorem status_of_sent {outcome : Result (Except Response Response)} (h : ¬ Declines outcome) {response : Response}
    (hsent : sent (settled outcome) = .ok response) : response.status < 400 := by
  cases houtcome : settled outcome with
  | error f =>
      rw [houtcome] at hsent
      exact nomatch hsent
  | ok answer =>
      rw [houtcome, sent] at hsent
      split at hsent
      · cases hsent
        exact not_le.mp fun hstatus => h ⟨_, houtcome, hstatus⟩
      · exact nomatch hsent

theorem served (r : Request) (s : Service σ) : Served (Permits s r) s ((serve r).runOn s) := by
  rw [runOn_serve, runOn_respond]
  cases hroute : (route (Text.upper r.method) r.path : Routing σ) with
  | unknown => exact .quiet (.refl s)
  | wrongMethod => exact .quiet (.refl s)
  | found e places =>
      obtain ⟨hmem, hmethod⟩ := of_route hroute
      have hconduct := (lawful_endpoints e hmem).conduct hmethod places s
      dsimp only
      generalize Handler.runOn (e.answer r places) s = run at hconduct
      cases hconduct with
      | quiet h => exact .quiet h
      | changed hc hm heffect houtcome => exact .changed hc hm heffect fun _ => status_of_sent houtcome

end Http

/-! ## Runs of requests -/

/-- A request that comes in at some time, when the databases have become what they like. -/
structure HttpStep (σ : Type) where
  request : Http.Request
  now : String
  clock : Number
  today : Date
  writable : Bool := true
  meanwhile : σ → σ := id

namespace HttpStep

variable {σ : Type}

def start (c : HttpStep σ) (s : Service σ) : Service σ :=
  { s with
    now := c.now
    clock := c.clock
    today := c.today
    writable := c.writable
    link := { s.link with server := c.meanwhile s.link.server } }

def run [Server σ] (c : HttpStep σ) (s : Service σ) : Result Http.Response × Service σ :=
  (Http.serve c.request).runOn (c.start s)

end HttpStep

namespace Service

variable {σ : Type} {s t : Service σ}

/-- The stores and their files are the same. -/
structure SameStores (s t : Service σ) : Prop where
  definitions : t.definitions = s.definitions
  settings : t.settings = s.settings
  history : t.history = s.history
  blocks : t.blocks = s.blocks
  files : t.files = s.files

theorem Quiet.sameStores (h : s.Quiet t) : s.SameStores t := by
  obtain ⟨link, cache, ids, rfl, -⟩ := h
  exact ⟨rfl, rfl, rfl, rfl, rfl⟩

variable [Server σ]

def afterRequests (s : Service σ) (steps : List (HttpStep σ)) : Service σ := steps.foldl (fun s c => (c.run s).2) s

/-- What a request may change, by who asks. -/
structure Governed (s : Service σ) (r : Http.Request) (outcome : Result Http.Response) (t : Service σ) : Prop where
  /-- Definitions and settings, in memory or in their files, change by requests of elevated users. -/
  shared : ¬ (t.definitions = s.definitions ∧ t.settings = s.settings ∧
      t.files.get? DefinitionStore.fileName = s.files.get? DefinitionStore.fileName ∧
      t.files.get? SettingsStore.fileName = s.files.get? SettingsStore.fileName) →
    ∃ u, s.requester? r = some u ∧ s.isElevated u = true
  history : ∀ user, t.history.ofUser user ≠ s.history.ofUser user → ∃ u, s.requester? r = some u ∧ u.id = user
  blocks : ∀ user, t.blocks.ownedBy user ≠ s.blocks.ownedBy user → ∃ u, s.requester? r = some u ∧ u.id = user
  declined : ∀ response, outcome = .ok response → 400 ≤ response.status → s.SameStores t
  got : Text.upper r.method = "GET" → s.SameStores t
  unadmitted : Http.Unadmitted s r → s.SameStores t ∧ t.cache = s.cache ∧ s.link.Inquires t.link

theorem governed (hfresh : s.FreshIds) (r : Http.Request) :
    Governed s r ((Http.serve r).runOn s).1 ((Http.serve r).runOn s).2 := by
  have hserved := Http.served r s
  have hunadmitted : Http.Unadmitted s r →
      s.SameStores ((Http.serve r).runOn s).2 ∧ ((Http.serve r).runOn s).2.cache = s.cache ∧
        s.link.Inquires ((Http.serve r).runOn s).2.link := by
    intro h
    have hinquired := h.inquired
    refine ⟨hinquired.quiet.sameStores, ?_⟩
    obtain ⟨link, hs, hlink⟩ := hinquired
    rw [hs]
    exact ⟨rfl, hlink⟩
  generalize (Http.serve r).runOn s = run at hserved hunadmitted
  cases hserved with
  | quiet h =>
      obtain ⟨hdefinitions, hsettings, hhistory, hblocks, hfiles⟩ := h.sameStores
      exact
        { shared := fun hchanged => absurd ⟨hdefinitions, hsettings, by rw [hfiles], by rw [hfiles]⟩ hchanged
          history := fun user hchanged => absurd (by rw [hhistory]) hchanged
          blocks := fun user hchanged => absurd (by rw [hblocks]) hchanged
          declined := fun _ _ _ => h.sameStores
          got := fun _ => h.sameStores
          unadmitted := hunadmitted }
  | @changed outcome c hc m hm a u heffect houtcome =>
      obtain ⟨hget, who, hwho, hallowed⟩ := hc
      have hfreshm := hfresh.quiet hm
      obtain ⟨hdefinitions, hsettings, hhistory, hblocks, hfiles⟩ := hm.sameStores
      have hu : (c.effect m).service = u := by rw [heffect, StoreEffect.service_changed]
      have hkept := c.store.written_snd a u
      have hother : ∀ user, ¬ (∃ w, s.requester? r = some w ∧ w.id = user) → c.owner? ≠ some (.text user) := by
        intro user hnone howner
        rcases hallowed with hown | ⟨hnobody, -⟩
        · exact hnone ⟨who, hwho, Value.text.inj (Option.some.inj (hown.symm.trans howner))⟩
        · exact nomatch hnobody.symm.trans howner
      refine
        { shared := fun hchanged => ?_
          history := fun user hchanged => ?_
          blocks := fun user hchanged => ?_
          declined := fun response hresponse hstatus => absurd hstatus (not_le.mpr (houtcome response hresponse))
          got := fun hget' => absurd hget' hget
          unadmitted := hunadmitted }
      · rcases hallowed with hown | ⟨-, helevated⟩
        · refine absurd ?_ hchanged
          have howned : c.owner? ≠ none := by
            rw [hown]
            exact nofun
          obtain ⟨hsame, hsame'⟩ := shared_effect howned m
          rw [hu] at hsame hsame'
          have hfile : ∀ k : StoreKind, k ≠ c.store → (c.store.written a u).2.files.get? k.fileName =
              s.files.get? k.fileName := by
            intro k hk
            rw [StoreKind.files_written_of_ne hk, ← hu, (c.files_effect m).1, hfiles]
          rw [hkept]
          refine ⟨hsame.trans hdefinitions, hsame'.trans hsettings, hfile .definitions ?_, hfile .settings ?_⟩
          all_goals
            cases c with
            | setDefinitions | setSettings => exact absurd rfl howned
            | _ => exact nofun
        · exact ⟨who, hwho, helevated⟩
      · by_contra hnone
        have hsame := history_effect hfreshm (hother user hnone)
        rw [hu, hhistory] at hsame
        rw [hkept] at hchanged
        exact hchanged hsame
      · by_contra hnone
        have hsame := blocks_effect hfreshm (hother user hnone)
        rw [hu, hblocks] at hsame
        rw [hkept] at hchanged
        exact hchanged hsame

theorem FreshIds.serve (h : s.FreshIds) (r : Http.Request) : ((Http.serve r).runOn s).2.FreshIds := by
  have hserved := Http.served r s
  generalize (Http.serve r).runOn s = run at hserved
  cases hserved with
  | quiet hquiet => exact h.quiet hquiet
  | @changed outcome c hc m hm a u heffect houtcome =>
      have heffects := (h.quiet hm).effect c
      rw [heffect, StoreEffect.service_changed] at heffects
      rw [c.store.written_snd]
      exact heffects.withFiles _

theorem FreshIds.run (h : s.FreshIds) (c : HttpStep σ) : (c.run s).2.FreshIds :=
  FreshIds.serve (s := c.start s) ⟨h.history, h.blocks, h.unused⟩ c.request

/-- Something that holds of every step of a run, in the service as the step finds it. -/
def EachStep (P : Service σ → HttpStep σ → Prop) : Service σ → List (HttpStep σ) → Prop
  | _, [] => True
  | s, c :: steps => P s c ∧ EachStep P (c.run s).2 steps

/-- What no step of a run changes is the same after the run. -/
theorem EachStep.unchanged {α : Type} {f : Service σ → α} {P : Service σ → HttpStep σ → Prop}
    (hstep : ∀ s : Service σ, s.FreshIds → ∀ c, P s c → f (c.run s).2 = f s) {steps : List (HttpStep σ)} :
    ∀ {s : Service σ}, s.FreshIds → EachStep P s steps → f (s.afterRequests steps) = f s := by
  induction steps with
  | nil => exact fun _ _ => rfl
  | cons c steps ih => exact fun hfresh h => (ih (hfresh.run c) h.2).trans (hstep _ hfresh c h.1)

/-- Every step of a run is governed by who asks.  So a run changes nothing of a user who asks for nothing, and no
definitions and settings unless an elevated user asks. -/
theorem governed_run (s : Service σ) (hfresh : s.FreshIds) (steps : List (HttpStep σ)) :
    EachStep (fun s c => Governed (c.start s) c.request (c.run s).1 (c.run s).2) s steps ∧
      (∀ user, EachStep (fun s c => ∀ u, (c.start s).requester? c.request = some u → u.id ≠ user) s steps →
        (s.afterRequests steps).history.ofUser user = s.history.ofUser user ∧
          (s.afterRequests steps).blocks.ownedBy user = s.blocks.ownedBy user) ∧
      (EachStep (fun s c => ∀ u, (c.start s).requester? c.request = some u → (c.start s).isElevated u = false) s steps →
        (s.afterRequests steps).definitions = s.definitions ∧ (s.afterRequests steps).settings = s.settings) := by
  have hgoverned : ∀ s : Service σ, s.FreshIds → ∀ c : HttpStep σ,
      Governed (c.start s) c.request (c.run s).1 (c.run s).2 :=
    fun s hfresh c => governed (s := c.start s) ⟨hfresh.history, hfresh.blocks, hfresh.unused⟩ c.request
  refine ⟨?_, fun user h => ?_, fun h => ?_⟩
  · induction steps generalizing s with
    | nil => trivial
    | cons c steps ih => exact ⟨hgoverned s hfresh c, ih _ (hfresh.run c)⟩
  · have hsame := h.unchanged
      (f := fun s => (s.history.ofUser user, s.blocks.ownedBy user)) (fun s hfresh c hothers => ?_) hfresh
    · exact Prod.mk.inj hsame
    · have hnobody : ¬ ∃ u, (c.start s).requester? c.request = some u ∧ u.id = user :=
        fun ⟨u, hu, hid⟩ => hothers u hu hid
      exact Prod.ext (not_not.mp fun hchanged => hnobody ((hgoverned s hfresh c).history user hchanged))
        (not_not.mp fun hchanged => hnobody ((hgoverned s hfresh c).blocks user hchanged))
  · have hsame := h.unchanged
      (f := fun s => (s.definitions, s.settings)) (fun s hfresh c hplain => ?_) hfresh
    · exact Prod.mk.inj hsame
    · by_contra hchanged
      obtain ⟨u, hu, helevated⟩ := (hgoverned s hfresh c).shared fun h => hchanged (Prod.ext h.1 h.2.1)
      exact nomatch (hplain u hu).symm.trans helevated

/-- An analyst makes a block: nothing of another user changes, and no definitions and settings. -/
theorem governed_run_of_analyst :
    let ann : User := ⟨"ann", .text "ann@example.com", .text "analyst", true⟩
    let s : Service Unit := { bare with directory := .ofUsers [(ann, [])] }
    let block : Http.Request :=
      { method := "POST"
        path := "/api/reports/blocks"
        user := some "ann"
        body := Text.encode "\x7b\"kind\": \"text\"\x7d" }
    let steps : List (HttpStep Unit) :=
      [{ request := block, now := "2024-03-01", clock := .int 0, today := bare.today }]
    s.FreshIds ∧ (s.afterRequests steps).history.ofUser "ben" = s.history.ofUser "ben" ∧
      (s.afterRequests steps).blocks.ownedBy "ben" = s.blocks.ownedBy "ben" ∧
      (s.afterRequests steps).definitions = s.definitions ∧ (s.afterRequests steps).settings = s.settings := by
  intro ann s block steps
  have hfresh : s.FreshIds := ⟨List.nodup_nil, List.nodup_nil, fun _ _ h => nomatch h⟩
  obtain ⟨-, hothers, hshared⟩ := governed_run s hfresh steps
  have hann : ∀ c ∈ steps, (c.start s).requester? c.request = some ann := by
    intro c hc
    obtain rfl := List.mem_singleton.mp hc
    rfl
  have hnamed : ∀ c ∈ steps, ∀ u, (c.start s).requester? c.request = some u → u = ann :=
    fun c hc u hu => Option.some.inj (hu.symm.trans (hann c hc))
  have hnotBen : EachStep (fun s c => ∀ u, (c.start s).requester? c.request = some u → u.id ≠ "ben") s steps := by
    refine ⟨fun u hu => ?_, trivial⟩
    obtain rfl := hnamed _ (List.mem_singleton.mpr rfl) u hu
    decide
  have hplain : EachStep (fun s c => ∀ u, (c.start s).requester? c.request = some u →
      (c.start s).isElevated u = false) s steps := by
    refine ⟨fun u hu => ?_, trivial⟩
    obtain rfl := hnamed _ (List.mem_singleton.mpr rfl) u hu
    decide +kernel
  obtain ⟨hhistory, hblocks⟩ := hothers "ben" hnotBen
  obtain ⟨hdefinitions, hsettings⟩ := hshared hplain
  exact ⟨hfresh, hhistory, hblocks, hdefinitions, hsettings⟩

end Service

end TableSteward

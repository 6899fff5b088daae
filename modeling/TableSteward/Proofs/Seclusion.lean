import TableSteward.Proofs.Authority
import TableSteward.Proofs.OthersBlocks

/-!
# What blocks of others show

A user makes, lists, runs and deletes blocks of two services that differ in the blocks of others only.  Step by step the
services stay so, and the user is answered the same: whatever changes no block in one is answered the same in the other,
and if the blocks of others can be written everything is.  The blocks of others are never touched.
-/
set_option autoImplicit false

namespace TableSteward

open Http

namespace Service

variable {σ : Type} {s t : Service σ} {user : String}

theorem Secluded.link (h : Secluded user s t) : t.link = s.link := by
  rw [h.same]

theorem Secluded.withLink (h : Secluded user s t) (link : Link σ) :
    Secluded user { s with link := link } { t with link := link } :=
  ⟨by rw [h.same], h.own, ⟨h.left.1.quiet (.withLink s link), h.left.2⟩,
    ⟨h.right.1.quiet (.withLink t link), h.right.2⟩⟩

/-- Two runs that come to the same and change the link alike, and nothing else. -/
def Concur {α : Type} (s t : Service σ) (run run' : Result α × Service σ) : Prop :=
  ∃ outcome link, run = (outcome, { s with link := link }) ∧ run' = (outcome, { t with link := link })

theorem Concur.secludes {α : Type} {run run' : Result α × Service σ} (h : Concur s t run run')
    (hst : Secluded user s t) : Secludes user s t run run' := by
  obtain ⟨outcome, link, rfl, rfl⟩ := h
  exact ⟨hst.withLink link, fun _ => rfl, fun _ _ => rfl⟩

end Service

/-! ## Handlers -/

namespace Http.Handler

open Service

variable {σ α β : Type} {user : String}

/-- A handler that does the same to services that differ in the blocks of others, and changes the link only. -/
def Agrees (user : String) (h : Handler σ α) : Prop :=
  ∀ s t, Secluded user s t → Concur s t (runOn h s) (runOn h t)

theorem Stateless.agrees {h : Handler σ α} (hh : h.Stateless) : h.Agrees user := by
  obtain ⟨outcome, hrun⟩ := hh
  intro s t hst
  refine ⟨outcome, s.link, hrun s, ?_⟩
  rw [hrun, ← hst.link]

theorem agrees_link (x : Exchange σ α) : Agrees user (link x) := by
  intro s t hst
  refine ⟨(x.runOn s.link).1.map .ok, (x.runOn s.link).2, runOn_link x s, ?_⟩
  rw [runOn_link, hst.link]

theorem Agrees.bind {h : Handler σ α} {k : α → Handler σ β} (hh : h.Agrees user) (hk : ∀ a, (k a).Agrees user) :
    (h >>= k).Agrees user := by
  intro s t hst
  obtain ⟨outcome, link, hrun, hrun'⟩ := hh s t hst
  rw [runOn_bind, runOn_bind, hrun, hrun']
  rcases outcome with f | ⟨r | a⟩
  · exact ⟨_, link, rfl, rfl⟩
  · exact ⟨_, link, rfl, rfl⟩
  · exact hk a _ _ (hst.withLink link)

/-- Of the state a handler may look at what blocks of others have no part in. -/
theorem agrees_state {f : Service σ → β} (hf : ∀ s t, Secluded user s t → f t = f s) {k : β → Handler σ α}
    (hk : ∀ b, (k b).Agrees user) : Agrees user (state >>= fun s => k (f s)) := by
  intro s t hst
  rw [runOn_bind, runOn_bind, runOn_state, runOn_state]
  dsimp only
  rw [hf s t hst]
  exact hk (f s) s t hst

/-- A handler at which the blocks of others make no difference if they can be written. -/
def Secluding (user : String) (h : Handler σ α) : Prop :=
  ∀ s t, Secluded user s t → Secludes user s t (runOn h s) (runOn h t)

theorem Agrees.thenSecluding {h : Handler σ α} {k : α → Handler σ β} (hh : h.Agrees user)
    (hk : ∀ a, (k a).Secluding user) : (h >>= k).Secluding user := by
  intro s t hst
  obtain ⟨outcome, link, hrun, hrun'⟩ := hh s t hst
  rw [runOn_bind, runOn_bind, hrun, hrun']
  rcases outcome with f | ⟨r | a⟩
  · exact ⟨hst.withLink link, fun _ => rfl, fun _ _ => rfl⟩
  · exact ⟨hst.withLink link, fun _ => rfl, fun _ _ => rfl⟩
  · exact (hk a _ _ (hst.withLink link)).before rfl rfl

/-- An operation on the blocks, with an answer that is made of its result alone. -/
theorem secluding_act {x : Action σ α} {c : StoreCommand} {f : α → StoreAnswer} (hf : Function.Injective f)
    (hperform : c.perform = f <$> x) (hstore : c.store = .blocks) (howner : c.owner? = some (.text user))
    {finish : α → Handler σ β} (hfinish : ∀ a, (finish a).Stateless) : (act x >>= finish).Secluding user := by
  intro s t hst
  obtain ⟨hafter, hunchanged, hencodable⟩ := hst.perform hstore howner
  obtain ⟨outcome, -, hact⟩ := runOn_act_bind x hfinish
  rw [hperform, Action.runOn_map, Action.runOn_map] at hafter hunchanged hencodable
  rw [hact, hact]
  refine ⟨hafter, fun hblocks => ?_, fun hs ht => ?_⟩
  · rw [Result.map_injective hf (hunchanged hblocks)]
  · rw [Result.map_injective hf (hencodable hs ht)]

end Http.Handler

/-! ## Endpoints -/

namespace Http

open Service Handler

variable {σ : Type} [Server σ] {s t : Service σ} {user : String}

omit [Server σ] in
theorem agrees_lookUp {α : Type} (stored : Exchange σ α) (named : Directory → α) :
    Agrees user (act do
      let s ← get
      if s.usersStored then Action.onLink stored else return named s.directory) := by
  intro s t hst
  have hsame := hst.same
  rw [runOn_act, runOn_act]
  simp only [Action.runOn_bind, Action.runOn_get]
  rw [hsame]
  cases s.usersStored with
  | true => exact ⟨_, _, rfl, rfl⟩
  | false => exact ⟨_, s.link, rfl, rfl⟩

theorem agrees_requester (r : Request) : Agrees user (r.requester : Handler σ Requester) := by
  rw [Request.requester]
  split
  · exact (stateless_answer _).agrees
  · rename_i id _
    have hactive : Agrees user (activeUser id : Handler σ User) := by
      refine (agrees_lookUp (StoredDirectory.user? id) (·.user? id)).bind fun found => ?_
      split
      · exact (stateless_answer _).agrees
      · split
        · exact (stateless_pure _).agrees
        · exact (stateless_answer _).agrees
    refine hactive.bind fun u => ?_
    refine (agrees_lookUp (StoredDirectory.grantsFor u.id) (·.grantsFor u.id)).bind fun grants => ?_
    exact (stateless_pure _).agrees

/-- On the way in the same happens, until the user is let in. -/
theorem Endpoint.answer_secluded {e : Endpoint σ}
    {k : Request → List String → Option Value → Requester → Handler σ Response}
    (hrespond : ∀ r places body, e.respond r places body = r.requester >>= k r places body)
    (hst : Secluded user s t) {r : Request} (hasks : ∀ w, s.requester? r = some w → w.id = user)
    (places : List String) :
    Concur s t ((e.answer r places).runOn s) ((e.answer r places).runOn t) ∨
      ∃ body q link, q.user.id = user ∧
        (e.answer r places).runOn s = (k r places body q).runOn { s with link := link } ∧
        (e.answer r places).runOn t = (k r places body q).runOn { t with link := link } := by
  rcases e.answer_cases r places with hstateless | ⟨body, hanswer⟩
  · exact .inl (hstateless.agrees s t hst)
  rw [hanswer, hanswer, hrespond]
  have hfits := (admits_requester r s).fits
  obtain ⟨outcome, link, hrun, hrun'⟩ := agrees_requester r s t hst
  rw [hrun] at hfits
  rw [runOn_bind, runOn_bind, hrun, hrun']
  rcases outcome with f | ⟨response | q⟩
  · exact .inl ⟨_, link, rfl, rfl⟩
  · exact .inl ⟨_, link, rfl, rfl⟩
  · exact .inr ⟨body, q, link, hasks q.user (hfits q rfl), rfl, rfl⟩

/-- An endpoint at which the blocks of others make no difference, and which leaves all blocks alone. -/
def Endpoint.Reads (e : Endpoint σ) : Prop :=
  ∀ {user : String} {s t : Service σ}, Secluded user s t →
    ∀ r places, (∀ w, s.requester? r = some w → w.id = user) →
      Concur s t ((e.answer r places).runOn s) ((e.answer r places).runOn t)

/-- An endpoint at which the blocks of others make no difference if they can be written. -/
def Endpoint.Secludes (e : Endpoint σ) : Prop :=
  ∀ {user : String} {s t : Service σ}, Secluded user s t →
    ∀ r places, (∀ w, s.requester? r = some w → w.id = user) →
      Service.Secludes user s t ((e.answer r places).runOn s) ((e.answer r places).runOn t)

theorem Endpoint.Reads.secludes {e : Endpoint σ} (he : e.Reads) : e.Secludes :=
  fun hst r places hasks => (he hst r places hasks).secludes hst

theorem Endpoint.reads {e : Endpoint σ} {k : Request → List String → Option Value → Requester → Handler σ Response}
    (hrespond : ∀ r places body, e.respond r places body = r.requester >>= k r places body)
    (hk : ∀ r places body (q : Requester), (k r places body q).Agrees q.user.id) : e.Reads := by
  intro user s t hst r places hasks
  rcases Endpoint.answer_secluded hrespond hst hasks places with hconcur | ⟨body, q, link, hq, hrun, hrun'⟩
  · exact hconcur
  · rw [hrun, hrun']
    exact hk r places body q _ _ (hq.symm ▸ hst.withLink link)

theorem Endpoint.secludes {e : Endpoint σ} {k : Request → List String → Option Value → Requester → Handler σ Response}
    (hrespond : ∀ r places body, e.respond r places body = r.requester >>= k r places body)
    (hk : ∀ r places body (q : Requester), (k r places body q).Secluding q.user.id) : e.Secludes := by
  intro user s t hst r places hasks
  rcases Endpoint.answer_secluded hrespond hst hasks places with hconcur | ⟨body, q, link, hq, hrun, hrun'⟩
  · exact hconcur.secludes hst
  · subst hq
    rw [hrun, hrun']
    exact (hk r places body q _ _ (hst.withLink link)).before rfl rfl

theorem reads_ownBlocks : (Endpoint.get (path ["api", "reports", "blocks"]) ownBlocks : Endpoint σ).Reads :=
  Endpoint.reads (fun _ _ _ => rfl) fun _ _ _ q =>
    agrees_state (f := fun s => s.blocks.ownedBy q.user.id) (fun _ _ hst => hst.own)
      (k := fun blocks => succeed (.list (blocks.map ReportBlock.toValue))) fun _ => (stateless_succeed _).agrees

theorem reads_runBlock :
    (Endpoint.post (path ["api", "reports", "blocks", "*", "run"]) runBlock : Endpoint σ).Reads := by
  refine Endpoint.reads (fun _ _ _ => rfl) fun _ places _ q => ?_
  refine (stateless_inOptionalBody _ _ _).agrees.bind fun page => ?_
  refine agrees_state (f := fun s => s.reporter.runBlock s.blocks q (place places 0) (.int page))
    (fun s t hst => ?_) (k := fun run => link run >>= succeed) fun _ =>
      (agrees_link _).bind fun _ => (stateless_succeed _).agrees
  have hreporter : t.reporter = s.reporter := by rw [hst.same]; rfl
  have howned : Reporter.ownedBlock t.blocks q (place places 0) = Reporter.ownedBlock s.blocks q (place places 0) := by
    rw [BlockStore.ownedBlock_eq, BlockStore.ownedBlock_eq,
      BlockStore.get_filter_congr hst.left.2 hst.right.2 hst.own]
  rw [hreporter, Reporter.runBlock, Reporter.runBlock, howned]

theorem secludes_makeBlock :
    (Endpoint.post (path ["api", "reports", "blocks"]) makeBlock : Endpoint σ).Secludes := by
  refine Endpoint.secludes (fun _ _ _ => rfl) fun _ _ _ q => ?_
  refine (stateless_inBody _ _).agrees.thenSecluding fun (kind, title, config) => ?_
  have hparse : Stateless (act (discard (Action.lift (BlockConfig.parse kind (.dict config)))) : Handler σ PUnit) := by
    cases BlockConfig.parse kind (.dict config) <;> exact ⟨_, fun _ => rfl⟩
  dsimp only
  rw [act_createBlock, bind_assoc]
  refine hparse.agrees.thenSecluding fun _ => ?_
  exact secluding_act (c := .createBlock (.text q.user.id) (.text kind) (.ofOption title) (.dict config)) (f := .block)
    (fun _ _ => StoreAnswer.block.inj) rfl rfl rfl fun _ => stateless_succeed _

theorem secludes_dropBlock :
    (Endpoint.delete (path ["api", "reports", "blocks", "*"]) dropBlock : Endpoint σ).Secludes := by
  refine Endpoint.secludes (fun _ _ _ => rfl) fun _ places _ q => ?_
  refine secluding_act (c := .deleteBlock (place places 0) q.user.id) (f := .deleted)
    (fun _ _ => StoreAnswer.deleted.inj) rfl rfl rfl fun found => ?_
  cases found
  · exact stateless_pure _
  · exact stateless_confirm _

/-- The endpoints that list and run blocks. -/
def blockReads : List (Endpoint σ) :=
  [.get (path ["api", "reports", "blocks"]) ownBlocks, .post (path ["api", "reports", "blocks", "*", "run"]) runBlock]

theorem reads_blockReads : ∀ e ∈ (blockReads : List (Endpoint σ)), e.Reads := by
  simp only [blockReads, List.forall_mem_cons]
  exact ⟨reads_ownBlocks, reads_runBlock, List.forall_mem_nil _⟩

theorem secludes_reportEndpoints : ∀ e ∈ (reportEndpoints : List (Endpoint σ)), e.Secludes := by
  simp only [reportEndpoints, List.forall_mem_cons]
  exact ⟨reads_ownBlocks.secludes, secludes_makeBlock, secludes_dropBlock, reads_runBlock.secludes,
    List.forall_mem_nil _⟩

/-! ## Requests -/

def Request.RoutedTo (r : Request) (es : List (Endpoint σ)) : Prop :=
  ∃ e ∈ es, ∃ places, (route (Text.upper r.method) r.path : Routing σ) = .found e places

theorem runOn_serve_found {r : Request} {e : Endpoint σ} {places : List String}
    (hroute : (route (Text.upper r.method) r.path : Routing σ) = .found e places) (s : Service σ) :
    (serve r).runOn s = (sent (settled ((e.answer r places).runOn s).1), ((e.answer r places).runOn s).2) := by
  rw [runOn_serve, runOn_respond, hroute]

theorem concur_serve (hst : Secluded user s t) {r : Request} (hr : r.RoutedTo (blockReads : List (Endpoint σ)))
    (hasks : ∀ w, s.requester? r = some w → w.id = user) : Concur s t ((serve r).runOn s) ((serve r).runOn t) := by
  obtain ⟨e, he, places, hroute⟩ := hr
  obtain ⟨outcome, link, hrun, hrun'⟩ := reads_blockReads e he hst r places hasks
  rw [runOn_serve_found hroute, runOn_serve_found hroute, hrun, hrun']
  exact ⟨_, link, rfl, rfl⟩

theorem secludes_serve (hst : Secluded user s t) {r : Request} (hr : r.RoutedTo (reportEndpoints : List (Endpoint σ)))
    (hasks : ∀ w, s.requester? r = some w → w.id = user) :
    Service.Secludes user s t ((serve r).runOn s) ((serve r).runOn t) := by
  obtain ⟨e, he, places, hroute⟩ := hr
  obtain ⟨hafter, hunchanged, hencodable⟩ := secludes_reportEndpoints e he hst r places hasks
  rw [runOn_serve_found hroute, runOn_serve_found hroute]
  refine ⟨hafter, fun hblocks => ?_, fun hs ht => ?_⟩
  · rw [hunchanged hblocks]
  · rw [hencodable hs ht]

end Http

/-! ## Blocks of others -/

namespace Service

variable {σ : Type} [Server σ] {s t : Service σ} {user : String}

/-- In the file of blocks, those of others are these. -/
def OthersFiled (s : Service σ) (user : String) (others : Entries ReportBlock) : Prop :=
  ∃ blocks : BlockStore, blocks.others user = others ∧
    s.files.Holds BlockStore.fileName blocks.toValue (.list [])

/-- A request of a user leaves the blocks of others alone, in memory and in their file. -/
theorem others_serve (hfresh : s.FreshIds) {r : Http.Request} (hasks : ∀ w, s.requester? r = some w → w.id = user) :
    ((serve r).runOn s).2.blocks.others user = s.blocks.others user ∧
      (s.OthersFiled user (s.blocks.others user) →
        ((serve r).runOn s).2.OthersFiled user (s.blocks.others user)) := by
  have hserved := Http.served r s
  generalize (serve r).runOn s = run at hserved
  cases hserved with
  | quiet h =>
      obtain ⟨-, -, -, hblocks, hfiles⟩ := h.sameStores
      refine ⟨by rw [hblocks], fun hfiled => ?_⟩
      rwa [OthersFiled, hfiles]
  | @changed outcome c hc m hm a u heffect houtcome =>
      obtain ⟨-, who, hwho, hallowed⟩ := hc
      obtain ⟨-, -, -, hblocks, hfiles⟩ := hm.sameStores
      have howner : c.owner? = some (.text user) ∨ c.owner? = none :=
        hallowed.imp (fun hown => by rw [hown, hasks who hwho]) And.left
      have hothers := others_effect (hfresh.quiet hm) howner
      have hbefore := (c.files_effect m).1
      rw [heffect, StoreEffect.service_changed] at hothers hbefore
      have hmemory : (c.store.written a u).2.blocks = u.blocks := by rw [c.store.written_snd]
      refine ⟨by rw [hmemory, hothers, hblocks], fun ⟨blocks, hsame, hheld⟩ => ?_⟩
      by_cases hstore : StoreKind.blocks = c.store
      · rcases c.store.files_written a u (.list []) with hkept | hholds
        · refine ⟨blocks, hsame, ?_⟩
          rwa [hkept, hbefore, hfiles]
        · refine ⟨u.blocks, by rw [hothers, hblocks], ?_⟩
          rw [← hstore] at hholds ⊢
          exact hholds
      · have hfile := StoreKind.files_written_of_ne hstore a u
        rw [hbefore, hfiles] at hfile
        exact ⟨blocks, hsame, hheld.of_get? hfile⟩

end Service

/-! ## Runs of requests -/

namespace HttpStep

variable {σ : Type} [Server σ]

/-- The request is about blocks, and with it nobody but the user is let in. -/
structure AsksBlocks (c : HttpStep σ) (user : String) (s : Service σ) : Prop where
  routed : c.request.RoutedTo (reportEndpoints : List (Endpoint σ))
  asks : ∀ w, (c.start s).requester? c.request = some w → w.id = user

end HttpStep

namespace Service

variable {σ : Type} {s t : Service σ} {user : String}

theorem Secluded.start (h : Secluded user s t) (c : HttpStep σ) : Secluded user (c.start s) (c.start t) := by
  refine ⟨?_, h.own, ⟨⟨h.left.1.history, h.left.1.blocks, h.left.1.unused⟩, h.left.2⟩,
    ⟨⟨h.right.1.history, h.right.1.blocks, h.right.1.unused⟩, h.right.2⟩⟩
  rw [h.same]
  rfl

variable [Server σ]

theorem Secluded.run (h : Secluded user s t) {c : HttpStep σ} (hc : c.AsksBlocks user s) :
    Secludes user s t (c.run s) (c.run t) :=
  (secludes_serve (h.start c) hc.routed hc.asks).before rfl rfl

theorem Secluded.afterRequests {steps : List (HttpStep σ)} : ∀ {s t : Service σ}, Secluded user s t →
    EachStep (fun s c => c.AsksBlocks user s) s steps →
    Secluded user (s.afterRequests steps) (t.afterRequests steps) := by
  induction steps with
  | nil => exact fun h _ => h
  | cons c steps ih => exact fun h hsteps => ih (h.run hsteps.1).after hsteps.2

/-- The answers to some requests, each from the service that those before have left. -/
def responses : Service σ → List (HttpStep σ) → List (Result Response)
  | _, [] => []
  | s, c :: steps => (c.run s).1 :: responses (c.run s).2 steps

theorem requester?_of_secluded (h : Secluded user s t) (r : Http.Request) : t.requester? r = s.requester? r := by
  have hfound : ∀ id, ((user? id).runOn t).1 = ((user? id).runOn s).1 := by
    intro id
    simp only [user?, Action.runOn_bind, Action.runOn_get]
    rw [h.same]
    cases s.usersStored <;> rfl
  simp only [requester?, hfound]

theorem others_run {steps : List (HttpStep σ)} : ∀ {s : Service σ}, s.FreshIds →
    EachStep (fun s c => c.AsksBlocks user s) s steps →
    (s.afterRequests steps).blocks.others user = s.blocks.others user ∧
      (s.OthersFiled user (s.blocks.others user) →
        (s.afterRequests steps).OthersFiled user (s.blocks.others user)) := by
  induction steps with
  | nil => exact fun _ _ => ⟨rfl, id⟩
  | cons c steps ih =>
      intro s hfresh hsteps
      have hstep := others_serve (s := c.start s) ⟨hfresh.history, hfresh.blocks, hfresh.unused⟩ hsteps.1.asks
      obtain ⟨hothers, hfiled⟩ := ih (hfresh.run c) hsteps.2
      have hsame : (c.run s).2.blocks.others user = s.blocks.others user := hstep.1
      rw [hsame] at hothers hfiled
      exact ⟨hothers, fun h => hfiled (hstep.2 h)⟩

theorem Secluded.responses {steps : List (HttpStep σ)} : ∀ {s t : Service σ}, Secluded user s t →
    EachStep (fun s c => c.AsksBlocks user s) s steps → s.OthersEncodable user → t.OthersEncodable user →
    t.responses steps = s.responses steps := by
  induction steps with
  | nil => exact fun _ _ _ _ => rfl
  | cons c steps ih =>
      intro s t h hsteps hs ht
      obtain ⟨hafter, -, hencodable⟩ := h.run hsteps.1
      have hasks : ∀ w, (c.start t).requester? c.request = some w → w.id = user := by
        rw [requester?_of_secluded (h.start c)]
        exact hsteps.1.asks
      have hothers := (others_serve (h.start c).left.1 hsteps.1.asks).1
      have hothers' := (others_serve (h.start c).right.1 hasks).1
      have hrest := ih hafter hsteps.2 (hs.of_others hothers) (ht.of_others hothers')
      rw [Service.responses, Service.responses, hencodable hs ht, hrest]

/-- A user who asks for blocks leaves those of others alone, and is answered without regard to them.  Listing and
running a block is answered the same whatever the blocks of others are, and so is all that changes no block, as that
there is no such block.  If the blocks of others can be written, everything is. -/
theorem secluded_run (h : Secluded user s t) (steps : List (HttpStep σ))
    (hsteps : EachStep (fun s c => c.AsksBlocks user s) s steps) :
    (∀ c : HttpStep σ, c.AsksBlocks user (s.afterRequests steps) →
        (c.request.RoutedTo (blockReads : List (Endpoint σ)) ∨
          (c.run (s.afterRequests steps)).2.blocks = (s.afterRequests steps).blocks) →
        (c.run (t.afterRequests steps)).1 = (c.run (s.afterRequests steps)).1) ∧
      (s.OthersEncodable user → t.OthersEncodable user → t.responses steps = s.responses steps) ∧
      (s.afterRequests steps).blocks.others user = s.blocks.others user ∧
      (s.OthersFiled user (s.blocks.others user) →
        (s.afterRequests steps).OthersFiled user (s.blocks.others user)) := by
  refine ⟨fun c hc hreads => ?_, h.responses hsteps, others_run h.left.1 hsteps⟩
  have hafter := h.afterRequests hsteps
  rcases hreads with hreads | hblocks
  · obtain ⟨outcome, link, hrun, hrun'⟩ := concur_serve (hafter.start c) hreads hc.asks
    rw [HttpStep.run, HttpStep.run, hrun, hrun']
  · exact (hafter.run hc).unchanged hblocks

/-- Ann asks for a block of Ben to be deleted: it stays, and she is answered as if there were none. -/
theorem secluded_run_of_foreign_block :
    let ann : User := ⟨"ann", .text "ann@example.com", .text "analyst", true⟩
    let note : ReportBlock := ⟨"id1", "ann", "text", none, [("content", .text "a note")]⟩
    let other : ReportBlock := ⟨"id2", "ben", "text", none, [("content", .text "another")]⟩
    let t : Service Unit := { bare with directory := .ofUsers [(ann, [])], blocks := ⟨[("id1", note)]⟩, ids := 2 }
    let s : Service Unit := { t with blocks := ⟨[("id1", note), ("id2", other)]⟩ }
    let steps : List (HttpStep Unit) :=
      [{ request := { method := "DELETE", path := "/api/reports/blocks/id2", user := some "ann" }
         now := "2024-03-01"
         clock := .int 0
         today := bare.today }]
    Secluded "ann" s t ∧ t.responses steps = s.responses steps ∧
      (s.afterRequests steps).blocks.others "ann" = [("id2", other)] := by
  have hroute : ∃ places, (route (Text.upper "DELETE") "/api/reports/blocks/id2" : Routing Unit) =
      .found (.delete (path ["api", "reports", "blocks", "*"]) dropBlock) places := ⟨_, by rfl⟩
  intro ann note other t s steps
  have hunused : ∀ n, 2 < n → "id" ++ toString n ∉ ["id1", "id2"] := by
    intro n hn hmem
    rcases List.mem_pair.mp hmem with h | h
    · obtain rfl : n = 1 := idText_injective h
      omega
    · obtain rfl : n = 2 := idText_injective h
      omega
  have hs : s.FreshIds := ⟨List.nodup_nil, by decide, hunused⟩
  have ht : t.FreshIds :=
    ⟨List.nodup_nil, by decide, fun n hn hmem => hunused n hn (List.mem_pair.mpr (.inl (List.mem_singleton.mp hmem)))⟩
  have hsecluded : Secluded "ann" s t := ⟨rfl, rfl, ⟨hs, by decide, by decide⟩, ⟨ht, by decide, by decide⟩⟩
  have hsteps : EachStep (fun s c => c.AsksBlocks "ann" s) s steps := by
    refine ⟨⟨⟨_, ?_, hroute⟩, fun w hw => ?_⟩, trivial⟩
    · simp [reportEndpoints]
    · obtain rfl : ann = w := Option.some.inj hw
      rfl
  obtain ⟨-, hsame, hothers, -⟩ := secluded_run hsecluded steps hsteps
  exact ⟨hsecluded, hsame (by decide) (by decide), hothers⟩

/-- With a block of another in memory that cannot be written, no block can be made. -/
theorem unwritten_block_shows :
    let unwritten := textBlockStep "ben" [("x", .decimal (.finite false 1 (-1)))] "2024-03-01"
    let next := textBlockStep "ann" [] "2024-03-02"
    let other : ReportBlock := ⟨bare.nextId, "ben", "text", none, [("x", .decimal (.finite false 1 (-1)))]⟩
    let t : Service Unit := { bare with ids := 1, now := "2024-03-01" }
    let s : Service Unit := { t with blocks := ⟨[(bare.nextId, other)]⟩ }
    s = (unwritten.run bare).2 ∧ Secluded "ann" s t ∧
      (next.run t).1 = .ok (.block ⟨t.nextId, "ann", "text", none, []⟩) ∧ (next.run s).1 = .error .notEncodable := by
  intro unwritten next other t s
  have hunwritten : unwritten.outcome bare = .error .notEncodable :=
    (outcome_textBlockStep bare "ben" _ _).trans (if_neg (by decide +kernel))
  have hput : unwritten.put? bare = none := StoreStep.put?_of_error hunwritten
  have hmade : next.outcome t = .ok (.block ⟨t.nextId, "ann", "text", none, []⟩) :=
    (outcome_textBlockStep t "ann" _ _).trans (if_pos (by decide +kernel))
  have hfails : next.outcome s = .error .notEncodable :=
    (outcome_textBlockStep s "ann" _ _).trans (if_neg (by decide +kernel))
  have hunused : ∀ n, 1 < n → "id" ++ toString n ∉ [bare.nextId] := by
    intro n hn hmem
    obtain rfl : n = 1 := idText_injective (List.mem_singleton.mp hmem)
    exact absurd hn (lt_irrefl 1)
  have hs : s.FreshIds := ⟨List.nodup_nil, by decide, hunused⟩
  have ht : t.FreshIds := ⟨List.nodup_nil, by decide, fun _ _ hmem => nomatch hmem⟩
  rw [unwritten.run_eq, next.run_eq, next.run_eq, hput]
  exact ⟨rfl, ⟨rfl, rfl, ⟨hs, by decide, by decide⟩, ⟨ht, by decide, by decide⟩⟩, hmade, hfails⟩

end Service

end TableSteward

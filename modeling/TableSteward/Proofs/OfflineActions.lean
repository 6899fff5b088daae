import TableSteward.Proofs.DashboardFetch
import TableSteward.Proofs.StoreCommand

/-!
# Actions and the link

A service that is put onto another link does with its cache and its documents what it did before.  Of a dashboard this is
true but for its block, and its answer depends on the link through what the block comes to.
-/
set_option autoImplicit false

namespace TableSteward

variable {σ α β : Type}

def Service.onto (s : Service σ) (l : Link σ) : Service σ := { s with link := l }

/-- What comes of the action has nothing to do with the link. -/
def Action.Offline (x : Action σ α) : Prop :=
  ∀ (s : Service σ) (l : Link σ), x.runOn (s.onto l) = ((x.runOn s).1, (x.runOn s).2.onto l)

/-- The link is left as it is. -/
theorem Action.Offline.link {x : Action σ α} (hx : x.Offline) (s : Service σ) : (x.runOn s).2.link = s.link :=
  congrArg (fun out => out.2.link) (hx s s.link)

theorem StoreKind.written_onto (k : StoreKind) (a : StoreAnswer) (s : Service σ) (l : Link σ) :
    k.written a (s.onto l) = ((k.written a s).1, (k.written a s).2.onto l) := by
  have hfiles : (s.onto l).filesWith k.fileName (k.document (s.onto l)) = s.filesWith k.fileName (k.document s) := by
    cases k <;> rfl
  rw [written, written, hfiles]
  cases s.filesWith k.fileName (k.document s) <;> rfl

def StoreEffect.onto (l : Link σ) : StoreEffect σ → StoreEffect σ
  | answered r s => .answered r (s.onto l)
  | changed a s => .changed a (s.onto l)

theorem StoreCommand.effect_onto (c : StoreCommand) (s : Service σ) (l : Link σ) :
    c.effect (s.onto l) = (c.effect s).onto l := by
  have hhistory : (s.onto l).history = s.history := rfl
  have hblocks : (s.onto l).blocks = s.blocks := rfl
  have hid : (s.onto l).nextId = s.nextId := rfl
  cases c with
  | setDefinitions | setSettings => rfl
  | saveHistory scope filters =>
      simp only [effect, hhistory]
      cases filters.isEmpty with
      | true => rfl
      | false => cases s.history.find? scope filters <;> rfl
  | deleteHistory id userId =>
      simp only [effect, hhistory]
      cases s.history.delete? id userId <;> rfl
  | createBlock owner kind title config =>
      simp only [effect, hid]
      cases BlockStore.allowKind kind with
      | error f => rfl
      | ok k => cases ReportBlock.ofParts s.nextId owner kind title config <;> rfl
  | deleteBlock id owner =>
      simp only [effect, hblocks]
      cases s.blocks.delete? id owner <;> rfl

theorem StoreCommand.offline_perform (c : StoreCommand) : (c.perform : Action σ StoreAnswer).Offline := by
  intro s l
  rw [runOn_perform, runOn_perform, effect_onto]
  cases c.effect s with
  | answered r t => rfl
  | changed a t => exact c.store.written_onto a t l

theorem Action.offline_pure (a : α) : (pure a : Action σ α).Offline := fun _ _ => rfl

theorem Action.offline_lift (r : Result α) : (lift r : Action σ α).Offline := by
  intro s l
  rw [runOn_lift, runOn_lift]

theorem Action.Offline.bind {x : Action σ α} {k : α → Action σ β} (hx : x.Offline) (hk : ∀ a, (k a).Offline) :
    (x >>= k).Offline := by
  intro s l
  rw [runOn_bind, runOn_bind, hx s l]
  rcases x.runOn s with ⟨f | a, t⟩
  · rfl
  · exact hk a t l

theorem Service.offline_keep (key : String) (v : Value) (lifetime : Int) :
    (keep key v lifetime : Action σ Unit).Offline := by
  intro s l
  have hcache : (s.onto l).cache.setFor (s.onto l).clock key v (.int lifetime) =
      s.cache.setFor s.clock key v (.int lifetime) := rfl
  simp only [keep, Action.runOn_bind, Action.runOn_get, hcache]
  rcases s.cache.setFor s.clock key v (.int lifetime) with ⟨_ | _, cache⟩ <;> rfl

theorem Service.offline_clearCache (pattern : Option String) : (clearCache pattern : Action σ Nat).Offline :=
  fun _ _ => rfl

namespace Service

/-- What is done with the data of a dashboard. -/
def retain (key : String) (r : DashboardRequest) (data : Value) : Action σ Value := do
  let s ← get
  let current ← Action.lift (r.isCurrent s.today)
  keep key data (Period.lifetime current)
  return dashboardAnswer data false

theorem offline_retain (key : String) (r : DashboardRequest) (data : Value) : (retain key r data : Action σ Value).Offline := by
  intro s l
  rw [retain, Action.runOn_bind, Action.runOn_bind, Action.runOn_get, Action.runOn_get]
  exact (Action.offline_lift (r.isCurrent s.today)).bind
    (fun current => (offline_keep key data (Period.lifetime current)).bind fun _ => Action.offline_pure _) s l

variable [Server σ]

theorem runOn_computeDashboard (key : String) (compute : Provider σ) (r : DashboardRequest) (s : Service σ) :
    (computeDashboard key compute r).runOn s =
      match s.block compute r with
      | (.ok data, l) => (retain key r data).runOn (s.onto l)
      | (.error f, l) => (.error f, s.onto l) := by
  have hsteps : computeDashboard key compute r = get >>= fun s =>
      Action.onLink (Exchange.readOnly r.database s.timeout fun c => compute c r) >>= retain key r := rfl
  have hblock : (Exchange.readOnly r.database s.timeout fun c => compute c r).runOn s.link = s.block compute r := rfl
  rw [hsteps, Action.runOn_bind, Action.runOn_get]
  simp only
  rw [Action.runOn_bind, Action.runOn_onLink, hblock]
  rcases s.block compute r with ⟨f | data, l⟩ <;> rfl

/-- A dashboard is computed alike if its block comes to the same. -/
theorem runOn_computeDashboard_onto (key : String) (compute : Provider σ) (r : DashboardRequest) (s : Service σ)
    (l : Link σ) (h : ((s.onto l).block compute r).1 = (s.block compute r).1) :
    (computeDashboard key compute r).runOn (s.onto l) =
        (((computeDashboard key compute r).runOn s).1,
          ((computeDashboard key compute r).runOn s).2.onto ((s.onto l).block compute r).2) ∧
      ((computeDashboard key compute r).runOn s).2.link = (s.block compute r).2 := by
  rw [runOn_computeDashboard, runOn_computeDashboard]
  rcases hblock : s.block compute r with ⟨out, k⟩
  rcases hblock' : (s.onto l).block compute r with ⟨out', k'⟩
  rw [hblock, hblock'] at h
  obtain rfl : out' = out := h
  cases out' with
  | error f => exact ⟨rfl, rfl⟩
  | ok data => exact ⟨offline_retain key r data (s.onto k) k', (offline_retain key r data).link (s.onto k)⟩

omit [Server σ] in
/-- A refresh does not look into the cache. -/
def consult (key : String) (refresh : Bool) : Action σ (Option Value) := if refresh then pure none else cached key

omit [Server σ] in
/-- What is found before a provider is called: the answer of the cache, or the provider. -/
def lookUp (kind : String) (r : DashboardRequest) (refresh : Bool) : Action σ (Value ⊕ Provider σ) := do
  let compute ← provider kind
  let found ← consult (r.cacheKey kind) refresh
  return found.elim (.inr compute) fun data => .inl (dashboardAnswer data true)

theorem dashboard_eq (kind : String) (r : DashboardRequest) (refresh : Bool) :
    (dashboard kind r refresh : Action σ Value) =
      lookUp kind r refresh >>= Sum.elim pure fun compute => computeDashboard (r.cacheKey kind) compute r := by
  simp only [dashboard, lookUp, bind_assoc, pure_bind]
  refine bind_congr fun compute => ?_
  cases refresh with
  | true => rfl
  | false =>
      refine bind_congr fun found => ?_
      cases found <;> rfl

omit [Server σ] in
theorem offline_lookUp (kind : String) (r : DashboardRequest) (refresh : Bool) :
    (lookUp kind r refresh : Action σ (Value ⊕ Provider σ)).Offline := by
  have hprovider : (provider kind : Action σ (Provider σ)).Offline := by
    intro s l
    have hsame : (s.onto l).providers = s.providers := rfl
    rw [runOn_provider, runOn_provider, hsame]
    cases s.providers.get? kind <;> rfl
  have hconsult : (consult (r.cacheKey kind) refresh : Action σ (Option Value)).Offline := by
    cases refresh with
    | true => exact Action.offline_pure none
    | false => exact fun _ _ => rfl
  exact hprovider.bind fun _ => hconsult.bind fun _ => Action.offline_pure _

omit [Server σ] in
theorem provider_of_lookUp {s t : Service σ} {kind : String} {r : DashboardRequest} {refresh : Bool} {compute : Provider σ}
    (h : (lookUp kind r refresh).runOn s = (.ok (.inr compute), t)) : s.providers.get? kind = some compute := by
  rw [lookUp, Action.runOn_bind, runOn_provider] at h
  cases hkind : s.providers.get? kind with
  | none =>
      rw [hkind] at h
      exact nomatch h
  | some known =>
      simp only [hkind, Action.runOn_bind] at h
      rcases hfound : (consult (r.cacheKey kind) refresh).runOn s with ⟨_ | (_ | data), u⟩ <;> rw [hfound] at h <;> cases h
      rfl

end Service

end TableSteward

import TableSteward.Proofs.DashboardFetch
import TableSteward.Proofs.Since
import TableSteward.Scenario.Script

/-!
# Runs of fetches

A run fetches dashboards and clears the cache.  Between its steps everything but the cache may change: the clock, the
providers, the databases and what they answer.  What the cache holds under a key is then always what the last
successful call of a provider under this key answered.
-/
set_option autoImplicit false

namespace TableSteward

inductive DashboardStep (σ : Type)
  | fetch (s : Service σ) (kind : String) (r : DashboardRequest) (refresh : Bool)
  | clear (s : Service σ) (pattern : Option String)

variable {σ : Type} [Server σ]

namespace DashboardStep

/-- The cache after a step of a service that has this cache before it. -/
def perform (c : MetricsCache Number) : DashboardStep σ → MetricsCache Number
  | fetch s kind r refresh => ((Service.dashboard kind r refresh).runOn { s with cache := c }).2.cache
  | clear s pattern => ((Service.clearCache pattern).runOn { s with cache := c }).2.cache

/-- A step calls a provider under a key, with success, and is answered a value. -/
def Calls (c : MetricsCache Number) (key : String) (v : Value) : DashboardStep σ → Prop
  | fetch s kind r refresh =>
      r.cacheKey kind = key ∧ (refresh = true ∨ ∀ w, ¬ { s with cache := c }.Holds key w) ∧ s.Computes kind r v
  | clear .. => False

end DashboardStep

namespace Dashboards

variable (capacity : Int)

def cacheAfter (steps : List (DashboardStep σ)) : MetricsCache Number :=
  steps.foldl DashboardStep.perform { capacity := capacity }

/-- The last successful call of a provider under a key was answered this value. -/
def LastCall (steps : List (DashboardStep σ)) (key : String) (v : Value) : Prop :=
  Since (fun before step => step.Calls (cacheAfter capacity before) key v)
    (fun before step => ∃ w, step.Calls (cacheAfter capacity before) key w) steps

variable {capacity} {steps : List (DashboardStep σ)} {step : DashboardStep σ}

theorem cacheAfter_concat : cacheAfter capacity (steps ++ [step]) = step.perform (cacheAfter capacity steps) := by
  simp [cacheAfter]

theorem lastCall_concat {key : String} {v : Value} :
    LastCall capacity (steps ++ [step]) key v ↔
      step.Calls (cacheAfter capacity steps) key v ∨
        (LastCall capacity steps key v ∧ ¬ ∃ w, step.Calls (cacheAfter capacity steps) key w) :=
  since_concat

/-! ## What the cache holds -/

structure Provided (capacity : Int) (steps : List (DashboardStep σ)) (c : MetricsCache Number) : Prop where
  keys : c.entries.keys.Nodup
  values : ∀ k e, c.entries.get? k = some e → LastCall capacity steps k e.value

theorem LastCall.keep {key : String} {v : Value} (h : LastCall capacity steps key v)
    (hno : ∀ w, ¬ step.Calls (cacheAfter capacity steps) key w) : LastCall capacity (steps ++ [step]) key v :=
  lastCall_concat.mpr (.inr ⟨h, fun ⟨w, hw⟩ => hno w hw⟩)

theorem Provided.fetch (h : Provided capacity steps (cacheAfter capacity steps)) (s : Service σ) (kind : String)
    (r : DashboardRequest) (refresh : Bool) :
    Provided capacity (steps ++ [.fetch s kind r refresh])
      ((DashboardStep.fetch s kind r refresh).perform (cacheAfter capacity steps)) := by
  have hlooked := fun refresh => Service.nodup_lookedUp
    (s := { s with cache := cacheAfter capacity steps }) h.keys (r.cacheKey kind) refresh
  have hvalue : ∀ refresh k e,
      (Service.lookedUp { s with cache := cacheAfter capacity steps } (r.cacheKey kind) refresh).entries.get? k =
        some e → LastCall capacity steps k e.value := by
    intro refresh k e he
    obtain ⟨e', he', hsame⟩ := Service.value_lookedUp
      (s := { s with cache := cacheAfter capacity steps }) h.keys he
    exact hsame ▸ h.values k e' he'
  rw [DashboardStep.perform]
  rcases Service.dashboard_cases { s with cache := cacheAfter capacity steps } kind r refresh with
    ⟨v, hrefresh, hholds, -, hrun⟩ | ⟨hmiss, v, current, compute, t, hcompute, hblock, hcurrent, -, hrun⟩ |
    ⟨hno, -, -, hcache⟩
  · rw [hrun]
    refine ⟨hlooked false, ?_⟩
    intro k e he
    apply (hvalue false k e he).keep
    rintro w ⟨rfl, hmiss, -⟩
    rcases hmiss with hforced | hnone
    · rw [hrefresh] at hforced
      cases hforced
    · exact hnone v hholds
  · rw [hrun]
    refine ⟨MetricsCache.nodup_set (hlooked refresh) _ _ _ _, ?_⟩
    intro k e he
    rw [MetricsCache.get?_set (hlooked refresh)] at he
    by_cases hk : k = r.cacheKey kind
    · subst hk
      rw [if_pos rfl] at he
      obtain rfl := Option.some.inj he
      exact lastCall_concat.mpr (.inl ⟨rfl, hmiss, compute, current, hcompute, hblock, hcurrent⟩)
    · rw [if_neg hk] at he
      split at he
      · cases he
      · apply (hvalue refresh k e (MetricsCache.live_eq_some_iff.mp he).1).keep
        rintro w ⟨hkey, -⟩
        exact hk hkey.symm
  · have hnocall : ∀ k w, ¬ (DashboardStep.fetch s kind r refresh).Calls (cacheAfter capacity steps) k w := by
      rintro k w ⟨-, -, hcomputes⟩
      exact hno w hcomputes
    rcases hcache with hcache | hcache
    · rw [hcache]
      exact ⟨h.keys, fun k e he => (h.values k e he).keep (hnocall k)⟩
    · rw [hcache]
      exact ⟨hlooked refresh, fun k e he => (hvalue refresh k e he).keep (hnocall k)⟩

theorem Provided.clear (h : Provided capacity steps (cacheAfter capacity steps)) (s : Service σ)
    (pattern : Option String) :
    Provided capacity (steps ++ [.clear s pattern])
      ((DashboardStep.clear s pattern).perform (cacheAfter capacity steps)) := by
  have hrun : (DashboardStep.clear s pattern).perform (cacheAfter capacity steps) =
      ((cacheAfter capacity steps).invalidate pattern).2 := rfl
  rw [hrun]
  constructor
  · rw [MetricsCache.entries_invalidate]
    exact Entries.nodup_filter h.keys _
  · intro k e he
    rw [MetricsCache.get?_invalidate h.keys] at he
    split at he
    · cases he
    · exact (h.values k e he).keep fun w hno => hno

theorem provided_cacheAfter (steps : List (DashboardStep σ)) :
    Provided capacity steps (cacheAfter capacity steps) := by
  induction steps using List.reverseRecOn with
  | nil => exact ⟨List.nodup_nil, fun k e he => nomatch he⟩
  | append_singleton steps step ih =>
      rw [cacheAfter_concat]
      cases step with
      | fetch s kind r refresh => exact ih.fetch s kind r refresh
      | clear s pattern => exact ih.clear s pattern

/-! ## Every fetch -/

section Fetch

variable {s : Service σ} {kind : String} {r : DashboardRequest} {refresh : Bool}

/-- A fetch is answered from the cache just if it may be and there is something to answer with. -/
theorem fromCache_iff :
    (∃ v, ((Service.dashboard kind r refresh).runOn s).1 = .ok (Service.dashboardAnswer v true)) ↔
      (s.providers.get? kind).isSome = true ∧ refresh = false ∧ ∃ v, s.Holds (r.cacheKey kind) v := by
  constructor
  · rintro ⟨v, hv⟩
    rcases Service.dashboard_cases s kind r refresh with
      ⟨w, hrefresh, hholds, hkind, -⟩ | ⟨-, w, current, compute, t, -, -, -, -, hrun⟩ | ⟨-, f, hf, -⟩
    · exact ⟨hkind, hrefresh, w, hholds⟩
    · rw [hrun] at hv
      cases (Service.dashboardAnswer_inj (Except.ok.inj hv)).2
    · rw [hf] at hv
      cases hv
  · rintro ⟨hkind, rfl, v, hholds⟩
    obtain ⟨compute, hcompute⟩ := Option.isSome_iff_exists.mp hkind
    exact ⟨v, by rw [Service.dashboard_hit hcompute hholds]⟩

/-- An answer from the cache is what the cache holds, and the databases are left alone. -/
theorem holds_of_fromCache {v : Value}
    (h : ((Service.dashboard kind r refresh).runOn s).1 = .ok (Service.dashboardAnswer v true)) :
    s.Holds (r.cacheKey kind) v ∧ ((Service.dashboard kind r refresh).runOn s).2.link = s.link := by
  obtain ⟨hkind, rfl, w, hholds⟩ := fromCache_iff.mp ⟨v, h⟩
  obtain ⟨compute, hcompute⟩ := Option.isSome_iff_exists.mp hkind
  rw [Service.dashboard_hit hcompute hholds] at h ⊢
  exact ⟨(Service.dashboardAnswer_inj (Except.ok.inj h)).1 ▸ hholds, rfl⟩

/-- What a provider computes is answered and cached. -/
theorem answer_of_computes {compute : Provider σ} {v : Value} {current : Bool}
    (hcompute : s.providers.get? kind = some compute)
    (hmiss : refresh = true ∨ ∀ w, ¬ s.Holds (r.cacheKey kind) w) (hkeys : s.cache.entries.keys.Nodup)
    (hblock : (s.block compute r).1 = .ok v) (hcurrent : r.isCurrent s.today = .ok current) :
    ((Service.dashboard kind r refresh).runOn s).1 = .ok (Service.dashboardAnswer v false) ∧
      ∃ t, s.clock.add (.int (Period.lifetime current)) = .ok t ∧
        ((Service.dashboard kind r refresh).runOn s).2.cache.entries.get? (r.cacheKey kind) =
          some ⟨v, t, s.clock⟩ := by
  obtain ⟨t, ht⟩ := Period.add_lifetime s.clock current
  rw [Service.dashboard_miss hcompute hmiss, Service.computeDashboard_ok
    (s := { s with cache := s.lookedUp (r.cacheKey kind) refresh }) hblock hcurrent ht]
  refine ⟨rfl, t, ht, ?_⟩
  simp only
  rw [MetricsCache.get?_set (Service.nodup_lookedUp hkeys _ _), if_pos rfl]

theorem fault_of_not_computes {compute : Provider σ} (hcompute : s.providers.get? kind = some compute)
    (hmiss : refresh = true ∨ ∀ w, ¬ s.Holds (r.cacheKey kind) w) (hblock : ∀ v, (s.block compute r).1 ≠ .ok v) :
    ∃ f, ((Service.dashboard kind r refresh).runOn s).1 = .error f := by
  obtain ⟨f, hrun⟩ := Service.computeDashboard_error
    (s := { s with cache := s.lookedUp (r.cacheKey kind) refresh }) (r.cacheKey kind) compute r
    fun v _ hv => absurd hv (hblock v)
  rw [Service.dashboard_miss hcompute hmiss, hrun]
  exact ⟨f, rfl⟩

theorem keepsLive_of_fault (hkeys : s.cache.entries.keys.Nodup) {f : Fault}
    (h : ((Service.dashboard kind r refresh).runOn s).1 = .error f) :
    s.cache.KeepsLive s.clock ((Service.dashboard kind r refresh).runOn s).2.cache := by
  rcases Service.dashboard_cases s kind r refresh with
    ⟨v, -, -, -, hrun⟩ | ⟨-, v, current, compute, t, -, -, -, -, hrun⟩ | ⟨-, -, -, hcache | hcache⟩
  · rw [hrun] at h
    cases h
  · rw [hrun] at h
    cases h
  · rw [hcache]
    exact MetricsCache.keepsLive_self _ _
  · rw [hcache]
    exact Service.keepsLive_lookedUp hkeys

/-- An entry that was kept is what a later fetch is answered, until it expires. -/
theorem fromCache_of_keepsLive {c : MetricsCache Number} {now : Number} {e : CacheEntry Number}
    (hkept : c.KeepsLive now s.cache) (hlive : c.live now (r.cacheKey kind) = some e) (hvalue : e.value.isNull = false)
    (hlater : ¬ e.expiresAt < s.clock) (hkind : (s.providers.get? kind).isSome = true) :
    ((Service.dashboard kind r false).runOn s).1 = .ok (Service.dashboardAnswer e.value true) := by
  obtain ⟨e', he', hsame, hexpires⟩ := hkept _ e hlive
  obtain ⟨compute, hcompute⟩ := Option.isSome_iff_exists.mp hkind
  have hholds : s.Holds (r.cacheKey kind) e.value :=
    ⟨hvalue, e', MetricsCache.live_eq_some_iff.mpr ⟨he', hexpires ▸ hlater⟩, hsame⟩
  rw [Service.dashboard_hit hcompute hholds]

/-! ### A provider on its connection -/

section Measured

variable {measure : σ → Nat} (hcalls : ∀ (t : σ) c, measure (Server.answer t c).2 = measure t)

include hcalls

/-- On a connection that opens, the provider is called once. -/
theorem measure_of_opens {compute : Provider σ} (hcompute : s.providers.get? kind = some compute)
    (hmiss : refresh = true ∨ ∀ w, ¬ s.Holds (r.cacheKey kind) w)
    (hprovider : ∀ c r l, measure ((compute c r).runOn l).2.server = measure l.server + 1) {c : Connection} {l : Link σ}
    (hopens : (Exchange.opening r.database s.timeout).runOn s.link = (.ok c, l)) :
    measure ((Service.dashboard kind r refresh).runOn s).2.link.server = measure s.link.server + 1 := by
  obtain ⟨-, hserver⟩ := Exchange.readOnly_of_opens (fun c => compute c r) hopens
  have hending := Exchange.calm_ending hcalls c ((compute c r).runOn l).1 ((compute c r).runOn l).2
  have hopening := Exchange.calm_opening hcalls r.database s.timeout s.link
  rw [hopens] at hopening
  rw [Service.link_dashboard_miss hcompute hmiss, Service.block, hserver, hending, hprovider, hopening]

/-- Without a connection the provider is not called, and the fetch ends in a fault. -/
theorem fault_of_not_opens {compute : Provider σ} (hcompute : s.providers.get? kind = some compute)
    (hmiss : refresh = true ∨ ∀ w, ¬ s.Holds (r.cacheKey kind) w) {f : Fault}
    (hclosed : ((Exchange.opening r.database s.timeout).runOn s.link).1 = .error f) :
    measure ((Service.dashboard kind r refresh).runOn s).2.link.server = measure s.link.server ∧
      ∃ g, ((Service.dashboard kind r refresh).runOn s).1 = .error g := by
  obtain ⟨⟨g, hg⟩, hmeasure⟩ := Exchange.readOnly_of_not_opens hcalls (fun c => compute c r) hclosed
  constructor
  · rw [Service.link_dashboard_miss hcompute hmiss, Service.block, hmeasure]
  · apply fault_of_not_computes hcompute hmiss
    intro v hv
    rw [Service.block, hg] at hv
    cases hv

end Measured

/-- On a connection that opens, the block computes what the provider computes if the transaction is committed. -/
theorem block_ok_iff {compute : Provider σ} {c : Connection} {l : Link σ}
    (hopens : (Exchange.opening r.database s.timeout).runOn s.link = (.ok c, l)) (v : Value) :
    (s.block compute r).1 = .ok v ↔
      ((compute c r).runOn l).1 = .ok v ∧ (Server.answer ((compute c r).runOn l).2.server (.commit c)).1 ≠ none :=
  (Exchange.readOnly_of_opens (fun c => compute c r) hopens).1 v

end Fetch

/-- Every fetch of every run.  It is answered from the cache just if its kind is known, no refresh is wanted and the
cache holds a live value, which is then what the last successful call of a provider under the key was answered; no
connection is opened.  Otherwise, if the connection opens, the provider is called once, and what it computes is
answered and cached.  A fetch that ends in a fault leaves every live entry as it was, so that a later fetch is
answered with it until it expires.  `measure` counts the calls of providers. -/
theorem fetch_by_run {capacity : Int} {steps : List (DashboardStep σ)} {s : Service σ}
    (hcache : s.cache = cacheAfter capacity steps) {measure : σ → Nat}
    (hcalls : ∀ (t : σ) c, measure (Server.answer t c).2 = measure t)
    (hproviders : ∀ kind compute, s.providers.get? kind = some compute →
      ∀ c r l, measure ((compute c r).runOn l).2.server = measure l.server + 1)
    (kind : String) (r : DashboardRequest) (refresh : Bool) :
    let done := (Service.dashboard kind r refresh).runOn s
    ((∃ v, done.1 = .ok (Service.dashboardAnswer v true)) ↔
      (s.providers.get? kind).isSome = true ∧ refresh = false ∧ ∃ v, s.Holds (r.cacheKey kind) v) ∧
    (∀ v, done.1 = .ok (Service.dashboardAnswer v true) →
      s.Holds (r.cacheKey kind) v ∧ LastCall capacity steps (r.cacheKey kind) v ∧ done.2.link = s.link) ∧
    (∀ compute, s.providers.get? kind = some compute → (refresh = true ∨ ∀ v, ¬ s.Holds (r.cacheKey kind) v) →
      (∀ c l, (Exchange.opening r.database s.timeout).runOn s.link = (.ok c, l) →
        measure done.2.link.server = measure s.link.server + 1 ∧
        (∀ v current, ((compute c r).runOn l).1 = .ok v →
          (Server.answer ((compute c r).runOn l).2.server (.commit c)).1 ≠ none →
          r.isCurrent s.today = .ok current →
          done.1 = .ok (Service.dashboardAnswer v false) ∧
            ∃ t, s.clock.add (.int (Period.lifetime current)) = .ok t ∧
              done.2.cache.entries.get? (r.cacheKey kind) = some ⟨v, t, s.clock⟩) ∧
        ((∃ f, ((compute c r).runOn l).1 = .error f) ∨
          (Server.answer ((compute c r).runOn l).2.server (.commit c)).1 = none → ∃ f, done.1 = .error f)) ∧
      ∀ f, ((Exchange.opening r.database s.timeout).runOn s.link).1 = .error f →
        measure done.2.link.server = measure s.link.server ∧ ∃ g, done.1 = .error g) ∧
    (s.providers.get? kind = none → ∃ f, done = (.error f, s)) ∧
    ∀ f, done.1 = .error f →
      s.cache.KeepsLive s.clock done.2.cache ∧
      ∀ (later : Service σ) kind' (r' : DashboardRequest) e, later.cache = done.2.cache →
        s.cache.live s.clock (r'.cacheKey kind') = some e → e.value.isNull = false →
        ¬ e.expiresAt < later.clock → (later.providers.get? kind').isSome = true →
          ((Service.dashboard kind' r' false).runOn later).1 = .ok (Service.dashboardAnswer e.value true) := by
  intro done
  have hprovided : Provided capacity steps s.cache := hcache ▸ provided_cacheAfter steps
  refine ⟨fromCache_iff, ?_, ?_, fun hkind => Service.dashboard_unknown hkind r refresh, ?_⟩
  · intro v hv
    obtain ⟨hholds, hlink⟩ := holds_of_fromCache hv
    refine ⟨hholds, ?_, hlink⟩
    obtain ⟨-, e, hlive, rfl⟩ := hholds
    exact hprovided.values _ e (MetricsCache.live_eq_some_iff.mp hlive).1
  · intro compute hcompute hmiss
    refine ⟨?_, fun f hclosed => fault_of_not_opens hcalls hcompute hmiss hclosed⟩
    intro c l hopens
    refine ⟨measure_of_opens hcalls hcompute hmiss (hproviders kind compute hcompute) hopens, ?_, ?_⟩
    · intro v current hv hcommit hcurrent
      have hblock := (block_ok_iff hopens v).mpr ⟨hv, hcommit⟩
      exact answer_of_computes hcompute hmiss hprovided.keys hblock hcurrent
    · intro hfails
      apply fault_of_not_computes hcompute hmiss
      intro v hv
      obtain ⟨hvalue, hcommit⟩ := (block_ok_iff hopens v).mp hv
      rcases hfails with ⟨f, hf⟩ | hnone
      · rw [hf] at hvalue
        cases hvalue
      · exact hcommit hnone
  · intro f hf
    have hkept := keepsLive_of_fault hprovided.keys hf
    refine ⟨hkept, ?_⟩
    intro later kind' r' e hlater hlive hvalue hunexpired hkind
    exact fromCache_of_keepsLive (hlater ▸ hkept) hlive hvalue hunexpired hkind

end Dashboards

/-! ## A rehearsal -/

namespace Script

theorem computed_answer (t : Script) (c : Call) : (Server.answer t c).2.computed = t.computed := by
  cases c with
  | connect c => rfl
  | begin c => rfl
  | commit c => rfl
  | rollback c => rfl
  | execute c s =>
      simp only [Server.answer, Script.answer, Script.rowsOf, Script.tableRows]
      repeat' split
      all_goals rfl

/-- A scripted provider counts its calls. -/
theorem computed_provider (sql : String) (value : Option Value) (c : Connection) (r : DashboardRequest)
    (l : Link Script) :
    ((Script.provider sql value c r).runOn l).2.server.computed = l.server.computed + 1 := by
  have hcalm : ∀ g : Link Script → Value, Exchange.Calm Script.computed (do
      discard (Exchange.execute c (.given sql))
      let l ← get
      return g l) := fun g =>
    (Exchange.calm_execute computed_answer c (.given sql)).discard.bind fun _ =>
      Exchange.Calm.bind (fun _ => rfl) fun _ => Exchange.calm_pure _
  rw [Script.provider, Exchange.runOn_bind]
  exact hcalm _ { l with server := { l.server with computed := l.server.computed + 1 } }

end Script

namespace Rehearsal

open Dashboards

def service : Service Script where
  link := {
    server := { databases := [("Prod", {})] }
    pools := Pools.ofAddresses [⟨"Prod", "postgresql://prod"⟩] {} }
  providers := [("sales", Script.provider "SELECT 1" none)]
  today := ⟨2024, 3, 1, by decide⟩

def request : DashboardRequest := { database := "Prod" }

def steps : List (DashboardStep Script) := [.fetch service "sales" request false]

/-- The service an hour later. -/
def later : Service Script := { service with cache := cacheAfter 100 steps, clock := .int 3600 }

/-- An hour later a dashboard comes from the cache, as its provider computed it. -/
theorem fetched_again :
    ∃ v, ((Service.dashboard "sales" request false).runOn later).1 = .ok (Service.dashboardAnswer v true) ∧
      LastCall 100 steps (request.cacheKey "sales") v := by
  have hproviders : ∀ kind compute, later.providers.get? kind = some compute →
      ∀ c r l, Script.computed ((compute c r).runOn l).2.server = Script.computed l.server + 1 := by
    intro kind compute hcompute c r l
    have hmem := Entries.mem_of_get? hcompute
    obtain ⟨-, rfl⟩ := Prod.mk.inj (List.mem_singleton.mp hmem)
    exact Script.computed_provider _ _ c r l
  have hcache : later.cache = cacheAfter 100 steps := rfl
  obtain ⟨hiff, hhit, -⟩ := fetch_by_run hcache Script.computed_answer hproviders "sales" request false
  have hlive : (later.cache.live later.clock (request.cacheKey "sales")).any (fun e => !e.value.isNull) = true := by
    decide +kernel
  obtain ⟨e, he, hvalue⟩ := (Option.any_eq_true _ _).mp hlive
  rw [Bool.not_eq_true'] at hvalue
  obtain ⟨v, hv⟩ := hiff.mpr ⟨by decide +kernel, rfl, e.value, hvalue, e, he, rfl⟩
  exact ⟨v, hv, (hhit v hv).2.1⟩

/-- The service after the sales of a request were fetched. -/
def afterSales (r : DashboardRequest) : Service Script :=
  { service with cache := cacheAfter 100 [.fetch service "sales" r false] }

/-- What was computed is kept until the lifetime of its period has passed. -/
theorem kept_afterSales {r : DashboardRequest} {current : Bool}
    (hblock : (service.block (Script.provider "SELECT 1" none) r).1.toOption.any (!·.isNull) = true)
    (hcurrent : r.isCurrent service.today = .ok current) :
    ∃ v, service.Computes "sales" r v ∧ v.isNull = false ∧
      (afterSales r).cache.entries.get? (r.cacheKey "sales") =
        some ⟨v, .int (Period.lifetime current), .int 0⟩ := by
  obtain ⟨v, hcomputed, hvalue⟩ :
      ∃ v, (service.block (Script.provider "SELECT 1" none) r).1 = .ok v ∧ v.isNull = false := by
    cases hrun : (service.block (Script.provider "SELECT 1" none) r).1 with
    | ok v => exact ⟨v, rfl, by simpa [hrun, Except.toOption] using hblock⟩
    | error f => simp [hrun, Except.toOption] at hblock
  have hmiss : false = true ∨ ∀ w, ¬ service.Holds (r.cacheKey "sales") w := by
    refine .inr ?_
    rintro w ⟨-, e, hnone, -⟩
    cases hnone
  obtain ⟨-, t, ht, hkept⟩ := answer_of_computes rfl hmiss List.nodup_nil hcomputed hcurrent
  obtain rfl := Except.ok.inj ht
  rw [Int.zero_add] at hkept
  exact ⟨v, ⟨_, _, rfl, hcomputed, hcurrent⟩, hvalue, hkept⟩

end Rehearsal

end TableSteward

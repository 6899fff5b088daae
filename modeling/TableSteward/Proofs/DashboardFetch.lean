import TableSteward.Proofs.CacheStep
import TableSteward.Proofs.Exchange
import TableSteward.Proofs.ReadOnly
import TableSteward.Service.Dashboards

/-!
# Fetching a dashboard

A fetch of a dashboard is one of three: its kind is unknown, its key is a hit in the cache, or its provider is called
in a read-only block.  A fetch that ends in a fault leaves every live entry with its value and its expiry.
-/
set_option autoImplicit false

namespace TableSteward

theorem Service.dashboardAnswer_inj {v w : Value} {a b : Bool}
    (h : Service.dashboardAnswer v a = Service.dashboardAnswer w b) : v = w ∧ a = b := by
  simpa [Service.dashboardAnswer] using h

namespace MetricsCache

/-- Every entry that is live at a time is found in the other cache with the same value and the same expiry. -/
def KeepsLive (c : MetricsCache Number) (now : Number) (d : MetricsCache Number) : Prop :=
  ∀ k e, c.live now k = some e →
    ∃ e', d.entries.get? k = some e' ∧ e'.value = e.value ∧ e'.expiresAt = e.expiresAt

theorem keepsLive_self (c : MetricsCache Number) (now : Number) : c.KeepsLive now c :=
  fun _ e he => ⟨e, (live_eq_some_iff.mp he).1, rfl, rfl⟩

theorem keepsLive_get {c : MetricsCache Number} (hkeys : c.entries.keys.Nodup) (now : Number) (key : String) :
    c.KeepsLive now (c.get now key).2 := by
  intro k e he
  rw [get?_get hkeys]
  by_cases hk : k = key
  · rw [if_pos hk, ← hk, he]
    exact ⟨_, rfl, rfl, rfl⟩
  · rw [if_neg hk]
    exact ⟨e, (live_eq_some_iff.mp he).1, rfl, rfl⟩

end MetricsCache

namespace Period

/-- Every clock can be read a lifetime later. -/
theorem add_lifetime (clock : Number) (current : Bool) : ∃ t, clock.add (.int (lifetime current)) = .ok t := by
  cases clock with
  | int n => exact ⟨_, rfl⟩
  | real x =>
      have hlifetime : ∃ y, Number.toBinary64 (.int (lifetime current)) = .ok y := by
        cases current with
        | true => exact ⟨_, rfl⟩
        | false => exact ⟨_, rfl⟩
      obtain ⟨y, hy⟩ := hlifetime
      refine ⟨.real (x.add y), ?_⟩
      simp only [Number.add, hy]
      rfl

end Period

namespace Service

variable {σ : Type} {s : Service σ} {kind key : String} {r : DashboardRequest} {refresh : Bool}

/-- The cache holds a live value under the key, other than null. -/
def Holds (s : Service σ) (key : String) (v : Value) : Prop :=
  v.isNull = false ∧ ∃ e, s.cache.live s.clock key = some e ∧ e.value = v

theorem Holds.unique {v w : Value} (hv : s.Holds key v) (hw : s.Holds key w) : v = w := by
  obtain ⟨-, e, he, rfl⟩ := hv
  obtain ⟨-, e', he', rfl⟩ := hw
  rw [he] at he'
  rw [Option.some.inj he']

/-- The cache after a fetch has looked into it; a refresh does not look. -/
def lookedUp (s : Service σ) (key : String) (refresh : Bool) : MetricsCache Number :=
  if refresh then s.cache else (s.cache.get s.clock key).2

theorem nodup_lookedUp (hkeys : s.cache.entries.keys.Nodup) (key : String) (refresh : Bool) :
    (s.lookedUp key refresh).entries.keys.Nodup := by
  rw [lookedUp]
  split
  · exact hkeys
  · exact MetricsCache.nodup_get hkeys _ _

theorem keepsLive_lookedUp (hkeys : s.cache.entries.keys.Nodup) :
    s.cache.KeepsLive s.clock (s.lookedUp key refresh) := by
  rw [lookedUp]
  split
  · exact MetricsCache.keepsLive_self _ _
  · exact MetricsCache.keepsLive_get hkeys _ _

theorem value_lookedUp (hkeys : s.cache.entries.keys.Nodup) {k : String} {e : CacheEntry Number}
    (he : (s.lookedUp key refresh).entries.get? k = some e) :
    ∃ e', s.cache.entries.get? k = some e' ∧ e'.value = e.value := by
  rw [lookedUp] at he
  split at he
  · exact ⟨e, he, rfl⟩
  · rw [MetricsCache.get?_get hkeys] at he
    split at he
    · rename_i hk
      obtain ⟨e', hlive, rfl⟩ := Option.map_eq_some_iff.mp he
      exact ⟨e', hk ▸ (MetricsCache.live_eq_some_iff.mp hlive).1, rfl⟩
    · exact ⟨e, he, rfl⟩

theorem runOn_provider (kind : String) (s : Service σ) :
    (provider kind).runOn s =
      match s.providers.get? kind with
      | some compute => (.ok compute, s)
      | none => (.error (.refused (.dashboardNotFound kind s.dashboardKinds)), s) := by
  rw [provider, Action.runOn_bind, Action.runOn_get]
  simp only
  cases s.providers.get? kind <;> rfl

theorem runOn_cached (key : String) (s : Service σ) :
    (cached key).runOn s =
      (.ok ((s.cache.get s.clock key).1.filter (!·.isNull)), { s with cache := (s.cache.get s.clock key).2 }) := rfl

theorem filter_get_eq_some_iff (key : String) (s : Service σ) (v : Value) :
    ((s.cache.get s.clock key).1.filter (!·.isNull)) = some v ↔ s.Holds key v := by
  rw [Option.filter_eq_some_iff, MetricsCache.get_answer, Option.map_eq_some_iff, Bool.not_eq_true', Holds, and_comm]

theorem runOn_keep {lifetime : Int} {t : Number} (h : s.clock.add (.int lifetime) = .ok t) (key : String) (v : Value) :
    (keep key v lifetime).runOn s = (.ok (), { s with cache := s.cache.set s.clock t key v }) := by
  have hset : s.cache.setFor s.clock key v (.int lifetime) = (.ok (), s.cache.set s.clock t key v) := by
    simp only [MetricsCache.setFor, Value.toNumber?, h]
  rw [keep, Action.runOn_bind, Action.runOn_get]
  simp only [hset, Action.runOn_bind, Action.runOn_set, Action.runOn_lift]

section Provider

variable [Server σ] {compute : Provider σ}

/-- The block in which a provider is called. -/
def block (s : Service σ) (compute : Provider σ) (r : DashboardRequest) : Result Value × Link σ :=
  (Exchange.readOnly r.database s.timeout fun c => compute c r).runOn s.link

/-- The provider of a kind is called with success: it answers, its connection ends well, and its period can be told. -/
def Computes (s : Service σ) (kind : String) (r : DashboardRequest) (v : Value) : Prop :=
  ∃ compute current, s.providers.get? kind = some compute ∧ (s.block compute r).1 = .ok v ∧
    r.isCurrent s.today = .ok current

theorem computeDashboard_ok {v : Value} {current : Bool} {t : Number} (hblock : (s.block compute r).1 = .ok v)
    (hcurrent : r.isCurrent s.today = .ok current) (hexpiry : s.clock.add (.int (Period.lifetime current)) = .ok t) :
    (computeDashboard key compute r).runOn s =
      (.ok (dashboardAnswer v false),
        { s with link := (s.block compute r).2, cache := s.cache.set s.clock t key v }) := by
  have hkeep := runOn_keep (s := { s with link := (s.block compute r).2 }) hexpiry key v
  rw [block] at hblock hkeep
  simp only [computeDashboard, Action.runOn_bind, Action.runOn_get, Action.runOn_onLink, hblock,
    Action.runOn_lift, hcurrent, hkeep]
  rfl

theorem computeDashboard_error (key : String) (compute : Provider σ) (r : DashboardRequest)
    (h : ∀ v current, (s.block compute r).1 = .ok v → r.isCurrent s.today ≠ .ok current) :
    ∃ f, (computeDashboard key compute r).runOn s = (.error f, { s with link := (s.block compute r).2 }) := by
  cases hblock : (s.block compute r).1 with
  | error f =>
      rw [block] at hblock
      refine ⟨f, ?_⟩
      simp only [computeDashboard, Action.runOn_bind, Action.runOn_get, Action.runOn_onLink, hblock]
      rfl
  | ok v =>
      cases hcurrent : r.isCurrent s.today with
      | ok current => exact absurd hcurrent (h v current hblock)
      | error f =>
          rw [block] at hblock
          refine ⟨f, ?_⟩
          simp only [computeDashboard, Action.runOn_bind, Action.runOn_get, Action.runOn_onLink, hblock,
            Action.runOn_lift, hcurrent]
          rfl

theorem dashboard_unknown (h : s.providers.get? kind = none) (r : DashboardRequest) (refresh : Bool) :
    ∃ f, (dashboard kind r refresh).runOn s = (.error f, s) := by
  refine ⟨.refused (.dashboardNotFound kind s.dashboardKinds), ?_⟩
  rw [dashboard, Action.runOn_bind, runOn_provider, h]

theorem dashboard_hit {v : Value} (h : s.providers.get? kind = some compute) (hholds : s.Holds (r.cacheKey kind) v) :
    (dashboard kind r false).runOn s =
      (.ok (dashboardAnswer v true), { s with cache := s.lookedUp (r.cacheKey kind) false }) := by
  rw [dashboard, Action.runOn_bind, runOn_provider, h]
  simp only [Bool.false_eq_true, if_false, Action.runOn_bind, runOn_cached,
    (filter_get_eq_some_iff _ s v).mpr hholds, Action.runOn_pure, lookedUp]

theorem dashboard_miss (h : s.providers.get? kind = some compute)
    (hmiss : refresh = true ∨ ∀ v, ¬ s.Holds (r.cacheKey kind) v) :
    (dashboard kind r refresh).runOn s =
      (computeDashboard (r.cacheKey kind) compute r).runOn
        { s with cache := s.lookedUp (r.cacheKey kind) refresh } := by
  rw [dashboard, Action.runOn_bind, runOn_provider, h]
  cases refresh with
  | true => rfl
  | false =>
      have hnone : (s.cache.get s.clock (r.cacheKey kind)).1.filter (!·.isNull) = none := by
        rw [Option.eq_none_iff_forall_ne_some]
        intro v hv
        exact hmiss.elim nofun fun hno => hno v ((filter_get_eq_some_iff _ s v).mp hv)
      simp only [Bool.false_eq_true, if_false, Action.runOn_bind, runOn_cached, hnone, lookedUp]

/-- What is left of the link of a fetch that is no hit is what the block of the provider leaves. -/
theorem link_dashboard_miss (h : s.providers.get? kind = some compute)
    (hmiss : refresh = true ∨ ∀ v, ¬ s.Holds (r.cacheKey kind) v) :
    ((dashboard kind r refresh).runOn s).2.link = (s.block compute r).2 := by
  rw [dashboard_miss h hmiss]
  by_cases hok : ∃ v current, (s.block compute r).1 = .ok v ∧ r.isCurrent s.today = .ok current
  · obtain ⟨v, current, hblock, hcurrent⟩ := hok
    obtain ⟨t, ht⟩ := Period.add_lifetime s.clock current
    rw [computeDashboard_ok (s := { s with cache := s.lookedUp (r.cacheKey kind) refresh }) hblock hcurrent ht]
    rfl
  · obtain ⟨f, hrun⟩ := computeDashboard_error
      (s := { s with cache := s.lookedUp (r.cacheKey kind) refresh }) (r.cacheKey kind) compute r
      fun v current hblock hcurrent => hok ⟨v, current, hblock, hcurrent⟩
    rw [hrun]
    rfl

/-- A fetch is a hit, a call of a provider, or a fault that leaves the cache as it was or as it was looked up. -/
theorem dashboard_cases (s : Service σ) (kind : String) (r : DashboardRequest) (refresh : Bool) :
    (∃ v, refresh = false ∧ s.Holds (r.cacheKey kind) v ∧ (s.providers.get? kind).isSome = true ∧
      (dashboard kind r refresh).runOn s =
        (.ok (dashboardAnswer v true), { s with cache := s.lookedUp (r.cacheKey kind) false })) ∨
    ((refresh = true ∨ ∀ v, ¬ s.Holds (r.cacheKey kind) v) ∧ ∃ v current compute t, s.providers.get? kind = some compute ∧
      (s.block compute r).1 = .ok v ∧ r.isCurrent s.today = .ok current ∧
      s.clock.add (.int (Period.lifetime current)) = .ok t ∧
      (dashboard kind r refresh).runOn s =
        (.ok (dashboardAnswer v false),
          { s with
            link := (s.block compute r).2
            cache := (s.lookedUp (r.cacheKey kind) refresh).set s.clock t (r.cacheKey kind) v })) ∨
    ((∀ v, ¬ s.Computes kind r v) ∧ ∃ f, ((dashboard kind r refresh).runOn s).1 = .error f ∧
      (((dashboard kind r refresh).runOn s).2.cache = s.cache ∨
        ((dashboard kind r refresh).runOn s).2.cache = s.lookedUp (r.cacheKey kind) refresh)) := by
  cases hkind : s.providers.get? kind with
  | none =>
      obtain ⟨f, hrun⟩ := dashboard_unknown hkind r refresh
      refine .inr (.inr ⟨?_, f, by rw [hrun], .inl (by rw [hrun])⟩)
      rintro v ⟨compute, current, hcompute, -⟩
      rw [hkind] at hcompute
      cases hcompute
  | some compute =>
      by_cases hhit : refresh = false ∧ ∃ v, s.Holds (r.cacheKey kind) v
      · obtain ⟨rfl, v, hholds⟩ := hhit
        exact .inl ⟨v, rfl, hholds, rfl, dashboard_hit hkind hholds⟩
      have hmiss : refresh = true ∨ ∀ v, ¬ s.Holds (r.cacheKey kind) v := by
        cases refresh with
        | true => exact .inl rfl
        | false => exact .inr fun v hv => hhit ⟨rfl, v, hv⟩
      rw [dashboard_miss hkind hmiss]
      by_cases hcomputes : ∃ v, s.Computes kind r v
      · obtain ⟨v, compute', current, hcompute', hblock, hcurrent⟩ := hcomputes
        obtain rfl := Option.some.inj (hkind.symm.trans hcompute')
        obtain ⟨t, ht⟩ := Period.add_lifetime s.clock current
        refine .inr (.inl ⟨hmiss, v, current, compute, t, rfl, hblock, hcurrent, ht, ?_⟩)
        exact computeDashboard_ok (s := { s with cache := s.lookedUp (r.cacheKey kind) refresh }) hblock hcurrent ht
      · obtain ⟨f, hrun⟩ := computeDashboard_error
          (s := { s with cache := s.lookedUp (r.cacheKey kind) refresh }) (r.cacheKey kind) compute r
          fun v current hblock hcurrent => hcomputes ⟨v, compute, current, hkind, hblock, hcurrent⟩
        refine .inr (.inr ⟨fun v hv => hcomputes ⟨v, hv⟩, f, by rw [hrun], .inr (by rw [hrun])⟩)

end Provider

end Service

end TableSteward

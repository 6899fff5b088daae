import TableSteward.Proofs.DashboardRun
import TableSteward.Proofs.DayNumber

/-!
# Lifetimes of dashboards

A dashboard is kept for an hour if its period is current, and else for a week.  A week is current before it begins,
while it runs and on the day after it.  A month is current while it runs, but not before it begins.
-/
set_option autoImplicit false

namespace TableSteward

namespace Period

variable {start today : Date} {periodType : String} {current : Bool}

theorem isCurrent_month (h : isCurrent start "monthly" today = .ok current) :
    current = false ↔ Date.monthStart start.year (start.month + 1) ≤ today.dayNumber ∨
      today.dayNumber < Date.monthStart start.year start.month := by
  have hcurrent : current = true ↔ today.year = start.year ∧ today.month = start.month := by
    rw [isCurrent, beq_self_eq_true, if_pos rfl] at h
    rw [← Except.ok.inj h, Bool.and_eq_true, beq_iff_eq, beq_iff_eq, eq_comm, @eq_comm _ start.month]
  rw [← Bool.not_eq_true, hcurrent, ← Date.within_month_iff]
  omega

theorem isCurrent_week (htype : periodType ≠ "monthly") (h : isCurrent start periodType today = .ok current) :
    current = false ↔ start.dayNumber + weekLength < today.dayNumber := by
  rw [isCurrent, if_neg (by simpa using htype)] at h
  split at h
  · rename_i limit hlimit
    have hback := Date.back?_eq_some_iff.mp hlimit
    rw [← Except.ok.inj h, decide_eq_false_iff_not]
    omega
  · cases h

theorem lifetime_cases (current : Bool) :
    (lifetime current = 60 * 60 ∨ lifetime current = 7 * 24 * 60 * 60) ∧
      (lifetime current = 7 * 24 * 60 * 60 ↔ current = false) := by
  cases current <;> decide

/-- Whether a period is current can be told unless a week before today there was no calendar. -/
theorem isCurrent_ok (start : Date) (h : periodType = "monthly" ∨ weekLength < today.dayNumber) :
    ∃ current, isCurrent start periodType today = .ok current := by
  rw [isCurrent]
  by_cases htype : periodType = "monthly"
  · exact ⟨_, if_pos (by simp [htype])⟩
  · have hlast := today.dayNumber_le_lastNumber
    have hlate := h.resolve_left htype
    obtain ⟨limit, -, hlimit⟩ := Date.ofDayNumber?_eq_some (n := today.dayNumber - weekLength) (by omega) (by omega)
    have hback : today.back? weekLength = some limit := Date.back?_eq_some_iff.mpr (by omega)
    rw [if_neg (by simpa using htype), hback]
    exact ⟨_, rfl⟩

end Period

namespace Service

variable {σ : Type} [Server σ] {s : Service σ} {kind : String} {r : DashboardRequest} {refresh : Bool}

/-- A fetch that does not answer from the cache keeps what it answers for the lifetime of the period. -/
theorem kept_of_answer {v : Value}
    (h : ((dashboard kind r refresh).runOn s).1 = .ok (dashboardAnswer v false)) :
    ∃ current t, r.isCurrent s.today = .ok current ∧ s.clock.add (.int (Period.lifetime current)) = .ok t ∧
      ((dashboard kind r refresh).runOn s).2.cache.entries.get? (r.cacheKey kind) = some ⟨v, t, s.clock⟩ := by
  rcases dashboard_cases s kind r refresh with
    ⟨w, -, -, -, hrun⟩ | ⟨-, w, current, compute, t, -, -, hcurrent, ht, hrun⟩ | ⟨-, f, hf, -⟩
  · rw [hrun] at h
    cases (dashboardAnswer_inj (Except.ok.inj h)).2
  · rw [hrun] at h ⊢
    obtain ⟨rfl, -⟩ := dashboardAnswer_inj (Except.ok.inj h)
    refine ⟨current, t, hcurrent, ht, ?_⟩
    simp only [MetricsCache.set]
    rw [Entries.get?_put, if_pos rfl]
  · rw [hf] at h
    cases h

theorem answer_of_block {compute : Provider σ} {v : Value} {current : Bool}
    (hcompute : s.providers.get? kind = some compute)
    (hmiss : refresh = true ∨ ∀ w, ¬ s.Holds (r.cacheKey kind) w)
    (hblock : (s.block compute r).1 = .ok v) (hcurrent : r.isCurrent s.today = .ok current) :
    ((dashboard kind r refresh).runOn s).1 = .ok (dashboardAnswer v false) := by
  obtain ⟨t, ht⟩ := Period.add_lifetime s.clock current
  rw [dashboard_miss hcompute hmiss,
    computeDashboard_ok (s := { s with cache := s.lookedUp (r.cacheKey kind) refresh }) hblock hcurrent ht]

/-- Every fetch for a period with a beginning.  What is computed is kept for an hour or for a week.  If it is about a week,
it is kept for a week just if this was over before today; if it is about a month, just if this is over or yet to begin.
It is kept whenever the provider computes it, unless there was no calendar a week before today. -/
theorem kept_by_period (s : Service σ) (kind : String) (r : DashboardRequest) (refresh : Bool) {start : Date}
    (hstart : r.periodStart = some start) :
    (∀ v, ((dashboard kind r refresh).runOn s).1 = .ok (dashboardAnswer v false) →
      ∃ seconds t, (seconds = 60 * 60 ∨ seconds = 7 * 24 * 60 * 60) ∧ s.clock.add (.int seconds) = .ok t ∧
        ((dashboard kind r refresh).runOn s).2.cache.entries.get? (r.cacheKey kind) = some ⟨v, t, s.clock⟩ ∧
        (r.periodType ≠ "monthly" → (seconds = 7 * 24 * 60 * 60 ↔ start.dayNumber + 7 < s.today.dayNumber)) ∧
        (r.periodType = "monthly" → (seconds = 7 * 24 * 60 * 60 ↔
          Date.monthStart start.year (start.month + 1) ≤ s.today.dayNumber ∨
            s.today.dayNumber < Date.monthStart start.year start.month))) ∧
    ∀ compute v, s.providers.get? kind = some compute →
      (refresh = true ∨ ∀ w, ¬ s.Holds (r.cacheKey kind) w) → (s.block compute r).1 = .ok v →
      (r.periodType = "monthly" ∨ 7 < s.today.dayNumber) →
      ((dashboard kind r refresh).runOn s).1 = .ok (dashboardAnswer v false) := by
  have hperiod : r.isCurrent s.today = Period.isCurrent start r.periodType s.today := by
    rw [DashboardRequest.isCurrent, hstart]
  constructor
  · intro v hanswer
    obtain ⟨current, t, hcurrent, ht, hkept⟩ := kept_of_answer hanswer
    rw [hperiod] at hcurrent
    obtain ⟨hlength, hweek⟩ := Period.lifetime_cases current
    refine ⟨Period.lifetime current, t, hlength, ht, hkept, ?_, ?_⟩
    · intro htype
      rw [hweek]
      exact Period.isCurrent_week htype hcurrent
    · intro htype
      rw [htype] at hcurrent
      rw [hweek]
      exact Period.isCurrent_month hcurrent
  · intro compute v hcompute hmiss hblock htold
    obtain ⟨current, hcurrent⟩ := Period.isCurrent_ok start htold
    exact answer_of_block hcompute hmiss hblock (hperiod.trans hcurrent)

end Service

/-! ## A rehearsal -/

namespace Rehearsal

/-- On the first of March 2024, February is over and April is yet to begin. -/
def february : DashboardRequest :=
  { database := "Prod", periodType := "monthly", periodStart := some ⟨2024, 2, 1, by decide⟩ }

def april : DashboardRequest :=
  { database := "Prod", periodType := "monthly", periodStart := some ⟨2024, 4, 1, by decide⟩ }

theorem kept_by_period_of_february :
    ∃ v, ((Service.dashboard "sales" february true).runOn service).1 = .ok (Service.dashboardAnswer v false) ∧
      ((Service.dashboard "sales" february true).runOn service).2.cache.entries.get? (february.cacheKey "sales") =
        some ⟨v, .int 604800, .int 0⟩ := by
  obtain ⟨hkept, hanswers⟩ := Service.kept_by_period service "sales" february true rfl
  have hcurrent : february.isCurrent service.today = .ok false := rfl
  obtain ⟨v, ⟨compute, -, hcompute, hblock, -⟩, -⟩ := kept_afterSales (by decide +kernel) hcurrent
  have hanswer := hanswers compute v hcompute (.inl rfl) hblock (.inl rfl)
  obtain ⟨seconds, t, -, ht, hentry, -, hmonth⟩ := hkept v hanswer
  obtain rfl := (hmonth rfl).mpr (by decide)
  obtain rfl := Except.ok.inj ht
  exact ⟨v, hanswer, hentry⟩

/-- The sales of April are kept for a week although it is yet to begin. -/
theorem april_kept_for_week :
    service.today.dayNumber < Date.monthStart 2024 4 ∧
      ∃ v, (afterSales april).cache.entries.get? (april.cacheKey "sales") = some ⟨v, .int 604800, .int 0⟩ ∧
        ((Service.dashboard "sales" april false).runOn { afterSales april with clock := .int 604800 }).1 =
          .ok (Service.dashboardAnswer v true) := by
  have hcurrent : april.isCurrent service.today = .ok false := rfl
  obtain ⟨v, -, hvalue, hkept⟩ := kept_afterSales (by decide +kernel) hcurrent
  refine ⟨by decide, v, hkept, ?_⟩
  have hunexpired : ¬ Number.int (Period.lifetime false) < .int 604800 := by decide
  have hlive : (afterSales april).cache.live (.int 604800) (april.cacheKey "sales") = some ⟨v, _, _⟩ :=
    MetricsCache.live_eq_some_iff.mpr ⟨hkept, hunexpired⟩
  have hholds : { afterSales april with clock := .int 604800 }.Holds (april.cacheKey "sales") v :=
    ⟨hvalue, _, hlive, rfl⟩
  rw [Service.dashboard_hit rfl hholds]

end Rehearsal

end TableSteward

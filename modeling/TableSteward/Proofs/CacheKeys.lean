import TableSteward.Http.Endpoint.Dashboards
import TableSteward.Proofs.DashboardRun
import TableSteward.Proofs.HistoryOrder

/-!
# Keys of dashboards

The key of a dashboard puts a colon between its kind, its database, its period and its zones.  These may hold colons of
their own, and then a key does not tell where one part ends and the next begins: two requests with one key are for the
same dashboard just if their parts have equal numbers of colons.
-/
set_option autoImplicit false

namespace TableSteward

/-! ## Separated texts -/

/-- A text in front of a separator can be told by the separators that it holds itself. -/
theorem append_separator_inj {sep : Char} {a : List Char} :
    ∀ {b rest rest' : List Char}, a ++ sep :: rest = b ++ sep :: rest' → a.count sep = b.count sep →
      a = b ∧ rest = rest' := by
  induction a with
  | nil =>
      intro b rest rest' h hcount
      cases b with
      | nil => exact ⟨rfl, List.cons.inj h |>.2⟩
      | cons c b =>
          -- a text that goes on where the other one ends holds one separator more
          obtain ⟨rfl, -⟩ := List.cons.inj h
          simp at hcount
  | cons c a ih =>
      intro b rest rest' h hcount
      cases b with
      | nil =>
          obtain ⟨rfl, -⟩ := List.cons.inj h
          simp at hcount
      | cons d b =>
          obtain ⟨rfl, htail⟩ := List.cons.inj h
          rw [List.count_cons, List.count_cons, Nat.add_right_cancel_iff] at hcount
          obtain ⟨rfl, hrest⟩ := ih htail hcount
          exact ⟨rfl, hrest⟩

theorem Text.not_mem_of_mem_splitOn {sep : Char} {cs : List Char} :
    ∀ piece ∈ splitOn sep cs, sep ∉ piece := by
  induction cs with
  | nil => simp [splitOn]
  | cons c rest ih =>
      intro piece hpiece
      rw [splitOn] at hpiece
      by_cases hc : (c == sep) = true
      · rw [if_pos hc, List.mem_cons] at hpiece
        rcases hpiece with rfl | hpiece
        · simp
        · exact ih piece hpiece
      · have hne : sep ≠ c := fun hsame => hc (by simp [hsame])
        rw [if_neg hc] at hpiece
        split at hpiece
        · rw [List.mem_singleton] at hpiece
          simp [hpiece, hne]
        · rename_i first others hsplit
          rw [hsplit] at ih
          rcases List.mem_cons.mp hpiece with rfl | hpiece
          · rw [List.mem_cons, not_or]
            exact ⟨hne, ih first (List.mem_cons_self ..)⟩
          · exact ih piece (List.mem_cons_of_mem _ hpiece)

theorem Text.subset_strip (p : Char → Bool) (cs : List Char) : strip p cs ⊆ cs := by
  intro c hc
  rw [strip, List.mem_reverse] at hc
  have hc := (List.dropWhile_sublist p).subset hc
  rw [List.mem_reverse] at hc
  exact (List.dropWhile_sublist p).subset hc

/-! ## Requests -/

/-- The requests for dashboards that can come over the network. -/
def Http.Asked (r : DashboardRequest) : Prop :=
  ∃ (q : Http.DashboardQuery) (database : String), q.request database = .ok r

namespace Http.Asked

variable {r : DashboardRequest}

theorem eq_request (h : Asked r) : r.periodType ∈ Period.types ∧ ∃ s, r.zones = zoneNames s := by
  obtain ⟨q, database, h⟩ := h
  unfold DashboardQuery.request at h
  split at h
  · rename_i htype
    cases h
    exact ⟨List.contains_iff_mem.mp htype, _, rfl⟩
  · cases h

theorem count_periodType (h : Asked r) : r.periodType.toList.count ':' = 0 := by
  have htypes : ∀ t ∈ Period.types, t.toList.count ':' = 0 := by decide
  exact htypes _ h.eq_request.1

theorem comma_not_mem (h : Asked r) : ∀ zone ∈ r.zones, ',' ∉ zone.toList := by
  intro zone hzone hcomma
  obtain ⟨-, s, hzones⟩ := h.eq_request
  rw [hzones, zoneNames, List.map_map] at hzone
  obtain ⟨piece, hpiece, rfl⟩ := List.mem_map.mp (List.mem_of_mem_filter hzone)
  rw [Function.comp_apply, Text.trim, String.toList_ofList, String.toList_ofList] at hcomma
  exact Text.not_mem_of_mem_splitOn piece hpiece (Text.subset_strip _ _ hcomma)

end Http.Asked

namespace DashboardRequest

variable (r r' : DashboardRequest) (kind kind' : String)

/-- What the key calls the period; no period is called like the period `all`. -/
def periodName : String := if (r.periodId.getD "").isEmpty then "all" else r.periodId.getD ""

/-- What the key calls the zones; no zones are called like the zone `all`. -/
def zoneNames : List String := if r.zones.isEmpty then ["all"] else r.zones

/-- Two requests are for the same dashboard, of the same database, period and zones in any order. -/
structure Same : Prop where
  kind : kind = kind'
  database : r.database = r'.database
  periodType : r.periodType = r'.periodType
  period : r.periodName = r'.periodName
  zones : r.zoneNames.Perm r'.zoneNames

/-- The parts of two requests that stand before the zones have equal numbers of colons. -/
structure Aligned : Prop where
  kind : kind.toList.count ':' = kind'.toList.count ':'
  database : r.database.toList.count ':' = r'.database.toList.count ':'
  period : r.periodName.toList.count ':' = r'.periodName.toList.count ':'

def zonesText : String := ",".intercalate (Period.sortTexts r.zoneNames)

theorem toList_cacheKey : (r.cacheKey kind).toList =
    kind.toList ++ ':' :: (r.database.toList ++ ':' :: (r.periodType.toList ++ ':' ::
      (r.periodName.toList ++ ':' :: r.zonesText.toList))) := by
  have hzones : (if r.zones.isEmpty then "all" else ",".intercalate (Period.sortTexts r.zones)) = r.zonesText := by
    unfold zonesText zoneNames
    split
    · simp [Period.sortTexts]
    · rfl
  rw [cacheKey, Period.cacheKey, hzones]
  simp [periodName, String.intercalate_cons_cons]

variable {r r' kind kind'}

theorem comma_not_mem_zoneNames (h : Http.Asked r) : ∀ zone ∈ r.zoneNames, ',' ∉ zone.toList := by
  intro zone hzone
  unfold zoneNames at hzone
  split at hzone
  · rw [List.mem_singleton] at hzone
    rw [hzone]
    decide
  · exact h.comma_not_mem zone hzone

theorem zonesText_pieces (h : Http.Asked r) :
    r.zonesText.toList.splitOn ',' = (Period.sortTexts r.zoneNames).map String.toList := by
  have hperm : (Period.sortTexts r.zoneNames).Perm r.zoneNames := List.mergeSort_perm _ _
  have hnonempty : r.zoneNames ≠ [] := by
    unfold zoneNames
    split
    · exact List.cons_ne_nil _ _
    · rename_i hzones
      exact fun hnone => hzones (List.isEmpty_iff.mpr hnone)
  rw [zonesText, String.toList_intercalate]
  apply List.splitOn_intercalate
  · intro piece hpiece
    obtain ⟨zone, hzone, rfl⟩ := List.mem_map.mp hpiece
    exact comma_not_mem_zoneNames h zone (hperm.subset hzone)
  · intro hnone
    rw [List.map_eq_nil_iff] at hnone
    rw [hnone] at hperm
    exact hnonempty (List.nil_perm.mp hperm)

/-- Zones have one text just if they are the same in any order. -/
theorem zonesText_eq_iff (h : Http.Asked r) (h' : Http.Asked r') :
    r.zonesText = r'.zonesText ↔ r.zoneNames.Perm r'.zoneNames := by
  rw [← sortedTexts_eq_iff]
  constructor
  · intro hsame
    have hpieces := zonesText_pieces h
    rw [hsame, zonesText_pieces h'] at hpieces
    exact (List.map_injective_iff.mpr (fun _ _ => String.toList_injective) hpieces).symm
  · exact fun hsame => congrArg (",".intercalate ·) hsame

theorem Same.aligned (h : Same r r' kind kind') : Aligned r r' kind kind' :=
  ⟨by rw [h.kind], by rw [h.database], by rw [h.period]⟩

theorem cacheKey_eq_iff (h : Http.Asked r) (h' : Http.Asked r') (haligned : Aligned r r' kind kind') :
    r.cacheKey kind = r'.cacheKey kind' ↔ Same r r' kind kind' := by
  rw [← String.toList_inj, toList_cacheKey, toList_cacheKey]
  constructor
  · intro hkeys
    obtain ⟨hkind, hkeys⟩ := append_separator_inj hkeys haligned.kind
    obtain ⟨hdatabase, hkeys⟩ := append_separator_inj hkeys haligned.database
    obtain ⟨htype, hkeys⟩ := append_separator_inj hkeys (h.count_periodType.trans h'.count_periodType.symm)
    obtain ⟨hperiod, hzones⟩ := append_separator_inj hkeys haligned.period
    exact ⟨String.toList_inj.mp hkind, String.toList_inj.mp hdatabase, String.toList_inj.mp htype,
      String.toList_inj.mp hperiod, (zonesText_eq_iff h h').mp (String.toList_inj.mp hzones)⟩
  · intro hsame
    rw [hsame.kind, hsame.database, hsame.periodType, hsame.period, (zonesText_eq_iff h h').mpr hsame.zones]

end DashboardRequest

/-! ## What is served -/

namespace Dashboards

open DashboardRequest

variable {σ : Type} [Server σ] {capacity : Int} {steps : List (DashboardStep σ)}

theorem LastCall.exists_fetch {key : String} {v : Value} (h : LastCall capacity steps key v) :
    ∃ earlier kind r refresh, DashboardStep.fetch earlier kind r refresh ∈ steps ∧ r.cacheKey kind = key ∧
      earlier.Computes kind r v := by
  obtain ⟨before, step, later, rfl, hcalls, -⟩ := h
  cases step with
  | fetch earlier kind r refresh =>
      obtain ⟨hkey, -, hcomputes⟩ := hcalls
      exact ⟨earlier, kind, r, refresh, by simp, hkey, hcomputes⟩
  | clear _ _ => exact hcalls.elim

/-- An answer from the cache was computed by an earlier fetch under the same key. -/
theorem exists_fetch_of_fromCache {s : Service σ} (hcache : s.cache = cacheAfter capacity steps) {kind : String}
    {r : DashboardRequest} {refresh : Bool} {v : Value}
    (h : ((Service.dashboard kind r refresh).runOn s).1 = .ok (Service.dashboardAnswer v true)) :
    ∃ earlier kind' r' refresh', DashboardStep.fetch earlier kind' r' refresh' ∈ steps ∧
      r'.cacheKey kind' = r.cacheKey kind ∧ earlier.Computes kind' r' v := by
  obtain ⟨⟨-, e, hlive, rfl⟩, -⟩ := holds_of_fromCache h
  have hprovided : Provided capacity steps s.cache := hcache ▸ provided_cacheAfter steps
  exact (hprovided.values _ e (MetricsCache.live_eq_some_iff.mp hlive).1).exists_fetch

/-- Two requests are for the same dashboard just if they have one key and their parts have equal numbers of colons.  In
every run an answer from the cache was computed for a request under the same key, and for the same dashboard just if
its parts have as many colons. -/
theorem keys_identify_aligned {s : Service σ} (hcache : s.cache = cacheAfter capacity steps) {r : DashboardRequest}
    (hasked : Http.Asked r) (kind : String) :
    (∀ kind' r', Http.Asked r' →
      (Same r r' kind kind' ↔ r.cacheKey kind = r'.cacheKey kind' ∧ Aligned r r' kind kind')) ∧
    ∀ refresh v, ((Service.dashboard kind r refresh).runOn s).1 = .ok (Service.dashboardAnswer v true) →
      ∃ earlier kind' r' refresh', DashboardStep.fetch earlier kind' r' refresh' ∈ steps ∧
        earlier.Computes kind' r' v ∧ (Http.Asked r' → (Same r r' kind kind' ↔ Aligned r r' kind kind')) := by
  constructor
  · intro kind' r' hasked'
    constructor
    · intro hsame
      exact ⟨(cacheKey_eq_iff hasked hasked' hsame.aligned).mpr hsame, hsame.aligned⟩
    · rintro ⟨hkeys, haligned⟩
      exact (cacheKey_eq_iff hasked hasked' haligned).mp hkeys
  · intro refresh v hanswer
    obtain ⟨earlier, kind', r', refresh', hmem, hkeys, hcomputes⟩ := exists_fetch_of_fromCache hcache hanswer
    refine ⟨earlier, kind', r', refresh', hmem, hcomputes, ?_⟩
    intro hasked'
    exact ⟨Same.aligned, fun haligned => (cacheKey_eq_iff hasked hasked' haligned).mp hkeys.symm⟩

end Dashboards

/-! ## A rehearsal -/

namespace Rehearsal

open DashboardRequest Dashboards

def ofZones : DashboardRequest := { database := "Prod", zones := ["SF", "LA"] }

def ofZonesTurned : DashboardRequest := { database := "Prod", zones := ["LA", "SF"] }

def ofPeriod : DashboardRequest := { database := "Prod", periodId := some "2025-01:north" }

def ofPeriodAndZone : DashboardRequest := { database := "Prod", periodId := some "2025-01", zones := ["north:all"] }

theorem asked_ofZones : Http.Asked ofZones := ⟨⟨"weekly", none, none, some "SF, LA", false⟩, "Prod", by rfl⟩

theorem asked_ofZonesTurned : Http.Asked ofZonesTurned :=
  ⟨⟨"weekly", none, none, some "LA,SF,", false⟩, "Prod", by rfl⟩

/-- The sales are kept for an hour, and served to every request under the same key. -/
theorem served_afterSales {r r' : DashboardRequest} (hperiod : r.periodStart = none)
    (hblock : (service.block (Script.provider "SELECT 1" none) r).1.toOption.any (!·.isNull) = true)
    (hkeys : r'.cacheKey "sales" = r.cacheKey "sales") :
    ∃ v, ((Service.dashboard "sales" r' false).runOn (afterSales r)).1 = .ok (Service.dashboardAnswer v true) ∧
      service.Computes "sales" r v := by
  have hcurrent : r.isCurrent service.today = .ok true := by
    rw [DashboardRequest.isCurrent, hperiod]
  obtain ⟨v, hcomputes, hvalue, hkept⟩ := kept_afterSales hblock hcurrent
  have hunexpired : ¬ Number.int (Period.lifetime true) < .int 0 := by decide
  have hlive : (afterSales r).cache.live (afterSales r).clock (r'.cacheKey "sales") = some ⟨v, _, _⟩ :=
    MetricsCache.live_eq_some_iff.mpr ⟨hkeys ▸ hkept, hunexpired⟩
  exact ⟨v, by rw [Service.dashboard_hit rfl ⟨hvalue, _, hlive, rfl⟩], hcomputes⟩

theorem eq_of_mem_fetch {r r' : DashboardRequest} {earlier : Service Script} {kind : String} {refresh : Bool}
    (h : DashboardStep.fetch earlier kind r' refresh ∈ [.fetch service "sales" r false]) :
    earlier = service ∧ kind = "sales" ∧ r' = r := by
  rw [List.mem_singleton, DashboardStep.fetch.injEq] at h
  exact ⟨h.1, h.2.1, h.2.2.1⟩

/-- The order of the zones is not in the key, and the second request is served from the cache. -/
theorem keys_identify_aligned_of_zones :
    ofZonesTurned.cacheKey "sales" = ofZones.cacheKey "sales" ∧
      ∃ v, ((Service.dashboard "sales" ofZonesTurned false).runOn (afterSales ofZones)).1 =
        .ok (Service.dashboardAnswer v true) ∧ service.Computes "sales" ofZones v := by
  have hcache : (afterSales ofZones).cache = cacheAfter 100 [.fetch service "sales" ofZones false] := rfl
  obtain ⟨hkeys, hserved⟩ := keys_identify_aligned hcache asked_ofZonesTurned "sales"
  have hzones : ofZonesTurned.zoneNames.Perm ofZones.zoneNames := by decide +kernel
  obtain ⟨hkey, -⟩ := (hkeys "sales" ofZones asked_ofZones).mp ⟨rfl, rfl, rfl, rfl, hzones⟩
  obtain ⟨v, hanswer, -⟩ := served_afterSales rfl (by decide +kernel) hkey
  refine ⟨hkey, v, hanswer, ?_⟩
  obtain ⟨earlier, kind, r, refresh, hmem, hcomputes, -⟩ := hserved false v hanswer
  obtain ⟨rfl, rfl, rfl⟩ := eq_of_mem_fetch hmem
  exact hcomputes

/-- A request is served what was computed for another period and other zones. -/
theorem period_served_for_zone :
    Http.Asked ofPeriod ∧ Http.Asked ofPeriodAndZone ∧
      ofPeriodAndZone.cacheKey "sales" = ofPeriod.cacheKey "sales" ∧
      ofPeriod.periodId ≠ ofPeriodAndZone.periodId ∧ ¬ ofPeriod.zones.Perm ofPeriodAndZone.zones ∧
      ∃ v, ((Service.dashboard "sales" ofPeriodAndZone false).runOn (afterSales ofPeriod)).1 =
        .ok (Service.dashboardAnswer v true) ∧ service.Computes "sales" ofPeriod v := by
  have hkey : ofPeriodAndZone.cacheKey "sales" = ofPeriod.cacheKey "sales" := by decide +kernel
  refine ⟨⟨⟨"weekly", some "2025-01:north", none, none, false⟩, "Prod", by rfl⟩,
    ⟨⟨"weekly", some "2025-01", none, some "north:all", false⟩, "Prod", by rfl⟩, hkey, by decide, by decide, ?_⟩
  exact served_afterSales rfl (by decide +kernel) hkey

end Rehearsal

end TableSteward

import TableSteward.Proofs.Errand

/-!
# What a request executes

Whoever asks, and whatever the databases answer, a request executes only what its errand allows, it has an answer
only if every table that it names is cleared, and it ends alike on paired servers.  The lemmas follow the
operations from the gate outwards; each says what its operation leaves in the journal.
-/
set_option autoImplicit false

namespace TableSteward

open Exchange

variable {σ τ : Type} [Server σ] [Server τ] {w : Errand} {js : List Entry} {c : Connection}

/-! ## The catalog and the gate -/

namespace Catalog

variable {A : Account} {g : Gate} {P : Pairing σ τ A g} {database : String}

/-- Two runs may hear different things about whether a table exists only if the gate bars it. -/
theorem keeps_tableExists (hc : c.site = .browsed database) (t : TableRef) :
    Keeps P js (tableExists c t) (tableExists c t) fun found found' js' =>
      (found = found' ∧ (found = true → Found js' database t)) ∨ g.Bars c t := by
  unfold tableExists
  refine (keeps_execute_tableExists c t).andThen ?_
  rintro rows rows' _ - ⟨rfl, hrows⟩
  refine keeps_pure ?_
  rcases hrows with rfl | hbars
  · refine Or.inl ⟨rfl, fun hfound => ⟨rows, answered_concat hc, ?_⟩⟩
    simpa using hfound
  · exact Or.inr hbars

theorem keeps_columns (hc : c.site = .browsed database) {t : TableRef} (ht : A js c (.columns t)) :
    Keeps P js (columns c t) (columns c t) (Same fun names js' => ListsColumns js' database t names) := by
  unfold columns
  refine (keeps_execute c (.columns t) rfl fun _ => ht).bind ?_
  intro rows _ _ hjs
  subst hjs
  exact keeps_lift _ fun names hnames => ⟨rows, answered_concat hc, hnames⟩

theorem keeps_primaryKey (hc : c.site = .browsed database) {t : TableRef}
    (ht : A js c (.primaryKey t)) :
    Keeps P js (primaryKey c t) (primaryKey c t)
      (Same fun names js' => ListsKey js' database t names) := by
  unfold primaryKey
  refine (keeps_execute c (.primaryKey t) rfl fun _ => ht).bind ?_
  intro rows _ _ hjs
  subst hjs
  exact keeps_lift _ fun names hnames => ⟨rows, answered_concat hc, hnames⟩

/-- Two listings may differ in the tables that the gate keeps back. -/
theorem keeps_listTables (hc : c.site = .browsed database) :
    Keeps P js (listTables c) (listTables c)
      fun xs ys _ => g.browsable database xs = g.browsable database ys := by
  rw [listTables_eq, listTables_eq]
  refine (keeps_execute_listTables c).andThen fun rows rows' js' _ hrows => ?_
  rcases hrows with rfl | ⟨xs, ys, hxs, hys, hlevel⟩
  · refine (keeps_lift (Q := fun _ _ => True) _ fun _ _ => trivial).weaken fun xs ys _ _ hsame => ?_
    rw [hsame.1]
  · rw [hxs, hys]
    exact keeps_pure (hlevel database hc)

end Catalog

namespace Errand

variable {P : Pairing σ τ w.account w.gate}

theorem keeps_authorize (hc : c.site = .browsed w.database) (name : String) :
    Keeps P js (w.gate.authorize w.bypass (Catalog.tableExists c) w.database (.text name))
      (w.gate.authorize w.bypass (Catalog.tableExists c) w.database (.text name))
      (Same fun t js' => TableRef.ofText name = .ok t ∧ w.Clears js' t) := by
  rw [Gate.authorize_eq, Gate.authorize_eq]
  refine keeps_lift_bind fun t ht => ?_
  refine keeps_require_bind fun _ => ?_
  refine (Catalog.keeps_tableExists hc t).andThen ?_
  rintro found found' js₁ - (⟨rfl, hfound⟩ | hbars)
  · refine keeps_require_bind fun htrue => ?_
    refine keeps_require_bind fun _ => ?_
    refine keeps_require_bind fun hread => ?_
    refine keeps_require_bind fun hsee => ?_
    exact keeps_pure ⟨rfl, ht, hfound htrue, hread, Bool.or_eq_true_iff.mp hsee⟩
  · have hread := hbars.unread w.database hc
    rw [Gate.refused_of_bars found _ hbars.keys hread, Gate.refused_of_bars found' _ hbars.keys hread]
    exact keeps_throw _

theorem keeps_columnInfo {t : TableRef} (hc : c.site = .browsed w.database) (ht : w.Clears js t) :
    Keeps P js (Catalog.columnInfo c t) (Catalog.columnInfo c t) (Same fun _ _ => True) := by
  rw [Catalog.columnInfo_eq, Catalog.columnInfo_eq]
  refine (keeps_execute c (.columns t) rfl fun _ => account_columns hc ht).bind fun rows js₁ h₀₁ _ => ?_
  have hkey := account_primaryKey hc (ht.mono h₀₁)
  refine (Catalog.keeps_primaryKey (P := P) hc hkey).bind fun _ _ _ _ => ?_
  refine keeps_require_bind fun _ => ?_
  exact keeps_lift _ fun _ _ => trivial

end Errand

/-! ## Plans -/

namespace JoinPlan

variable {P : Pairing σ τ w.account w.gate}

theorem known_of_requireColumn {hop : Hop} {i : Identifier} {t : PlannedTable}
    (h : requireColumn hop i t = .ok ()) : i.isAmong t.columns = true := by
  unfold requireColumn at h
  by_cases hknown : i.isAmong t.columns = true
  · exact hknown
  · rw [if_neg hknown] at h
    exact nomatch h

theorem keeps_buildHop (hc : c.site = .browsed w.database) (left : PlannedTable) (hop : Hop)
    (j : JoinSpec) :
    Keeps P js (buildHop (Catalog.joinSource c w.gate w.bypass w.database) left hop j)
      (buildHop (Catalog.joinSource c w.gate w.bypass w.database) left hop j)
      (Same fun h js' => h.Leads left hop ∧ TableRef.ofText j.table = .ok h.table.ref ∧
        w.Admits js' h.table) := by
  unfold buildHop
  simp only [lift_eq]
  refine keeps_lift_bind fun ⟨kind, a, b⟩ _ => ?_
  refine (w.keeps_authorize hc j.table).bind fun ref js₁ _ hgate => ?_
  obtain ⟨href, hclears⟩ := hgate
  refine (Catalog.keeps_columns hc (Errand.account_columns hc hclears)).bind
    fun columns js₂ h₁₂ hlisted => ?_
  refine keeps_lift_bind fun _ hleft => ?_
  refine keeps_lift_bind fun _ hright => ?_
  refine keeps_pure ⟨rfl, ?_, href, hclears.mono h₁₂, hlisted⟩
  exact ⟨rfl, rfl, known_of_requireColumn hleft, rfl, known_of_requireColumn hright⟩

theorem keeps_buildHops (hc : c.site = .browsed w.database) :
    ∀ (places : List Hop) (specs : List JoinSpec) (left : PlannedTable) (js : List Entry),
      specs.length ≤ places.length →
      Keeps P js (buildHops (Catalog.joinSource c w.gate w.bypass w.database) left places specs)
        (buildHops (Catalog.joinSource c w.gate w.bypass w.database) left places specs)
        (Same fun hs js' => ChainFrom left places hs ∧
          List.Forall₂ (fun name t => TableRef.ofText name = .ok t.ref)
            (specs.map JoinSpec.table) (hs.map PlannedHop.table) ∧
          ∀ t ∈ hs.map PlannedHop.table, w.Admits js' t) := by
  -- There are at least as many places as hops, so no hop is left out of the plan.
  intro places
  induction places with
  | nil =>
      intro specs left js hlength
      obtain rfl : specs = [] := List.length_eq_zero_iff.mp (Nat.le_zero.mp hlength)
      exact keeps_pure ⟨rfl, trivial, .nil, by simp⟩
  | cons hop places ih =>
      intro specs left js hlength
      cases specs with
      | nil => exact keeps_pure ⟨rfl, trivial, .nil, by simp⟩
      | cons j rest =>
          unfold buildHops
          refine (keeps_buildHop hc left hop j).bind fun h js₁ _ hplanned => ?_
          obtain ⟨hleads, href, hadmits⟩ := hplanned
          have hrest : rest.length ≤ places.length := Nat.le_of_succ_le_succ hlength
          refine (ih rest h.table js₁ hrest).bind fun others js₂ h₁₂ hothers => ?_
          obtain ⟨hchain, hnamed, hadmitted⟩ := hothers
          refine keeps_pure ⟨rfl, ⟨hleads, hchain⟩, .cons href hnamed, ?_⟩
          intro t ht
          rcases List.mem_cons.mp ht with rfl | ht
          · exact hadmits.mono h₁₂
          · exact hadmitted t ht

end JoinPlan

theorem Reporter.keeps_plan (p : Reporter) (r : Requester) (s : BlockSource)
    {P : Pairing σ τ (p.errand r s).account (p.errand r s).gate} (hc : c.site = .browsed s.database) :
    Keeps P js (p.plan r c s) (p.plan r c s) (Same fun plan js' => (p.errand r s).Grounds js' plan) := by
  unfold Reporter.plan
  refine ((p.errand r s).keeps_authorize hc s.table).bind fun ref js₁ _ hgate => ?_
  obtain ⟨href, hclears⟩ := hgate
  refine (Catalog.keeps_columns hc (Errand.account_columns hc hclears)).bind
    fun columns js₂ h₁₂ hlisted => ?_
  rw [JoinPlan.build_eq, JoinPlan.build_eq]
  refine keeps_require_bind fun hdepth => ?_
  have hplaces : (JoinSpec.hopsOf s.join).length ≤ [Hop.first, Hop.second].length :=
    of_decide_eq_true hdepth
  refine (JoinPlan.keeps_buildHops (w := p.errand r s) hc _ _ _ _ hplaces).bind
    fun hops js₃ h₂₃ hhops => ?_
  obtain ⟨hchain, hnamed, hadmitted⟩ := hhops
  refine keeps_pure ⟨rfl, ⟨rfl, hchain⟩, .cons href hnamed, ?_⟩
  intro t ht
  rcases List.mem_cons.mp ht with rfl | ht
  · exact ⟨hclears.mono (h₁₂.trans h₂₃), hlisted.mono h₂₃⟩
  · exact hadmitted t ht

/-! ## Tables -/

theorem Audit.keeps_record {A : Account} {g : Gate} {P : Pairing σ τ A g} (e : AuditEntry) :
    Keeps P js (Audit.record e) (Audit.record e) (Same fun _ _ => True) := by
  unfold Audit.record
  have hwrite : Keeps P js
      (onConnection .application fun c => do
        discard (execute c (.recordAudit e))
        commit c)
      (onConnection .application fun c => do
        discard (execute c (.recordAudit e))
        commit c)
      (Same fun _ _ => True) := by
    refine keeps_onConnection fun c _ _ _ => ?_
    refine (keeps_discard (keeps_execute c (.recordAudit e) rfl nofun)).bind fun _ _ _ _ => ?_
    exact keeps_commit c
  refine (keeps_discard (keeps_attempt hwrite)).weaken ?_
  exact fun _ _ _ _ h => ⟨h.1, trivial⟩

theorem Errand.Backs.accounts {q : TableQuery} (hc : c.site = .browsed w.database)
    (hq : w.Backs js q) :
    w.account js c (.count (.table q)) ∧ (∀ window, w.account js c (.page (.table q) window)) ∧
      w.account js c (.declareCursor (.table q)) := by
  obtain ⟨primaryKey, hplan, hkey, hover⟩ := hq
  have hall : ∀ s : Statement, s.Over q.plan primaryKey → w.account js c s :=
    fun s hs => account_over hc hplan hkey hs
  exact ⟨hall _ ⟨rfl, hover⟩, fun _ => hall _ ⟨rfl, hover⟩, hall _ ⟨rfl, hover⟩⟩

namespace Page

variable {P : Pairing σ τ w.account w.gate}

theorem keeps_countRows (hc : c.site = .browsed w.database) {q : TableQuery} (hq : w.Backs js q) :
    Keeps P js (countRows c (.table q)) (countRows c (.table q))
      (Same fun total js' => Counted js' w.database q total) := by
  unfold countRows
  refine (keeps_execute c _ rfl fun _ => (hq.accounts hc).1).bind ?_
  intro rows _ _ hjs
  subst hjs
  dsimp only
  split
  · rename_i htruthy
    refine keeps_lift _ fun total htotal => ⟨rows, answered_concat hc, ?_⟩
    unfold countIn
    rw [if_pos htruthy]
    exact htotal
  · rename_i htruthy
    refine keeps_pure ⟨rfl, rows, answered_concat hc, ?_⟩
    unfold countIn
    rw [if_neg htruthy]

theorem keeps_fetch (hc : c.site = .browsed w.database) {q : TableQuery} (hq : w.Backs js q)
    (page : Value) (size : Int) :
    Keeps P js (fetch c (.table q) page size) (fetch c (.table q) page size)
      (Same fun _ _ => True) := by
  unfold fetch
  refine (keeps_countRows hc hq).bind fun total js₁ h₀₁ _ => ?_
  refine keeps_lift_bind fun pages _ => ?_
  refine keeps_lift_bind fun number _ => ?_
  have hpage := ((hq.mono h₀₁).accounts hc).2.1
  refine (keeps_execute c _ rfl fun _ => hpage _).bind fun rows js₂ _ _ => ?_
  refine keeps_lift_bind fun _ _ => ?_
  exact keeps_pure ⟨rfl, trivial⟩

end Page

namespace Browser

variable (b : Browser) (r : Requester)

theorem keeps_prepare (q : TableRequest)
    {P : Pairing σ τ (b.errand r q.database q.table).account (b.errand r q.database q.table).gate}
    (hc : c.site = .browsed q.database) :
    Keeps P js (b.prepare r c q) (b.prepare r c q)
      (Same fun prepared js' => (b.errand r q.database q.table).Backs js' prepared.query) := by
  unfold prepare
  refine ((b.errand r q.database q.table).keeps_authorize hc q.table).bind fun ref js₁ _ hgate => ?_
  obtain ⟨href, hclears⟩ := hgate
  refine (Catalog.keeps_columns hc (Errand.account_columns hc hclears)).bind
    fun columns js₂ h₁₂ hlisted => ?_
  refine keeps_lift_bind fun conditions hconditions => ?_
  have hask := Errand.account_primaryKey hc (hclears.mono h₁₂)
  refine (Catalog.keeps_primaryKey hc hask).bind fun key js₃ h₂₃ hkey => ?_
  refine keeps_lift_bind fun ties hties => ?_
  refine keeps_lift_bind fun order horder => ?_
  obtain ⟨hne, hover⟩ := JoinPlan.over_of_defaultOrder (p := ⟨⟨.main, ref, columns⟩, []⟩) hties
  obtain ⟨hordered, hterms⟩ := over_of_orderTerms hne hover horder
  refine keeps_pure ⟨rfl, key, ⟨⟨rfl, trivial⟩, .cons href .nil, ?_⟩, Or.inr hkey, ?_⟩
  · intro t ht
    obtain rfl := List.mem_singleton.mp ht
    exact ⟨hclears.mono (h₁₂.trans h₂₃), hlisted.mono h₂₃⟩
  · exact ⟨Where.over_of_ofFilters hconditions, trivial, hordered, hterms⟩

theorem keeps_fetchPage (q : TableRequest) (page : Value)
    {P : Pairing σ τ (b.errand r q.database q.table).account (b.errand r q.database q.table).gate} :
    Keeps P js (b.fetchPage r q page) (b.fetchPage r q page)
      (Same fun out js' => (b.errand r q.database q.table).Backs js' out.1.query) := by
  unfold fetchPage
  refine keeps_readOnly (fun _ _ _ _ hpre h => ⟨h.1, h.2.mono hpre⟩) fun c js₁ _ hc => ?_
  refine (b.keeps_prepare r q hc).bind fun prepared js₂ _ hq => ?_
  refine (Page.keeps_fetch hc hq page _).bind fun page js₃ h₂₃ _ => ?_
  exact keeps_pure ⟨rfl, hq.mono h₂₃⟩

theorem keeps_prepareCount (q : TableRequest)
    {P : Pairing σ τ (b.errand r q.database q.table).account (b.errand r q.database q.table).gate} :
    Keeps P js (b.prepareCount r q) (b.prepareCount r q)
      (Same fun out js' => (b.errand r q.database q.table).Backs js' out.1.query ∧
        Counted js' q.database out.1.query out.2) := by
  unfold prepareCount
  refine keeps_readOnly
    (fun _ _ _ _ hpre h => ⟨h.1, h.2.1.mono hpre, h.2.2.mono hpre⟩) fun c js₁ _ hc => ?_
  refine (b.keeps_prepare r q hc).bind fun prepared js₂ _ hq => ?_
  refine (Page.keeps_countRows hc hq).bind fun total js₃ h₂₃ htotal => ?_
  exact keeps_pure ⟨rfl, hq.mono h₂₃, htotal⟩

end Browser

/-! ## Report blocks -/

namespace Reporter

variable {p : JoinPlan} {P : Pairing σ τ w.account w.gate}

theorem keeps_defaultOrder (hc : c.site = .browsed w.database) (hp : w.Grounds js p) :
    Keeps P js (defaultOrder c p) (defaultOrder c p)
      (Same fun ks js' => ∃ primaryKey, w.KnowsKey js' p primaryKey ∧ ks ≠ [] ∧
        ∀ k ∈ ks, k.Over p primaryKey) := by
  unfold defaultOrder
  have hmain : w.Clears js p.main.ref := (hp.admitted p.main (List.mem_cons_self ..)).clears
  refine (Catalog.keeps_primaryKey hc (Errand.account_primaryKey hc hmain)).bind fun key js₁ _ hkey => ?_
  exact keeps_lift _ fun ks hks => ⟨key, Or.inr hkey, JoinPlan.over_of_defaultOrder hks⟩

theorem keeps_runTable (hc : c.site = .browsed w.database) (hp : w.Grounds js p) (r : Reporter)
    (b : TableBlock) (page : Value) :
    Keeps P js (r.runTable c p b page) (r.runTable c p b page) (Same fun _ _ => True) := by
  unfold runTable
  refine keeps_lift_bind fun items hitems => ?_
  refine keeps_lift_bind fun conditions hconditions => ?_
  refine (keeps_defaultOrder hc hp).bind fun ties js₁ h₀₁ hties => ?_
  obtain ⟨key, hkey, hne, hover⟩ := hties
  refine keeps_lift_bind fun order horder => ?_
  obtain ⟨hordered, hterms⟩ := over_of_orderTerms hne hover horder
  have hselection : (Selection.ofItems items).Over p := by
    apply Selection.over_ofItems
    intro i hi
    obtain ⟨reference, -, hselect⟩ := Result.origin_of_mapM_ok hitems i hi
    exact JoinPlan.over_of_select hselect
  have hq : w.Backs _ ⟨p, conditions, .ofItems items, order⟩ :=
    ⟨key, hp.mono h₀₁, hkey, Where.over_of_ofFilters hconditions, hselection, hordered, hterms⟩
  refine (Page.keeps_fetch hc hq page _).bind fun _ _ _ _ => ?_
  exact keeps_pure ⟨rfl, trivial⟩

theorem knows_of_groupLabel {x : ColumnExpr} {groupBy : String} {label : GroupLabel} (hx : p.Knows x)
    (h : groupLabel p x groupBy = .ok label) : p.Knows label.expr := by
  unfold groupLabel at h
  split at h
  · cases h
    exact hx
  · obtain ⟨column, hcolumn, h⟩ := Result.of_bind_ok h
    cases h
    exact JoinPlan.resolve_knows hcolumn

theorem keeps_chartShape (hc : c.site = .browsed w.database) (hp : w.Grounds js p) {x y : ColumnExpr}
    (hx : p.Knows x) (hy : p.Knows y) (b : ChartBlock) :
    Keeps P js (chartShape c p b x y) (chartShape c p b x y)
      (Same fun shape js' => ∃ primaryKey, w.KnowsKey js' p primaryKey ∧ shape.Over p primaryKey) := by
  unfold chartShape
  split
  · refine keeps_lift_bind fun aggregate _ => ?_
    refine keeps_lift_bind fun label hlabel => ?_
    exact keeps_pure ⟨rfl, [], Or.inl rfl, knows_of_groupLabel hx hlabel, hy⟩
  · refine (keeps_defaultOrder hc hp).bind fun order js₁ _ horder => ?_
    obtain ⟨key, hkey, hne, hover⟩ := horder
    exact keeps_pure ⟨rfl, key, hkey, hx, hy, hne, hover⟩

theorem keeps_runChart (hc : c.site = .browsed w.database) (hp : w.Grounds js p) (b : ChartBlock) :
    Keeps P js (runChart c p b) (runChart c p b) (Same fun _ _ => True) := by
  unfold runChart
  refine keeps_lift_bind fun x hx => ?_
  refine keeps_lift_bind fun y hy => ?_
  refine keeps_lift_bind fun conditions hconditions => ?_
  have hx := JoinPlan.resolve_knows hx
  have hy := JoinPlan.resolve_knows hy
  refine (keeps_chartShape hc hp hx hy b).bind fun shape js₁ h₀₁ hshape => ?_
  obtain ⟨key, hkey, hover⟩ := hshape
  have haccount : w.account js₁ c (.chart ⟨p, conditions, shape⟩) :=
    Errand.account_over hc (hp.mono h₀₁) hkey ⟨rfl, Where.over_of_ofFilters hconditions, hover⟩
  refine (keeps_execute c _ rfl fun _ => haccount).bind fun rows js₂ _ _ => ?_
  refine keeps_lift_bind fun _ _ => ?_
  exact keeps_pure ⟨rfl, trivial⟩

theorem keeps_runMetric (hc : c.site = .browsed w.database) (hp : w.Grounds js p) (b : MetricBlock) :
    Keeps P js (runMetric c p b) (runMetric c p b) (Same fun _ _ => True) := by
  unfold runMetric
  refine keeps_lift_bind fun aggregate _ => ?_
  refine keeps_lift_bind fun column hcolumn => ?_
  refine keeps_lift_bind fun conditions hconditions => ?_
  have hcolumn := JoinPlan.resolve_knows hcolumn
  have haccount : w.account _ c (.metric ⟨p, conditions, aggregate, column⟩) :=
    Errand.account_over hc hp (Or.inl rfl) ⟨rfl, Where.over_of_ofFilters hconditions, hcolumn⟩
  refine (keeps_execute c _ rfl fun _ => haccount).bind fun rows js₁ _ _ => ?_
  refine keeps_lift_bind fun _ _ => ?_
  exact keeps_pure ⟨rfl, trivial⟩

/-- A block that reads tables: first the plan, and then whatever is run over it. -/
theorem keeps_runQuery (p : Reporter) (r : Requester) (s : BlockSource)
    {P : Pairing σ τ (p.errand r s).account (p.errand r s).gate}
    {body : Connection → JoinPlan → Exchange (Journal σ) BlockAnswer}
    {body' : Connection → JoinPlan → Exchange τ BlockAnswer}
    (hbody : ∀ c plan js', c.site = .browsed s.database → (p.errand r s).Grounds js' plan →
      Keeps P js' (body c plan) (body' c plan) (Same fun _ _ => True)) :
    Keeps P js (p.runQuery r s body) (p.runQuery r s body')
      (Same fun _ js' => (p.errand r s).Cleared js') := by
  unfold runQuery
  have hread : Keeps P js
      (readOnly s.database p.timeout fun c => do
        let plan ← p.plan r c s
        let answer ← body c plan
        return (plan, answer))
      (readOnly s.database p.timeout fun c => do
        let plan ← p.plan r c s
        let answer ← body' c plan
        return (plan, answer))
      (Same fun _ js' => (p.errand r s).Cleared js') := by
    refine keeps_readOnly (fun _ _ _ _ hpre h => ⟨h.1, h.2.mono hpre⟩) fun c js₁ _ hc => ?_
    refine (p.keeps_plan r s hc).bind fun plan js₂ _ hplan => ?_
    refine (hbody c plan js₂ hc hplan).bind fun answer js₃ h₂₃ _ => ?_
    exact keeps_pure ⟨rfl, hplan.cleared.mono h₂₃⟩
  refine hread.bind fun out js₁ _ hcleared => ?_
  refine (Audit.keeps_record _).bind fun _ js₂ h₁₂ _ => ?_
  exact keeps_pure ⟨rfl, hcleared.mono h₁₂⟩

end Reporter

end TableSteward

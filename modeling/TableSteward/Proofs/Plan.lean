import TableSteward.Proofs.Result
import TableSteward.Query.Aggregate

/-!
# What compiled queries name

A query is compiled from texts that a request brings, and what comes out names columns of the tables of its
plan only: `JoinPlan.Knows` says so of one column expression, and `Over` of conditions, result columns, orders,
charts and whole queries.  Each compiling function has one lemma, which says that its result is over the plan
that it was compiled with.
-/
set_option autoImplicit false

namespace TableSteward

/-! ## Names -/

theorem Identifier.name_of_ofText {role s : String} {i : Identifier}
    (h : Identifier.ofText role s = .ok i) : i.name = s := by
  unfold Identifier.ofText Identifier.ofText? at h
  by_cases hs : Name.isIdentifier s = true
  · rw [dif_pos hs] at h
    cases h
    rfl
  · rw [dif_neg hs] at h
    exact nomatch h

theorem Identifier.of_knownColumn {name table : String} {known : List Value} {i : Identifier}
    (h : Identifier.knownColumn name known table = .ok i) :
    i.name = name ∧ i.isAmong known = true := by
  unfold Identifier.knownColumn at h
  obtain ⟨c, hc, h⟩ := Result.of_bind_ok h
  by_cases hk : c.isAmong known = true
  · rw [if_pos hk] at h
    cases h
    exact ⟨name_of_ofText hc, hk⟩
  · rw [if_neg hk] at h
    obtain ⟨_, _, h⟩ := Result.of_bind_ok h
    exact nomatch h

/-! ## Plans -/

/-- The column expression names a column that the catalog lists for a table of the plan. -/
def JoinPlan.Knows (p : JoinPlan) (e : ColumnExpr) : Prop :=
  ∃ t ∈ p.tables, e.slot = some t.slot ∧ e.column.isAmong t.columns = true

/-- The hop leads from the table on its left to one in its own slot, over a column of either. -/
structure PlannedHop.Leads (h : PlannedHop) (left : PlannedTable) (hop : Hop) : Prop where
  slot : h.table.slot = hop.target
  source : h.source.slot = some left.slot
  sourceKnown : h.source.column.isAmong left.columns = true
  target : h.target.slot = some h.table.slot
  targetKnown : h.target.column.isAmong h.table.columns = true

/-- Planned hops, each of which starts where the one before it ended; they fill the first of the places. -/
def ChainFrom : PlannedTable → List Hop → List PlannedHop → Prop
  | _, _, [] => True
  | _, [], _ :: _ => False
  | left, hop :: places, h :: rest => h.Leads left hop ∧ ChainFrom h.table places rest

structure JoinPlan.WellFormed (p : JoinPlan) : Prop where
  main : p.main.slot = .main
  chain : ChainFrom p.main [.first, .second] p.hops

namespace JoinPlan

theorem mem_tables_of_table? {p : JoinPlan} {slot : Slot} {t : PlannedTable}
    (h : p.table? slot = some t) : t ∈ p.tables := List.mem_of_find?_eq_some h

theorem split_mem {p : JoinPlan} {reference column : String} {t : PlannedTable}
    (h : p.split reference = .ok (t, column)) : t ∈ p.tables := by
  unfold split at h
  by_cases hempty : reference.isEmpty
  · rw [if_pos hempty] at h
    exact nomatch h
  · rw [if_neg hempty] at h
    split at h
    · cases h
      exact List.mem_cons_self ..
    · split at h
      · exact nomatch h
      · split at h
        · rename_i hslot
          cases h
          exact mem_tables_of_table? hslot
        · exact nomatch h
    · exact nomatch h

theorem knows_of_resolve {p : JoinPlan} {reference : String} {e : ColumnExpr}
    (h : p.resolve reference = .ok e) :
    ∃ t name, p.split reference = .ok (t, name) ∧ e.slot = some t.slot ∧ e.column.name = name ∧
      e.column.isAmong t.columns = true := by
  unfold resolve at h
  obtain ⟨⟨t, name⟩, hsplit, h⟩ := Result.of_bind_ok h
  obtain ⟨c, hc, h⟩ := Result.of_bind_ok h
  obtain ⟨hname, hknown⟩ := Identifier.of_knownColumn hc
  cases h
  exact ⟨t, name, hsplit, rfl, hname, hknown⟩

theorem resolve_knows {p : JoinPlan} {reference : String} {e : ColumnExpr}
    (h : p.resolve reference = .ok e) : p.Knows e := by
  obtain ⟨t, name, hsplit, hslot, -, hknown⟩ := knows_of_resolve h
  exact ⟨t, split_mem hsplit, hslot, hknown⟩

end JoinPlan

/-! ## Conditions -/

def Condition.column : Condition → ColumnExpr
  | .compare column _ _ | .contains column _ | .between column _ _ | .oneOf column _ => column

/-- The conditions are about columns of the plan, and no parameters are in use elsewhere. -/
structure Where.Over (w : Where) (p : JoinPlan) : Prop where
  offset : w.offset = 0
  columns : ∀ c ∈ w.conditions, p.Knows c.column

theorem Condition.column_of_ofFilter {f : FilterSpec} {e : ColumnExpr} {op : Operator} {c : Condition}
    (h : Condition.ofFilter f e op = .ok c) : c.column = e := by
  cases op with
  | between =>
      obtain ⟨vs, -, h⟩ := Result.of_bind_ok h
      split at h
      · obtain ⟨low, -, h⟩ := Result.of_bind_ok h
        obtain ⟨high, -, h⟩ := Result.of_bind_ok h
        cases h
        rfl
      · exact nomatch h
  | oneOf =>
      obtain ⟨vs, -, h⟩ := Result.of_bind_ok h
      split at h
      · exact nomatch h
      · cases h
        rfl
  | contains =>
      obtain ⟨v, -, h⟩ := Result.of_bind_ok h
      cases h
      rfl
  | compare op =>
      obtain ⟨v, -, h⟩ := Result.of_bind_ok h
      obtain ⟨bound, -, h⟩ := Result.of_bind_ok h
      cases h
      rfl

theorem Where.over_of_ofFilters {p : JoinPlan} {fs : List FilterSpec} {w : Where}
    (h : Where.ofFilters p.resolve fs = .ok w) : w.Over p := by
  unfold Where.ofFilters at h
  obtain ⟨conditions, hconditions, h⟩ := Result.of_bind_ok h
  cases h
  refine ⟨rfl, ?_⟩
  intro c hc
  obtain ⟨f, -, hf⟩ := Result.origin_of_mapM_ok hconditions c hc
  unfold Where.condition at hf
  obtain ⟨op, -, hf⟩ := Result.of_bind_ok hf
  obtain ⟨e, he, hf⟩ := Result.of_bind_ok hf
  rw [Condition.column_of_ofFilter hf]
  exact JoinPlan.resolve_knows he

/-! ## Orders -/

/-- A key that rows are compared by: a column of the plan, a column of the primary key of the main table, or the
place of a row of the main table. -/
def OrderKey.Over (k : OrderKey) (p : JoinPlan) (primaryKey : List Value) : Prop :=
  match k with
  | .column e => p.Knows e ∨ (e.slot = some .main ∧ e.column.isAmong primaryKey = true)
  | .rowId slot => slot = .main

theorem Identifier.isAmong_of_ofValue {role : String} {v : Value} {vs : List Value} {i : Identifier}
    (hv : v ∈ vs) (h : Identifier.ofValue role v = .ok i) : i.isAmong vs = true := by
  cases v with
  | text s =>
      have hname : i.name = s := name_of_ofText h
      refine List.any_eq_true.mpr ⟨_, hv, ?_⟩
      simp [Value.text?, hname]
  | _ => exact nomatch h

/-- The tie-breakers are never missing, and each is of the main table. -/
theorem JoinPlan.over_of_defaultOrder {p : JoinPlan} {primaryKey : List Value} {ks : List OrderKey}
    (h : JoinPlan.defaultOrder primaryKey = .ok ks) :
    ks ≠ [] ∧ ∀ k ∈ ks, k.Over p primaryKey := by
  cases primaryKey with
  | nil =>
      cases h
      refine ⟨by simp, ?_⟩
      intro k hk
      obtain rfl : k = .rowId .main := by simpa using hk
      rfl
  | cons v rest =>
      change (v :: rest).mapM _ = _ at h
      constructor
      · rintro rfl
        have := (Result.forall₂_of_mapM_ok h).length_eq
        simp at this
      · intro k hk
        obtain ⟨name, hname, hk⟩ := Result.origin_of_mapM_ok h k hk
        obtain ⟨c, hc, hk⟩ := Result.of_bind_ok hk
        cases hk
        exact Or.inr ⟨rfl, Identifier.isAmong_of_ofValue hname hc⟩

theorem OrderTerm.mem_of_mem_distinctFrom {t : OrderTerm} :
    ∀ {terms : List OrderTerm} {used : List OrderKey}, t ∈ distinctFrom used terms → t ∈ terms := by
  intro terms
  induction terms with
  | nil => intro used h; cases h
  | cons s rest ih =>
      intro used h
      simp only [distinctFrom] at h
      by_cases hused : used.contains s.key
      · rw [if_pos hused] at h
        exact List.mem_cons_of_mem _ (ih h)
      · rw [if_neg hused] at h
        rcases List.mem_cons.mp h with rfl | h
        · exact List.mem_cons_self ..
        · exact List.mem_cons_of_mem _ (ih h)

theorem OrderTerm.distinct_ne_nil {terms : List OrderTerm} (h : terms ≠ []) : distinct terms ≠ [] := by
  cases terms with
  | nil => exact absurd rfl h
  | cons t rest => simp [distinct, distinctFrom]

theorem over_of_orderTerms {p : JoinPlan} {primaryKey : List Value} {sort : List SortSpec}
    {ties : List OrderKey} {terms : List OrderTerm} (hne : ties ≠ [])
    (hties : ∀ k ∈ ties, k.Over p primaryKey) (h : orderTerms sort p.resolve ties = .ok terms) :
    terms ≠ [] ∧ ∀ t ∈ terms, t.key.Over p primaryKey := by
  unfold orderTerms at h
  obtain ⟨sorted, hsorted, h⟩ := Result.of_bind_ok h
  cases h
  constructor
  · apply OrderTerm.distinct_ne_nil
    simp [hne]
  · intro t ht
    rcases List.mem_append.mp (OrderTerm.mem_of_mem_distinctFrom ht) with ht | ht
    · obtain ⟨s, -, hs⟩ := Result.origin_of_mapM_ok hsorted t ht
      unfold OrderTerm.ofSort at hs
      obtain ⟨e, he, hs⟩ := Result.of_bind_ok hs
      cases hs
      exact Or.inl (JoinPlan.resolve_knows he)
    · obtain ⟨k, hk, rfl⟩ := List.mem_map.mp ht
      exact hties k hk

/-! ## Result columns -/

/-- A result column is a column of the plan; it keeps its name if it is of the main table, and otherwise has the
token of its table in front. -/
structure SelectItem.Over (i : SelectItem) (p : JoinPlan) : Prop where
  known : p.Knows i.column
  named : match i.name with
    | none => i.column.slot = some .main
    | some n => ∃ slot, slot ≠ .main ∧ i.column.slot = some slot ∧
        n.name = slot.token ++ "_" ++ i.column.column.name

def Selection.Over (s : Selection) (p : JoinPlan) : Prop :=
  match s with
  | .mainTable => True
  | .items first rest => ∀ i ∈ first :: rest, i.Over p

theorem JoinPlan.over_of_select {p : JoinPlan} {reference : String} {i : SelectItem}
    (h : p.select reference = .ok i) : i.Over p := by
  unfold JoinPlan.select at h
  obtain ⟨e, he, h⟩ := Result.of_bind_ok h
  obtain ⟨t, name, hsplit, hslot, hname, -⟩ := knows_of_resolve he
  have hknown := resolve_knows he
  obtain ⟨_, hpair, h⟩ := Result.of_bind_ok h
  obtain rfl := Except.ok.inj (hsplit.symm.trans hpair)
  dsimp only at h
  cases hs : t.slot with
  | main =>
      rw [hs] at h hslot
      cases h
      exact ⟨hknown, hslot⟩
  | joined | subjoined =>
      rw [hs] at h hslot
      obtain ⟨n, hn, h⟩ := Result.of_bind_ok h
      cases h
      refine ⟨hknown, _, ?_, hslot, ?_⟩
      · exact fun h => nomatch h
      · rw [hname, Identifier.name_of_ofText hn, nameIn, hs]

theorem Selection.over_ofItems {p : JoinPlan} {items : List SelectItem} (h : ∀ i ∈ items, i.Over p) :
    (Selection.ofItems items).Over p := by
  cases items with
  | nil => trivial
  | cons first rest => exact h

/-! ## Queries -/

structure TableQuery.Over (q : TableQuery) (primaryKey : List Value) : Prop where
  conditions : q.conditions.Over q.plan
  selection : q.selection.Over q.plan
  ordered : q.order ≠ []
  order : ∀ t ∈ q.order, t.key.Over q.plan primaryKey

def GroupLabel.expr : GroupLabel → ColumnExpr
  | .column e | .stretch _ e => e

def ChartShape.Over (s : ChartShape) (p : JoinPlan) (primaryKey : List Value) : Prop :=
  match s with
  | .grouped label _ value => p.Knows label.expr ∧ p.Knows value
  | .plain label value order =>
      p.Knows label ∧ p.Knows value ∧ order ≠ [] ∧ ∀ k ∈ order, k.Over p primaryKey

structure ChartQuery.Over (q : ChartQuery) (primaryKey : List Value) : Prop where
  conditions : q.conditions.Over q.plan
  shape : q.shape.Over q.plan primaryKey

structure MetricQuery.Over (q : MetricQuery) : Prop where
  conditions : q.conditions.Over q.plan
  column : q.plan.Knows q.column

end TableSteward

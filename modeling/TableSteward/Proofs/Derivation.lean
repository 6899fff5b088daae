import TableSteward.Proofs.Answer
import TableSteward.Proofs.Grammar
import TableSteward.Proofs.Wording

/-!
# Data statements follow the grammar

Every part of a query that is over its plan is written as the grammar has it, whatever texts the request brought.
With `Desk.accounted_journal` this reaches every data statement that a request executes.
-/
set_option autoImplicit false

namespace TableSteward

/-! ## Words -/

theorem isInitial_of_isStart {c : Char} (h : Name.isStart c = true) : IsInitial c := by
  rcases Bool.or_eq_true_iff.mp h with h | hunderscore
  · rcases Bool.or_eq_true_iff.mp h with hupper | hlower
    · exact Or.inl (of_decide_eq_true hupper)
    · obtain ⟨hlow, hhigh⟩ := Bool.and_eq_true_iff.mp hlower
      exact Or.inr (Or.inl ⟨of_decide_eq_true hlow, of_decide_eq_true hhigh⟩)
  · exact Or.inr (Or.inr (beq_iff_eq.mp hunderscore))

theorem isDigit_of_isDigit {c : Char} (h : c.isDigit = true) : IsDigit c := by
  obtain ⟨hlow, hhigh⟩ := Bool.and_eq_true_iff.mp h
  exact ⟨of_decide_eq_true hlow, of_decide_eq_true hhigh⟩

theorem Identifier.isName (i : Identifier) : IsName i.name := by
  obtain ⟨hlength, hword⟩ := Bool.and_eq_true_iff.mp i.isIdentifier
  have hlength : i.name.length ≤ 128 := of_decide_eq_true hlength
  cases hchars : i.name.toList with
  | nil =>
      rw [hchars] at hword
      exact nomatch hword
  | cons first rest =>
      rw [hchars] at hword
      obtain ⟨hfirst, hrest⟩ := Bool.and_eq_true_iff.mp hword
      refine ⟨first, rest, hchars, isInitial_of_isStart hfirst, ?_, ?_⟩
      · rw [← String.length_toList, hchars, List.length_cons] at hlength
        omega
      · intro c hc
        have hpart : Name.isPart c = true := List.all_eq_true.mp hrest c hc
        rcases Bool.or_eq_true_iff.mp hpart with h | h
        · exact Or.inl (isInitial_of_isStart h)
        · exact Or.inr (isDigit_of_isDigit h)

theorem isNumeral_toString (n : Nat) : IsNumeral (toString n) := by
  have hchars : (toString n).toList = Nat.toDigits 10 n := Nat.toList_repr
  rw [IsNumeral, hchars]
  refine ⟨Nat.toDigits_ne_nil, ?_⟩
  intro c hc
  exact isDigit_of_isDigit (Nat.isDigit_of_mem_toDigits (by omega) (by omega) hc)

theorem Identifier.mem_of_isAmong {i : Identifier} {known : List Value} (h : i.isAmong known = true) :
    .text i.name ∈ known := by
  obtain ⟨v, hv, hname⟩ := List.any_eq_true.mp h
  cases v with
  | text s =>
      obtain rfl : s = i.name := by simpa [Value.text?] using hname
      exact hv
  | _ => simp [Value.text?] at hname

namespace Derives

variable {g : Scope}

theorem identifier (i : Identifier) : Derives g (.name i.name) i.sql := .name i.isName

theorem integer_toString (n : Int) : Derives g .integer (toString n) := by
  cases n with
  | ofNat n => exact .natural (isNumeral_toString n)
  | negSucc n => exact .negative (isNumeral_toString (n + 1))

theorem placeholder (n : Nat) : Derives g .parameter (placeholder n) := by
  have htext : TableSteward.placeholder n = ":p" ++ toString n := by
    unfold TableSteward.placeholder paramName
    rw [← String.append_assoc]
    rfl
  rw [htext]
  exact .parameter (isNumeral_toString n)

theorem intercalate {separator : String} {i : Symbol} :
    ∀ {texts : List String}, texts ≠ [] → (∀ s ∈ texts, Derives g i s) →
      Derives g (.list separator i) (separator.intercalate texts) := by
  intro texts
  induction texts with
  | nil => intro hne; exact absurd rfl hne
  | cons s rest ih =>
      intro _ hall
      cases rest with
      | nil =>
          rw [String.intercalate_singleton]
          exact .last (hall s (by simp))
      | cons t rest =>
          have hrest : Derives g (.list separator i) (separator.intercalate (t :: rest)) :=
            ih (by simp) fun u hu => hall u (List.mem_cons_of_mem _ hu)
          rw [String.intercalate_cons_cons]
          exact .more (hall s (by simp)) hrest

end Derives

/-! ## Places -/

def Slot.place : Slot → Nat
  | .main => 0
  | .joined => 1
  | .subjoined => 2

theorem Slot.alias_at (slot : Slot) : Scope.aliases[slot.place]? = some slot.tableAlias := by
  cases slot <;> rfl

theorem Hop.place_target (hop : Hop) : hop.target.place = hop.source.place + 1 := by
  cases hop <;> rfl

def PlannedTable.listed (t : PlannedTable) : Listed := ⟨t.ref.schema.name, t.ref.table.name, t.columns⟩

def JoinPlan.scope (p : JoinPlan) (primaryKey : List Value) : Scope :=
  ⟨p.tables.map PlannedTable.listed, primaryKey⟩

namespace JoinPlan

variable {p : JoinPlan} (key : List Value)

/-- A chain has one of three lengths, and every table of it stands in the place of its slot. -/
theorem WellFormed.cases (hp : p.WellFormed) :
    p.hops = [] ∨
    (∃ h, p.hops = [h] ∧ h.Leads p.main .first) ∨
    ∃ h k, p.hops = [h, k] ∧ h.Leads p.main .first ∧ k.Leads h.table .second := by
  have hchain := hp.chain
  rcases hhops : p.hops with _ | ⟨h, _ | ⟨k, _ | ⟨m, rest⟩⟩⟩
  · exact Or.inl rfl
  · rw [hhops] at hchain
    exact Or.inr (Or.inl ⟨h, rfl, hchain.1⟩)
  · rw [hhops] at hchain
    exact Or.inr (Or.inr ⟨h, k, rfl, hchain.1, hchain.2.1⟩)
  · rw [hhops] at hchain
    exact False.elim hchain.2.2

theorem WellFormed.at_place (hp : p.WellFormed) {t : PlannedTable} (ht : t ∈ p.tables) :
    (p.scope key).tables[t.slot.place]? = some t.listed := by
  unfold scope tables at *
  rcases hp.cases with hhops | ⟨h, hhops, hh⟩ | ⟨h, k, hhops, hh, hk⟩
  · rw [hhops] at ht ⊢
    obtain rfl : t = p.main := by simpa using ht
    simp [hp.main, Slot.place]
  · rw [hhops] at ht ⊢
    obtain rfl | rfl : t = p.main ∨ t = h.table := by simpa using ht
    · simp [hp.main, Slot.place]
    · simp [hh.slot, Hop.target, Slot.place]
  · rw [hhops] at ht ⊢
    obtain rfl | rfl | rfl : t = p.main ∨ t = h.table ∨ t = k.table := by simpa using ht
    · simp [hp.main, Slot.place]
    · simp [hh.slot, Hop.target, Slot.place]
    · simp [hk.slot, Hop.target, Slot.place]

theorem derives_table (hp : p.WellFormed) {t : PlannedTable} (ht : t ∈ p.tables) :
    Derives (p.scope key) (.table t.slot.place) t.sql :=
  .table (hp.at_place key ht) t.slot.alias_at (.identifier t.ref.schema) (.identifier t.ref.table)

theorem derives_column (hp : p.WellFormed) {t : PlannedTable} (ht : t ∈ p.tables) {e : ColumnExpr}
    (hslot : e.slot = some t.slot) (hknown : e.column.isAmong t.columns = true) :
    Derives (p.scope key) (.column t.slot.place e.column.name) e.sql := by
  have hsql : e.sql = t.slot.tableAlias ++ "." ++ e.column.sql := by
    unfold ColumnExpr.sql
    rw [hslot]
  rw [hsql]
  exact .column (hp.at_place key ht) t.slot.alias_at (Identifier.mem_of_isAmong hknown) (.identifier _)

theorem Knows.derives (hp : p.WellFormed) {e : ColumnExpr} (h : p.Knows e) :
    ∃ slot, e.slot = some slot ∧
      Derives (p.scope key) (.column slot.place e.column.name) e.sql := by
  obtain ⟨t, ht, hslot, hknown⟩ := h
  exact ⟨t.slot, hslot, derives_column key hp ht hslot hknown⟩

/-! ## The chain behind `FROM` -/

theorem derives_join (hp : p.WellFormed) (hop : Hop) {left : PlannedTable} {h : PlannedHop}
    {rest : String} (hleft : left ∈ p.tables) (hright : h.table ∈ p.tables)
    (hplace : left.slot = hop.source) (hleads : h.Leads left hop)
    (hrest : Derives (p.scope key) (.joins hop.target.place) rest) :
    Derives (p.scope key) (.joins hop.source.place) (" " ++ h.sql ++ rest) := by
  have hsource := derives_column key hp hleft hleads.source hleads.sourceKnown
  have htarget := derives_column key hp hright hleads.target hleads.targetKnown
  have htable := derives_table key hp hright
  rw [hplace] at hsource
  rw [hleads.slot, hop.place_target] at htarget htable
  rw [hop.place_target] at hrest
  have hkind : ∃ kind ∈ ["LEFT", "INNER"], h.kind.sql = kind ++ " JOIN" := by
    cases h.kind with
    | left => exact ⟨"LEFT", by simp, by decide⟩
    | inner => exact ⟨"INNER", by simp, by decide⟩
  obtain ⟨kind, hmem, hsql⟩ := hkind
  have htext : " " ++ h.sql ++ rest = " " ++ kind ++ " JOIN " ++ h.table.sql ++ " ON " ++
      h.source.sql ++ " = " ++ h.target.sql ++ rest := by
    unfold PlannedHop.sql
    rw [hsql]
    apply String.toList_inj.mp
    simp
  rw [htext]
  exact .join hmem htable hsource htarget hrest

theorem derives_fromSql (hp : p.WellFormed) : Derives (p.scope key) .source p.fromSql := by
  have hmain : p.main ∈ p.tables := List.mem_cons_self ..
  have hfirst : Derives (p.scope key) (.table 0) p.main.sql := by
    have htable := derives_table key hp hmain
    rwa [hp.main] at htable
  unfold fromSql
  rcases hp.cases with hhops | ⟨h, hhops, hh⟩ | ⟨h, k, hhops, hh, hk⟩
  · have hend : Derives (p.scope key) (.joins 0) "" := .noJoin (by simp [scope, tables, hhops])
    rw [hhops]
    simpa using Derives.source hfirst hend
  · have hend : Derives (p.scope key) (.joins 1) "" := .noJoin (by simp [scope, tables, hhops])
    have hright : h.table ∈ p.tables := by simp [tables, hhops]
    have hjoin := derives_join key hp .first hmain hright hp.main hh hend
    rw [hhops]
    simpa [String.intercalate_cons_cons, String.append_assoc] using Derives.source hfirst hjoin
  · have hend : Derives (p.scope key) (.joins 2) "" := .noJoin (by simp [scope, tables, hhops])
    have hmiddle : h.table ∈ p.tables := by simp [tables, hhops]
    have hright : k.table ∈ p.tables := by simp [tables, hhops]
    have hsecond := derives_join key hp .second hmiddle hright hh.slot hk hend
    have hjoin := derives_join key hp .first hmain hmiddle hp.main hh hsecond
    rw [hhops]
    simpa [String.intercalate_cons_cons, String.append_assoc] using Derives.source hfirst hjoin

end JoinPlan

/-! ## Conditions -/

section Parts

variable {p : JoinPlan} (key : List Value)

theorem Condition.derives (hp : p.WellFormed) {c : Condition} (hc : p.Knows c.column) (n : Nat) :
    Derives (p.scope key) .condition (c.sql n) := by
  obtain ⟨slot, -, hcolumn⟩ := JoinPlan.Knows.derives key hp hc
  cases c with
  | compare column operator _ =>
      have hoperator : operator.sql ∈ ["=", ">", ">=", "<", "<="] := by
        cases operator <;> simp [Comparison.sql]
      exact .comparison hoperator hcolumn (.placeholder n)
  | contains column _ => exact .containment hcolumn (.placeholder n)
  | between column _ _ => exact .range hcolumn (.placeholder n) (.placeholder (n + 1))
  | oneOf column _ => exact .membership hcolumn (.placeholder n)

theorem Where.derives_sqlFrom (hp : p.WellFormed) :
    ∀ (cs : List Condition) (n : Nat), (∀ c ∈ cs, p.Knows c.column) →
      ∀ s ∈ Where.sqlFrom n cs, Derives (p.scope key) .condition s := by
  -- The number of the next parameter depends on the conditions before, so it stays general.
  intro cs
  induction cs with
  | nil => intro n _ s hs; cases hs
  | cons c rest ih =>
      intro n hall s hs
      rcases List.mem_cons.mp hs with rfl | hs
      · exact c.derives key hp (hall c (by simp)) n
      · exact ih (n + c.bound.length) (fun d hd => hall d (List.mem_cons_of_mem _ hd)) s hs

theorem Where.derives_sql (hp : p.WellFormed) {w : Where} (hw : w.Over p) (hne : w.conditions ≠ []) :
    Derives (p.scope key) (.list " AND " .condition) w.sql := by
  unfold Where.sql
  rw [hw.offset]
  refine .intercalate ?_ (derives_sqlFrom key hp w.conditions 1 hw.columns)
  cases hconditions : w.conditions with
  | nil => exact absurd hconditions hne
  | cons c rest => simp [Where.sqlFrom]

theorem Where.derives_clause (hp : p.WellFormed) {w : Where} (hw : w.Over p) :
    Derives (p.scope key) .filter (if w.sql.isEmpty then "" else " WHERE " ++ w.sql) := by
  by_cases hempty : w.sql.isEmpty = true
  · rw [if_pos hempty]
    exact .noFilter
  · rw [if_neg hempty]
    refine .filter (derives_sql key hp hw ?_)
    intro hconditions
    apply hempty
    unfold Where.sql
    rw [hconditions]
    rfl

theorem Where.derives_suffix (hp : p.WellFormed) {w : Where} (hw : w.Over p) :
    Derives (p.scope key) .filter w.suffix := by
  unfold Where.suffix Where.clause
  by_cases hempty : w.conditions.isEmpty = true
  · rw [if_pos hempty]
    exact .noFilter
  · rw [if_neg hempty, if_neg hempty]
    have hne : w.conditions ≠ [] := fun h => hempty (by rw [h]; rfl)
    have htext : " " ++ ("WHERE " ++ w.sql) = " WHERE " ++ w.sql := by
      rw [← String.append_assoc]
      rfl
    rw [htext]
    exact .filter (derives_sql key hp hw hne)

/-! ## Orders and result columns -/

theorem OrderKey.derives (hp : p.WellFormed) {k : OrderKey} (hk : k.Over p key) :
    Derives (p.scope key) .key k.sql := by
  cases k with
  | column e =>
      rcases hk with hk | ⟨hslot, hk⟩
      · obtain ⟨slot, -, hcolumn⟩ := JoinPlan.Knows.derives key hp hk
        exact .columnKey hcolumn
      · have hsql : e.sql = "t1." ++ e.column.sql := by
          unfold ColumnExpr.sql
          rw [hslot]
          rfl
        change Derives (p.scope key) .key e.sql
        rw [hsql]
        exact .primaryKey (Identifier.mem_of_isAmong hk) (.identifier _)
  | rowId slot =>
      obtain rfl : slot = .main := hk
      exact .rowPlace

theorem OrderTerm.derives (hp : p.WellFormed) {t : OrderTerm} (ht : t.key.Over p key) :
    Derives (p.scope key) .term t.sql := by
  have hkey := OrderKey.derives key hp ht
  unfold OrderTerm.sql
  cases t.descending with
  | true =>
      have htext : t.key.sql ++ " DESC" = t.key.sql ++ " " ++ "DESC" := by
        rw [String.append_assoc]
        rfl
      rw [if_pos rfl, htext]
      exact .term (by simp) hkey
  | false =>
      have htext : t.key.sql ++ " ASC" = t.key.sql ++ " " ++ "ASC" := by
        rw [String.append_assoc]
        rfl
      rw [if_neg Bool.false_ne_true, htext]
      exact .term (by simp) hkey

theorem derives_orderSql (hp : p.WellFormed) {terms : List OrderTerm} (hne : terms ≠ [])
    (hterms : ∀ t ∈ terms, t.key.Over p key) :
    Derives (p.scope key) (.list ", " .term) (orderSql terms) := by
  refine .intercalate (by simpa using hne) ?_
  intro s hs
  obtain ⟨t, ht, rfl⟩ := List.mem_map.mp hs
  exact OrderTerm.derives key hp (hterms t ht)

theorem SelectItem.derives (hp : p.WellFormed) {i : SelectItem} (hi : i.Over p) :
    Derives (p.scope key) .item i.sql := by
  obtain ⟨slot, hslot, hcolumn⟩ := JoinPlan.Knows.derives key hp hi.known
  have hnamed := hi.named
  unfold SelectItem.sql
  cases hname : i.name with
  | none =>
      rw [hname] at hnamed
      obtain rfl : slot = .main := Option.some.inj (hslot.symm.trans hnamed)
      exact .mainItem hcolumn
  | some n =>
      rw [hname] at hnamed
      obtain ⟨other, hne, hother, htext⟩ := hnamed
      obtain rfl : slot = other := Option.some.inj (hslot.symm.trans hother)
      have hquoted : Derives (p.scope key) (.name (slot.token ++ "_" ++ i.column.column.name)) n.sql :=
        htext ▸ .identifier n
      cases slot with
      | main => exact absurd rfl hne
      | joined => exact .joinedItem hcolumn hquoted
      | subjoined => exact .subjoinedItem hcolumn hquoted

theorem Selection.derives (hp : p.WellFormed) {s : Selection} (hs : s.Over p) :
    Derives (p.scope key) .columns s.sql := by
  cases s with
  | mainTable => exact .allColumns
  | items first rest =>
      refine .columns (.intercalate (List.cons_ne_nil _ _) ?_)
      intro text htext
      have htext : text ∈ (first :: rest).map SelectItem.sql := htext
      obtain ⟨i, hi, rfl⟩ := List.mem_map.mp htext
      exact SelectItem.derives key hp (hs i hi)

/-! ## Statements -/

theorem TableQuery.derives_rows {q : TableQuery} (hp : q.plan.WellFormed) (hq : q.Over key) :
    Derives (q.plan.scope key) .rows (q.text.select .all) := by
  rw [QueryText.select_eq (orderSql_ne_empty hq.ordered)]
  have hrows := Derives.rows (Selection.derives key hp hq.selection) (JoinPlan.derives_fromSql key hp)
    (Where.derives_clause key hp hq.conditions) (derives_orderSql key hp hq.ordered hq.order)
  simpa [Window.all, TableQuery.text] using hrows

theorem TableQuery.derives_page {q : TableQuery} (hp : q.plan.WellFormed) (hq : q.Over key)
    (w : Window) : Derives (q.plan.scope key) .statement (q.text.select w) := by
  have hlimit : Derives (q.plan.scope key) .limit
      (w.limit.elim "" fun n => " LIMIT " ++ toString n) := by
    cases w.limit with
    | none => exact .noLimit
    | some n => exact .limit (.integer_toString n)
  have hoffset : Derives (q.plan.scope key) .offset
      (w.offset.elim "" fun n => " OFFSET " ++ toString n) := by
    cases w.offset with
    | none => exact .noOffset
    | some n => exact .offset (.integer_toString n)
  have hpage := Derives.page (q.derives_rows key hp hq) hlimit hoffset
  rw [QueryText.select_eq (orderSql_ne_empty hq.ordered)] at hpage ⊢
  simpa [Window.all, TableQuery.text] using hpage

theorem TableQuery.derives_count {q : TableQuery} (hp : q.plan.WellFormed) (hq : q.Over key) :
    Derives (q.plan.scope key) .statement q.text.count := by
  rw [QueryText.count_eq q.plan.fromSql_ne_empty]
  exact .count (JoinPlan.derives_fromSql key hp) (Where.derives_clause key hp hq.conditions)

theorem Aggregate.derives (hp : p.WellFormed) (a : Aggregate) {e : ColumnExpr} (he : p.Knows e) :
    Derives (p.scope key) .aggregate (a.sql e) := by
  obtain ⟨slot, -, hcolumn⟩ := JoinPlan.Knows.derives key hp he
  have hname : a.name ∈ ["COUNT", "SUM", "AVG", "MIN", "MAX"] := by
    cases a <;> simp [Aggregate.name]
  exact .aggregate hname hcolumn

theorem GroupLabel.derives (hp : p.WellFormed) {l : GroupLabel} (hl : p.Knows l.expr) :
    Derives (p.scope key) .label l.sql := by
  obtain ⟨slot, -, hcolumn⟩ := JoinPlan.Knows.derives key hp hl
  cases l with
  | column e => exact .columnLabel hcolumn
  | stretch d e =>
      have hpattern :
          d.pattern ∈ ["YYYY-MM-DD", "IYYY-IW", "YYYY-MM", "YYYY-\"Q\"Q", "YYYY"] := by
        cases d <;> simp [DateGroup.pattern]
      exact .dateLabel hpattern hcolumn

theorem ChartQuery.derives {q : ChartQuery} (hp : q.plan.WellFormed) (hq : q.Over key) :
    Derives (q.plan.scope key) .statement q.sql := by
  obtain ⟨plan, conditions, shape⟩ := q
  have hsource := JoinPlan.derives_fromSql key hp
  have hfilter := Where.derives_suffix key hp hq.conditions
  have hlimit : Derives (plan.scope key) .integer (toString chartLimit) :=
    .natural (isNumeral_toString chartLimit)
  have hshape := hq.shape
  cases shape with
  | grouped label aggregate value =>
      have hlabel := GroupLabel.derives key hp hshape.1
      have hvalue := aggregate.derives key hp hshape.2
      have htext : ChartQuery.sql ⟨plan, conditions, .grouped label aggregate value⟩ =
          "SELECT " ++ label.sql ++ " AS label, " ++ aggregate.sql value ++ " AS value FROM " ++
            plan.fromSql ++ conditions.suffix ++ " GROUP BY " ++ label.sql ++ " ORDER BY " ++
            label.sql ++ " LIMIT " ++ toString chartLimit := by
        apply String.toList_inj.mp
        simp [ChartQuery.sql, ChartShape.columns, ChartShape.tail]
      rw [htext]
      exact .groupedChart hlabel hvalue hsource hfilter hlimit
  | plain label value order =>
      obtain ⟨hlabel, hvalue, hne, hkeys⟩ := hshape
      obtain ⟨i, -, hlabel⟩ := JoinPlan.Knows.derives key hp hlabel
      obtain ⟨j, -, hvalue⟩ := JoinPlan.Knows.derives key hp hvalue
      have horder : Derives (plan.scope key) (.list ", " .key) (commaList (order.map OrderKey.sql)) := by
        refine .intercalate (by simpa using hne) ?_
        intro s hs
        obtain ⟨k, hk, rfl⟩ := List.mem_map.mp hs
        exact OrderKey.derives key hp (hkeys k hk)
      have htext : ChartQuery.sql ⟨plan, conditions, .plain label value order⟩ =
          "SELECT " ++ label.sql ++ " AS label, " ++ value.sql ++ " AS value FROM " ++
            plan.fromSql ++ conditions.suffix ++ " ORDER BY " ++
            commaList (order.map OrderKey.sql) ++ " LIMIT " ++ toString chartLimit := by
        apply String.toList_inj.mp
        simp [ChartQuery.sql, ChartShape.columns, ChartShape.tail]
      rw [htext]
      exact .plainChart hlabel hvalue hsource hfilter horder hlimit

theorem MetricQuery.derives {q : MetricQuery} (hp : q.plan.WellFormed) (hq : q.Over) :
    Derives (q.plan.scope key) .statement q.sql :=
  .metric (q.aggregate.derives key hp hq.column) (JoinPlan.derives_fromSql key hp)
    (Where.derives_suffix key hp hq.conditions)

theorem Statement.derives (hp : p.WellFormed) {s : Statement} (hs : s.Over p key) :
    Derives (p.scope key) .statement s.text := by
  cases s with
  | count q | page q w | declareCursor q =>
      cases q with
      | given _ => exact False.elim hs
      | table q =>
          obtain ⟨rfl, hq⟩ := hs
          first
            | exact q.derives_count key hp hq
            | exact q.derives_page key hp hq w
            | exact .cursor (q.derives_rows key hp hq)
  | chart q =>
      obtain ⟨rfl, hq⟩ := hs
      exact ChartQuery.derives key hp hq
  | metric q =>
      obtain ⟨rfl, hq⟩ := hs
      exact MetricQuery.derives key hp hq
  | _ => exact False.elim hs

end Parts

/-! ## Runs of requests -/

/-- The tables of a scope have the columns, and the first the primary key, that a database has listed. -/
structure Scope.Live (g : Scope) (js : List Entry) (database : String) : Prop where
  columns : ∀ t ∈ g.tables, ∃ ref : TableRef, ref.schema.name = t.schema ∧ ref.table.name = t.table ∧
    ListsColumns js database ref t.columns
  primaryKey : g.primaryKey = [] ∨ ∃ t ref, g.tables.head? = some t ∧ ref.schema.name = t.schema ∧
    ref.table.name = t.table ∧ ListsKey js database ref g.primaryKey

/-- The text of the statement follows the grammar, with names that its own database has listed. -/
def Grammatical : Account := fun js c s =>
  ∃ database g, c.site = .browsed database ∧ Scope.Live g js database ∧ Derives g .statement s.text

theorem Errand.grammatical {w : Errand} {js : List Entry} {c : Connection} {s : Statement}
    (h : w.account js c s) (hs : s.isData = true) : Grammatical js c s := by
  obtain ⟨p, key, hplan, hkey, hover⟩ := h.data hs
  refine ⟨w.database, p.scope key, h.site, ⟨?_, ?_⟩, Statement.derives key hplan.wellFormed hover⟩
  · intro t ht
    obtain ⟨planned, hplanned, rfl⟩ := List.mem_map.mp ht
    exact ⟨planned.ref, rfl, rfl, (hplan.admitted planned hplanned).listed⟩
  · rcases hkey with rfl | hkey
    · exact Or.inl rfl
    · exact Or.inr ⟨p.main.listed, p.main.ref, rfl, rfl, rfl, hkey⟩

/-- Whatever a request brings, every data statement that it executes follows the grammar. -/
theorem Desk.executes_grammatical {σ : Type} [Server σ] (d : Desk) (r : Requester) (q : Request)
    (l : Link σ) :
    Accounted (fun earlier c s => s.isData = true → Grammatical earlier c s) (d.journal r q l) := by
  intro earlier e later c s hsplit hcall htelling hdata
  cases herrand : d.errand? r q with
  | none =>
      have hnothing := d.accounted_journal_without_errand r herrand l
      exact False.elim (hnothing earlier e later c s hsplit hcall htelling)
  | some w =>
      have hallows := d.accounted_journal r herrand l earlier e later c s hsplit hcall htelling
      exact Errand.grammatical hallows hdata

end TableSteward

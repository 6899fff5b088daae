import TableSteward.Database.Statement

/-!
# Texts of queries

The text of a query part after part, without the lists that it is put together from, and the place of the plan
in it.
-/
set_option autoImplicit false

namespace TableSteward

theorem intercalate_ne_empty {separator s : String} {rest : List String} (hs : s ≠ "") :
    separator.intercalate (s :: rest) ≠ "" := by
  cases rest with
  | nil => simpa using hs
  | cons t rest =>
      rw [String.intercalate_cons_cons]
      intro hempty
      exact hs (String.append_eq_empty_iff.mp (String.append_eq_empty_iff.mp hempty).1).1

theorem JoinPlan.fromSql_ne_empty (p : JoinPlan) : p.fromSql ≠ "" := by
  apply intercalate_ne_empty
  intro hempty
  have hblank := (String.append_eq_empty_iff.mp (String.append_eq_empty_iff.mp hempty).1).2
  exact absurd hblank (by decide)

theorem orderSql_ne_empty {terms : List OrderTerm} (hne : terms ≠ []) : orderSql terms ≠ "" := by
  cases terms with
  | nil => exact absurd rfl hne
  | cons t rest =>
      apply intercalate_ne_empty
      intro hempty
      have hdirection := (String.append_eq_empty_iff.mp hempty).2
      split at hdirection
      · exact absurd hdirection (by decide)
      · exact absurd hdirection (by decide)

theorem QueryText.select_eq {q : QueryText} (horder : q.order ≠ "") (w : Window) :
    q.select w = "SELECT " ++ q.columns ++ " FROM " ++ q.source ++
      (if q.conditions.isEmpty then "" else " WHERE " ++ q.conditions) ++ " ORDER BY " ++ q.order ++
      (w.limit.elim "" fun n => " LIMIT " ++ toString n) ++
      (w.offset.elim "" fun n => " OFFSET " ++ toString n) := by
  obtain ⟨limit, offset⟩ := w
  have horder : q.order.isEmpty = false := String.isEmpty_eq_false_iff.mpr horder
  unfold select clause Window.parts
  rw [horder]
  apply String.toList_inj.mp
  cases q.conditions.isEmpty <;> cases limit <;> cases offset <;>
    simp [String.intercalate_cons_cons]

theorem QueryText.count_eq {q : QueryText} (hsource : q.source ≠ "") :
    q.count = "SELECT COUNT(*) AS count FROM " ++ q.source ++
      (if q.conditions.isEmpty then "" else " WHERE " ++ q.conditions) := by
  have hsource : q.source.isEmpty = false := String.isEmpty_eq_false_iff.mpr hsource
  unfold count clause
  rw [hsource]
  apply String.toList_inj.mp
  cases q.conditions.isEmpty <;> simp [String.intercalate_cons_cons]

theorem intercalate_cons_eq (separator s : String) (rest : List String) :
    ∃ tail, separator.intercalate (s :: rest) = s ++ tail := by
  cases rest with
  | nil => exact ⟨"", by simp⟩
  | cons t rest =>
      refine ⟨separator ++ separator.intercalate (t :: rest), ?_⟩
      rw [String.intercalate_cons_cons, String.append_assoc]

/-! ## The plan of a statement -/

/-- The plan whose tables stand behind `FROM` and `JOIN` in a statement. -/
def Statement.plan? : Statement → Option JoinPlan
  | .count (.table q) | .page (.table q) _ | .declareCursor (.table q) => some q.plan
  | .chart q => some q.plan
  | .metric q => some q.plan
  | _ => none

/-- The statement has this plan, and the chain of the plan stands behind `FROM` in the text. -/
structure Statement.ReadsFrom (s : Statement) (p : JoinPlan) : Prop where
  plan : s.plan? = some p
  written : ∃ before after, s.text = before ++ " FROM " ++ p.fromSql ++ after

theorem QueryText.select_from (q : QueryText) (w : Window) :
    ∃ after, q.select w = "SELECT " ++ q.columns ++ " FROM " ++ q.source ++ after := by
  unfold select
  simp only [List.cons_append, List.nil_append, List.append_assoc]
  exact intercalate_cons_eq _ _ _

theorem Statement.readsFrom_of_plan? {s : Statement} {p : JoinPlan} (h : s.plan? = some p) :
    s.ReadsFrom p := by
  refine ⟨h, ?_⟩
  cases s with
  | count q =>
      cases q with
      | given _ => exact nomatch h
      | table q =>
          obtain rfl : q.plan = p := Option.some.inj h
          exact ⟨"SELECT COUNT(*) AS count", _, QueryText.count_eq (q := q.text) q.plan.fromSql_ne_empty⟩
  | page q w =>
      cases q with
      | given _ => exact nomatch h
      | table q =>
          obtain rfl : q.plan = p := Option.some.inj h
          obtain ⟨after, hafter⟩ := q.text.select_from w
          exact ⟨"SELECT " ++ q.text.columns, after, hafter⟩
  | declareCursor q =>
      cases q with
      | given _ => exact nomatch h
      | table q =>
          obtain rfl : q.plan = p := Option.some.inj h
          obtain ⟨after, hafter⟩ := q.text.select_from .all
          refine ⟨"DECLARE " ++ cursorName ++ " NO SCROLL CURSOR FOR " ++ ("SELECT " ++ q.text.columns),
            after, ?_⟩
          change "DECLARE " ++ cursorName ++ " NO SCROLL CURSOR FOR " ++ q.text.select .all = _
          rw [hafter]
          simp only [String.append_assoc]
          rfl
  | chart q =>
      obtain rfl : q.plan = p := Option.some.inj h
      refine ⟨"SELECT " ++ q.shape.columns,
        q.conditions.suffix ++ " " ++ q.shape.tail ++ " LIMIT " ++ toString chartLimit, ?_⟩
      change q.sql = _
      unfold ChartQuery.sql
      simp only [String.append_assoc]
  | metric q =>
      obtain rfl : q.plan = p := Option.some.inj h
      refine ⟨"SELECT " ++ q.aggregate.sql q.column ++ " AS value", q.conditions.suffix, ?_⟩
      change q.sql = _
      apply String.toList_inj.mp
      simp [MetricQuery.sql]
  | _ => exact nomatch h

end TableSteward

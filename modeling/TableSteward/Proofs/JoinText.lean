import TableSteward.Proofs.ConditionReading

/-!
# What the text of a join chain tells

From the text of a chain and the tables in it one can tell the chain itself: which kind each hop is of, and over which
columns it leads.
-/
set_option autoImplicit false

namespace TableSteward

theorem Identifier.eq_of_name {i k : Identifier} (h : i.name = k.name) : i = k := by
  obtain ⟨name, hi⟩ := i
  obtain ⟨name', hk⟩ := k
  cases h
  rfl

theorem Identifier.sql_inj {i k : Identifier} (h : i.sql = k.sql) : i = k := by
  apply eq_of_name
  simpa [Identifier.sql, ← String.toList_inj] using h

theorem ColumnExpr.sql_inj {e f : ColumnExpr} (hslot : e.slot = f.slot) (h : e.sql = f.sql) : e = f := by
  obtain ⟨slot, column⟩ := e
  obtain ⟨slot', column'⟩ := f
  obtain rfl : slot = slot' := hslot
  have hcolumn : column.sql = column'.sql := by
    cases slot with
    | none => exact h
    | some slot => simpa [ColumnExpr.sql, ← String.toList_inj] using h
  rw [Identifier.sql_inj hcolumn]

theorem ColumnExpr.append_inj {e f : ColumnExpr} {u v : List Char} (hslot : e.slot = f.slot)
    (h : e.sql.toList ++ u = f.sql.toList ++ v) : e = f ∧ u = v := by
  obtain ⟨hsql, hrest⟩ := IsColumn.append_inj e.isColumn f.isColumn h
  exact ⟨sql_inj hslot hsql, hrest⟩

theorem JoinKind.append_inj {kind kind' : JoinKind} {u v : List Char}
    (h : kind.sql.toList ++ u = kind'.sql.toList ++ v) : kind = kind' ∧ u = v := by
  cases kind <;> cases kind' <;> simp_all [JoinKind.sql]

namespace PlannedHop

theorem append_inj {g h : PlannedHop} {u v : List Char} (htable : g.table = h.table)
    (hsource : g.source.slot = h.source.slot) (htarget : g.target.slot = h.target.slot)
    (heq : g.sql.toList ++ u = h.sql.toList ++ v) : g = h ∧ u = v := by
  obtain ⟨kind, source, target, table⟩ := g
  obtain ⟨kind', source', target', table'⟩ := h
  obtain rfl : table = table' := htable
  simp only [sql, String.toList_append, List.append_assoc] at heq
  obtain ⟨rfl, hjoined⟩ := JoinKind.append_inj heq
  -- a space, the table and the word between it and the columns
  have hcolumns := List.append_cancel_left (List.append_cancel_left (List.append_cancel_left hjoined))
  obtain ⟨rfl, hsecond⟩ := ColumnExpr.append_inj hsource hcolumns
  obtain ⟨rfl, hrest⟩ := ColumnExpr.append_inj htarget (List.append_cancel_left hsecond)
  exact ⟨rfl, hrest⟩

/-- The text of the hops behind the main table. -/
def chainSql : List PlannedHop → String
  | [] => ""
  | h :: rest => " " ++ h.sql ++ chainSql rest

end PlannedHop

theorem JoinPlan.fromSql_eq (p : JoinPlan) : p.fromSql = p.main.sql ++ PlannedHop.chainSql p.hops := by
  obtain ⟨main, hops⟩ := p
  have hjoined : ∀ s : String, " ".intercalate (s :: hops.map PlannedHop.sql) = s ++ PlannedHop.chainSql hops := by
    induction hops with
    | nil => intro s; simp [PlannedHop.chainSql]
    | cons h rest ih =>
        intro s
        rw [List.map_cons, String.intercalate_cons_cons, ih, PlannedHop.chainSql]
        simp only [String.append_assoc]
  exact hjoined main.sql

theorem ChainFrom.eq_of_text {left : PlannedTable} {places : List Hop} {gs hs : List PlannedHop}
    (hg : ChainFrom left places gs) (hh : ChainFrom left places hs)
    (htables : gs.map PlannedHop.table = hs.map PlannedHop.table)
    (htext : PlannedHop.chainSql gs = PlannedHop.chainSql hs) : gs = hs := by
  induction gs generalizing left places hs with
  | nil =>
      cases hs with
      | nil => rfl
      | cons h rest => exact nomatch htables
  | cons g gs ih =>
      cases hs with
      | nil => exact nomatch htables
      | cons h hs =>
          cases places with
          | nil => exact hg.elim
          | cons place places =>
              obtain ⟨hleads, hg⟩ := hg
              obtain ⟨hleads', hh⟩ := hh
              obtain ⟨htable, hothers⟩ := List.cons.inj htables
              have htarget : g.target.slot = h.target.slot := by
                rw [hleads.target, hleads'.target, htable]
              have hchars : g.sql.toList ++ (PlannedHop.chainSql gs).toList =
                  h.sql.toList ++ (PlannedHop.chainSql hs).toList := by
                simpa [PlannedHop.chainSql, ← String.toList_inj] using htext
              obtain ⟨rfl, hrest⟩ := PlannedHop.append_inj htable
                (hleads.source.trans hleads'.source.symm) htarget hchars
              rw [ih hg hh hothers (String.toList_inj.mp hrest)]

/-- The text of a plan and its tables determine the plan. -/
theorem JoinPlan.WellFormed.eq_of_fromSql {p q : JoinPlan} (hp : p.WellFormed) (hq : q.WellFormed)
    (hsql : p.fromSql = q.fromSql) (htables : p.tables = q.tables) : p = q := by
  obtain ⟨hmain, htables⟩ := List.cons.inj htables
  rw [p.fromSql_eq, q.fromSql_eq, hmain] at hsql
  have hchain := hp.chain
  rw [hmain] at hchain
  have hhops := hchain.eq_of_text hq.chain htables (by simpa [← String.toList_inj] using hsql)
  obtain ⟨main, hops⟩ := p
  obtain ⟨main', hops'⟩ := q
  cases hmain
  cases hhops
  rfl

end TableSteward

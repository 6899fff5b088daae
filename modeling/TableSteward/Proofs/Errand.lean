import TableSteward.Proofs.Pairing
import TableSteward.Proofs.Plan
import TableSteward.Proofs.Request

/-!
# What an errand allows

The account of an errand: before a data statement is executed, the catalog has found every table that the
request names, the gate has let each of them pass, the catalog has listed their columns, and the statement is a
query over a plan of exactly these tables.  Nor is the catalog asked for the columns or the key of a table that
has not come through the gate.
-/
set_option autoImplicit false

namespace TableSteward

/-! ## Evidence in a journal -/

def Answered (js : List Entry) (database : String) (s : Statement) (rows : List Row) : Prop :=
  ∃ c, c.site = .browsed database ∧ ⟨.execute c s, some rows⟩ ∈ js

def Found (js : List Entry) (database : String) (t : TableRef) : Prop :=
  ∃ rows, Answered js database (.tableExists t) rows ∧ rows ≠ []

def ListsColumns (js : List Entry) (database : String) (t : TableRef) (columns : List Value) : Prop :=
  ∃ rows, Answered js database (.columns t) rows ∧
    (rows.mapM fun row => row.cell "column_name") = .ok columns

def ListsKey (js : List Entry) (database : String) (t : TableRef) (primaryKey : List Value) : Prop :=
  ∃ rows, Answered js database (.primaryKey t) rows ∧ rows.mapM Row.first = .ok primaryKey

/-- The count in the rows that answer a counting statement; nothing counts as none. -/
def Page.countIn (rows : List Row) : Result Int :=
  let v := ((rows.head?.bind List.head?).map (·.2)).getD .null
  if v.truthy then v.toInteger else .ok 0

def Counted (js : List Entry) (database : String) (q : TableQuery) (total : Int) : Prop :=
  ∃ rows, Answered js database (.count (.table q)) rows ∧ Page.countIn rows = .ok total

section Evidence

variable {js js' : List Entry} {database : String} {t : TableRef}

theorem Answered.mono {s : Statement} {rows : List Row} (hpre : js <+: js')
    (h : Answered js database s rows) : Answered js' database s rows := by
  obtain ⟨c, hc, hmem⟩ := h
  exact ⟨c, hc, hpre.subset hmem⟩

theorem answered_concat {c : Connection} {s : Statement} {rows : List Row}
    (hc : c.site = .browsed database) :
    Answered (js ++ [⟨.execute c s, some rows⟩]) database s rows :=
  ⟨c, hc, by simp⟩

theorem Found.mono (hpre : js <+: js') (h : Found js database t) : Found js' database t := by
  obtain ⟨rows, hrows, hne⟩ := h
  exact ⟨rows, hrows.mono hpre, hne⟩

theorem ListsColumns.mono {columns : List Value} (hpre : js <+: js')
    (h : ListsColumns js database t columns) : ListsColumns js' database t columns := by
  obtain ⟨rows, hrows, hcells⟩ := h
  exact ⟨rows, hrows.mono hpre, hcells⟩

theorem ListsKey.mono {primaryKey : List Value} (hpre : js <+: js')
    (h : ListsKey js database t primaryKey) : ListsKey js' database t primaryKey := by
  obtain ⟨rows, hrows, hcells⟩ := h
  exact ⟨rows, hrows.mono hpre, hcells⟩

theorem Counted.mono {q : TableQuery} {total : Int} (hpre : js <+: js')
    (h : Counted js database q total) : Counted js' database q total := by
  obtain ⟨rows, hrows, hcount⟩ := h
  exact ⟨rows, hrows.mono hpre, hcount⟩

end Evidence

/-- A statement that is put together over a plan and the primary key of its main table. -/
def Statement.Over (s : Statement) (p : JoinPlan) (primaryKey : List Value) : Prop :=
  match s with
  | .count (.table q) | .page (.table q) _ | .declareCursor (.table q) => q.plan = p ∧ q.Over primaryKey
  | .chart q => q.plan = p ∧ q.Over primaryKey
  | .metric q => q.plan = p ∧ q.Over
  | _ => False

namespace Errand

/-- The table has been found, and the gate lets it pass. -/
structure Clears (w : Errand) (js : List Entry) (t : TableRef) : Prop where
  found : Found js w.database t
  readable : w.gate.mayRead w.database t.fullName = true
  visible : w.bypass = true ∨ w.gate.maySee w.database t.fullName = true

/-- A table of a plan is cleared and has the columns that the catalog lists. -/
structure Admits (w : Errand) (js : List Entry) (t : PlannedTable) : Prop where
  clears : w.Clears js t.ref
  listed : ListsColumns js w.database t.ref t.columns

/-- The plan is one of the tables that the errand names, in their order. -/
structure Grounds (w : Errand) (js : List Entry) (p : JoinPlan) : Prop where
  wellFormed : p.WellFormed
  named : List.Forall₂ (fun name t => TableRef.ofText name = .ok t.ref) w.names p.tables
  admitted : ∀ t ∈ p.tables, w.Admits js t

/-- The primary key of the main table, unless it was not asked for. -/
def KnowsKey (w : Errand) (js : List Entry) (p : JoinPlan) (primaryKey : List Value) : Prop :=
  primaryKey = [] ∨ ListsKey js w.database p.main.ref primaryKey

structure Allows (w : Errand) (js : List Entry) (c : Connection) (s : Statement) : Prop where
  site : c.site = .browsed w.database
  catalog : ∀ t, s = .columns t ∨ s = .primaryKey t → w.Clears js t
  data : s.isData = true →
    ∃ p primaryKey, w.Grounds js p ∧ w.KnowsKey js p primaryKey ∧ s.Over p primaryKey

def account (w : Errand) : Account := w.Allows

def Backs (w : Errand) (js : List Entry) (q : TableQuery) : Prop :=
  ∃ primaryKey, w.Grounds js q.plan ∧ w.KnowsKey js q.plan primaryKey ∧ q.Over primaryKey

variable {w : Errand} {js js' : List Entry}

theorem Clears.mono {t : TableRef} (hpre : js <+: js') (h : w.Clears js t) : w.Clears js' t :=
  ⟨h.found.mono hpre, h.readable, h.visible⟩

theorem Admits.mono {t : PlannedTable} (hpre : js <+: js') (h : w.Admits js t) : w.Admits js' t :=
  ⟨h.clears.mono hpre, h.listed.mono hpre⟩

theorem Grounds.mono {p : JoinPlan} (hpre : js <+: js') (h : w.Grounds js p) : w.Grounds js' p :=
  ⟨h.wellFormed, h.named, fun t ht => (h.admitted t ht).mono hpre⟩

theorem KnowsKey.mono {p : JoinPlan} {primaryKey : List Value} (hpre : js <+: js')
    (h : w.KnowsKey js p primaryKey) : w.KnowsKey js' p primaryKey :=
  h.imp id fun h => h.mono hpre

theorem Backs.mono {q : TableQuery} (hpre : js <+: js') (h : w.Backs js q) : w.Backs js' q := by
  obtain ⟨primaryKey, hplan, hkey, hq⟩ := h
  exact ⟨primaryKey, hplan.mono hpre, hkey.mono hpre, hq⟩

def Cleared (w : Errand) (js : List Entry) : Prop :=
  ∀ name ∈ w.names, ∃ t, TableRef.ofText name = .ok t ∧ w.Clears js t

theorem Cleared.mono (hpre : js <+: js') (h : w.Cleared js) : w.Cleared js' := by
  intro name hname
  obtain ⟨t, hparse, ht⟩ := h name hname
  exact ⟨t, hparse, ht.mono hpre⟩

theorem Grounds.cleared {p : JoinPlan} (h : w.Grounds js p) : w.Cleared js := by
  intro name hname
  obtain ⟨t, ht, hparse⟩ := exists_of_mem_left h.named name hname
  exact ⟨t.ref, hparse, (h.admitted t ht).clears⟩

theorem Backs.cleared {q : TableQuery} (h : w.Backs js q) : w.Cleared js := by
  obtain ⟨primaryKey, hplan, -, -⟩ := h
  exact hplan.cleared

theorem account_columns {c : Connection} {t : TableRef} (hc : c.site = .browsed w.database)
    (ht : w.Clears js t) : w.account js c (.columns t) := by
  refine ⟨hc, ?_, nofun⟩
  rintro _ (⟨⟨⟩⟩ | ⟨⟨⟩⟩)
  exact ht

theorem account_primaryKey {c : Connection} {t : TableRef} (hc : c.site = .browsed w.database)
    (ht : w.Clears js t) : w.account js c (.primaryKey t) := by
  refine ⟨hc, ?_, nofun⟩
  rintro _ (⟨⟨⟩⟩ | ⟨⟨⟩⟩)
  exact ht

theorem account_over {c : Connection} {s : Statement} {p : JoinPlan} {primaryKey : List Value}
    (hc : c.site = .browsed w.database) (hp : w.Grounds js p) (hkey : w.KnowsKey js p primaryKey)
    (hs : s.Over p primaryKey) : w.account js c s := by
  refine ⟨hc, ?_, fun _ => ⟨p, primaryKey, hp, hkey, hs⟩⟩
  rintro t (rfl | rfl)
  · exact False.elim hs
  · exact False.elim hs

end Errand

/-- What a request without an errand may do: tell nothing of any table. -/
def Account.nothing : Account := fun _ _ _ => False

/-! ## Downloads -/

section Downloads

open Exchange

variable {σ τ : Type} [Server σ] [Server τ] {w : Errand}

/-- A full export and its double: the cursor is put on the database of the errand, over a query that is backed. -/
inductive CursorTwins (P : Pairing σ τ w.account w.gate) (js : List Entry) :
    CursorExport (Journal σ) → CursorExport τ → Prop
  | mk {q : TableQuery} {columns : List Value} {batchSize : Int}
      {complete : Nat → Exchange (Journal σ) Unit} {complete' : Nat → Exchange τ Unit} :
      w.Backs js q →
      (∀ written js', Keeps P js' (complete written) (complete' written) (Same fun _ _ => True)) →
      CursorTwins P js ⟨.browsed w.database, .table q, columns, batchSize, complete⟩
        ⟨.browsed w.database, .table q, columns, batchSize, complete'⟩

inductive StreamTwins (P : Pairing σ τ w.account w.gate) (js : List Entry) :
    TextStream (Journal σ) → TextStream τ → Prop
  | finished : StreamTwins P js .finished .finished
  | records (columns : List Value) (headed : Bool) (rows : List Row) :
      StreamTwins P js (.records columns headed rows) (.records columns headed rows)
  | cursor {e : CursorExport (Journal σ)} {e' : CursorExport τ} {phase : CursorPhase} :
      CursorTwins P js e e' → (∀ c, phase = .headed c → c.site = .browsed w.database) →
      StreamTwins P js (.cursor e phase) (.cursor e' phase)

variable {P : Pairing σ τ w.account w.gate} {js js' : List Entry}

theorem CursorTwins.mono {e : CursorExport (Journal σ)} {e' : CursorExport τ} (hpre : js <+: js')
    (h : CursorTwins P js e e') : CursorTwins P js' e e' := by
  cases h with
  | mk hq hcomplete => exact .mk (hq.mono hpre) hcomplete

theorem StreamTwins.mono {s : TextStream (Journal σ)} {t : TextStream τ} (hpre : js <+: js')
    (h : StreamTwins P js s t) : StreamTwins P js' s t := by
  cases h with
  | finished => exact .finished
  | records columns headed rows => exact .records columns headed rows
  | cursor he hheaded => exact .cursor (he.mono hpre) hheaded

end Downloads

end TableSteward

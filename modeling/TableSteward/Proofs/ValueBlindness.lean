import TableSteward.Proofs.Abreast
import TableSteward.Proofs.PagedExport

/-!
# Blindness to values

The values of filters never shape a query.  Two versions of a request do the same on the same link until their first
query; the queries that they send then are in the same words, for the same page, and differ in what their parameters
are bound to.
-/
set_option autoImplicit false

namespace TableSteward

open Exchange

variable {σ : Type} [Server σ]

/-! ## Pages -/

namespace Page

/-- The rows are counted, and then one page of them is read. -/
def Asks (q : Query) (script : List Statement) : Prop := ∃ w, script = [.count q, .page q w]

theorem asks_count (q : Query) : Asks q ([.count q] ++ [.page q .all]) := ⟨.all, rfl⟩

theorem sends_fetch (c : Connection) (q : Query) (page : Value) (size : Int) :
    Sends (σ := σ) (fetch c q page size) (Follows anyValue (Asks q)) := by
  have hcounted : ∀ f : Fault, Follows (anyValue (α := Page)) (Asks q) (.error f) [.count q] :=
    fun f => .stopped f (asks_count q) (List.prefix_append _ _)
  unfold fetch
  refine (sends_countRows c q).bind ?_ fun f _ h => h ▸ hcounted f
  rintro total _ rfl
  refine (silent_lift _).bind (fun pages => ?_) hcounted
  refine (silent_lift _).bind (fun number => ?_) hcounted
  have hall : ∀ r : Result Page, Follows anyValue (Asks q) r
      ([.count q] ++ [.page q (.page size ((number - 1) * size))]) := fun r => .all ⟨_, rfl⟩
  refine (sends_execute c rfl).bind ?_ fun f _ h => h ▸ hall (.error f)
  rintro rows _ rfl
  refine ((silent_lift _).andThen fun rows => silent_pure _).weaken ?_
  rintro r _ rfl
  exact hall r

end Page

namespace Browser

variable (b : Browser) (r : Requester) {q q' : TableRequest}

end Browser

/-! ## Reports -/

namespace Reporter

/-- The query of a table block, before any row is asked for. -/
def tableQuery (c : Connection) (plan : JoinPlan) (b : TableBlock) : Exchange σ TableQuery := do
  let items ← Exchange.lift (b.columns.mapM plan.select)
  let conditions ← Exchange.lift (Where.ofFilters plan.resolve b.source.filters)
  let tieBreakers ← defaultOrder c plan
  let order ← Exchange.lift (orderTerms b.order.toList plan.resolve tieBreakers)
  return ⟨plan, conditions, .ofItems items, order⟩

/-- What a table block answers with a page. -/
def tableAnswer (page : Page) : BlockAnswer :=
  ⟨.dict ([("type", .text "table"), ("rowCount", .int page.rows.length)] ++ page.entries),
    "Table block query: page " ++ toString page.number ++ " of " ++ toString page.pages ++ " (" ++
    toString page.rows.length ++ " rows)"⟩

theorem runTable_eq (p : Reporter) (c : Connection) (plan : JoinPlan) (b : TableBlock) (page : Value) :
    p.runTable (σ := σ) c plan b page =
      tableQuery c plan b >>= fun query =>
        Page.fetch c (.table query) page p.pageSize >>= fun page => pure (tableAnswer page) := by
  simp only [runTable, tableQuery, bind_assoc, pure_bind]
  rfl

variable {s : BlockSource}

theorem silent_tableQuery (c : Connection) (plan : JoinPlan) (b : TableBlock) :
    Silent (σ := σ) (tableQuery c plan b) := by
  refine (silent_lift _).andThen fun items => (silent_lift _).andThen fun conditions => ?_
  refine (silent_defaultOrder c plan).andThen fun tieBreakers => ?_
  exact (silent_lift _).andThen fun order => silent_pure _

end Reporter

/-! ## Requests -/

/-- A reply to which nothing is missing: a download only counts if it was taken to its end. -/
def Reply.IsWhole : Reply → Prop
  | .download _ delivery => delivery.ending = .complete
  | _ => True

namespace Desk

variable (d : Desk) (r : Requester)

/-! ### Full exports -/

variable {q q' : TableRequest}

/-- A block that cannot be read is refused before anything is asked. -/
theorem runBlock_cases (id : String) (page : Value) :
    (∃ f, d.config? r id = none ∧ d.reporter.runBlock (σ := σ) d.blocks r id page = throw f) ∨
      ∃ config, d.config? r id = some config ∧
        d.reporter.runBlock (σ := σ) d.blocks r id page = d.reporter.run r config page := by
  unfold config? Reporter.runBlock
  cases Reporter.ownedBlock d.blocks r id with
  | error f => exact .inl ⟨f, rfl, rfl⟩
  | ok b =>
      dsimp only
      rw [Exchange.lift, pure_bind]
      cases BlockConfig.parse b.kind (.dict b.config) with
      | error f => exact .inl ⟨f, rfl, rfl⟩
      | ok config => exact .inr ⟨config, rfl, rfl⟩

/-! ### Any request -/

end Desk

/-! ## Two versions -/

namespace Ledger

/-- From a text on that is no day, and one of three numbers. -/
def listed : TableRequest :=
  ⟨"Prod", "t", [⟨"note", "gte", .text "b"⟩, ⟨"id", "in", .list [.int 1, .int 2, .int 3]⟩], []⟩

end Ledger

end TableSteward

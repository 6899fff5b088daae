import Mathlib.Tactic.Choose
import TableSteward.Proofs.Admission
import TableSteward.Service.Action

/-!
# Dialogues

Whatever reads a database on one connection is a dialogue: it executes one statement after another, each of which may
depend on what was answered before, and comes to an outcome.  A law of dialogues is proved by induction over them, and so
it holds of the gate, the planner of joins, pages and blocks at once.
-/
set_option autoImplicit false

namespace TableSteward

open Exchange

/-- No answer means that the statement failed. -/
inductive Dialogue (α : Type)
  | done (r : Result α)
  | ask (s : Statement) (next : Option (List Row) → Dialogue α)

namespace Dialogue

variable {σ α β : Type}

def bind : Dialogue α → (α → Dialogue β) → Dialogue β
  | done (.ok a), k => k a
  | done (.error f), _ => done (.error f)
  | ask s next, k => ask s fun answer => (next answer).bind k

/-- A failure of the database ends the dialogue. -/
def LetsPass : Dialogue α → Prop
  | done _ => True
  | ask _ next => next none = done (.error .database) ∧ ∀ rows, (next (some rows)).LetsPass

theorem letsPass_bind {d : Dialogue α} {k : α → Dialogue β} (hd : d.LetsPass) (hk : ∀ a, (k a).LetsPass) :
    (d.bind k).LetsPass := by
  induction d with
  | done r =>
      cases r with
      | ok a => exact hk a
      | error f => exact trivial
  | ask s next ih =>
      obtain ⟨hfailed, hanswered⟩ := hd
      exact ⟨congrArg (bind · k) hfailed, fun rows => ih (some rows) (hanswered rows)⟩

variable [Server σ]

/-- The dialogue on a connection. -/
def on (c : Connection) : Dialogue α → Exchange σ α
  | done r => lift r
  | ask s next => do
      let answer ← attempt (execute c s)
      (next answer.toOption).on c

theorem on_bind (c : Connection) (d : Dialogue α) (k : α → Dialogue β) :
    ((d.bind k).on c : Exchange σ β) = d.on c >>= fun a => (k a).on c := by
  induction d with
  | done r => cases r <;> rfl
  | ask s next ih =>
      rw [bind, on, on, bind_assoc]
      exact congrArg _ (funext fun answer => ih answer.toOption)

end Dialogue

theorem Exchange.ext {σ α : Type} {x y : Exchange σ α} (h : ∀ l, x.runOn l = y.runOn l) : x = y := funext h

theorem Exchange.runOn_execute {σ : Type} [Server σ] (c : Connection) (s : Statement) (l : Link σ) :
    (execute c s).runOn l =
      ((Server.answer l.server (.execute c s)).1.elim (.error .database) .ok,
        { l with trace := .executed c s :: l.trace, server := (Server.answer l.server (.execute c s)).2 }) := by
  rw [execute, runOn_bind, runOn_note]
  exact runOn_ask _ _

/-- On every connection the computation is one dialogue, which a failure of the database ends. -/
def IsDialogue {σ α : Type} [Server σ] (x : Connection → Exchange σ α) : Prop :=
  ∃ d : Dialogue α, d.LetsPass ∧ ∀ c, x c = d.on c

namespace IsDialogue

variable {σ α β : Type} [Server σ] {x : Connection → Exchange σ α}

theorem bind {k : α → Connection → Exchange σ β} (hx : IsDialogue x) (hk : ∀ a, IsDialogue (k a)) :
    IsDialogue fun c => x c >>= fun a => k a c := by
  obtain ⟨d, hd, hon⟩ := hx
  choose e he hkon using hk
  refine ⟨d.bind e, Dialogue.letsPass_bind hd he, fun c => ?_⟩
  rw [Dialogue.on_bind]
  simp only [hon, hkon]

theorem lift (r : Result α) : IsDialogue fun _ => (Exchange.lift r : Exchange σ α) :=
  ⟨.done r, trivial, fun _ => rfl⟩

theorem pure (a : α) : IsDialogue fun _ => (Pure.pure a : Exchange σ α) := lift (.ok a)

theorem require (holds : Bool) (f : Fault) : IsDialogue fun _ => (Exchange.require holds f : Exchange σ Unit) := by
  cases holds with
  | true => exact lift (.ok ())
  | false => exact lift (.error f)

theorem execute (s : Statement) : IsDialogue fun c => (Exchange.execute c s : Exchange σ (List Row)) := by
  refine ⟨.ask s fun answer => .done (answer.elim (.error .database) .ok), ⟨rfl, fun _ => trivial⟩, fun c => ?_⟩
  refine Exchange.ext fun l => ?_
  rw [Dialogue.on, runOn_bind, runOn_attempt, runOn_execute]
  cases (Server.answer l.server (.execute c s)).1 <;> rfl

end IsDialogue

/-! ## The catalog -/

namespace Catalog

variable {σ : Type} [Server σ]

theorem isDialogue_tableExists (t : TableRef) : IsDialogue (σ := σ) fun c => tableExists c t :=
  (IsDialogue.execute _).bind fun _ => .pure _

theorem isDialogue_listTables : IsDialogue (σ := σ) listTables :=
  (IsDialogue.execute _).bind fun _ => .lift _

theorem isDialogue_columns (t : TableRef) : IsDialogue (σ := σ) fun c => columns c t :=
  (IsDialogue.execute _).bind fun _ => .lift _

theorem isDialogue_primaryKey (t : TableRef) : IsDialogue (σ := σ) fun c => primaryKey c t :=
  (IsDialogue.execute _).bind fun _ => .lift _

theorem isDialogue_columnInfo (t : TableRef) : IsDialogue (σ := σ) fun c => columnInfo c t := by
  simp only [columnInfo_eq]
  refine (IsDialogue.execute _).bind fun rows => ?_
  refine (isDialogue_primaryKey t).bind fun key => ?_
  exact (IsDialogue.require _ _).bind fun _ => .lift _

theorem isDialogue_authorize (g : Gate) (bypass : Bool) (database name : String) :
    IsDialogue (σ := σ) fun c => g.authorize bypass (tableExists c) database (.text name) := by
  simp only [Gate.authorize_eq]
  refine (IsDialogue.lift _).bind fun t => ?_
  refine (IsDialogue.require _ _).bind fun _ => ?_
  refine (isDialogue_tableExists t).bind fun _ => ?_
  refine (IsDialogue.require _ _).bind fun _ => ?_
  refine (IsDialogue.require _ _).bind fun _ => ?_
  refine (IsDialogue.require _ _).bind fun _ => ?_
  exact (IsDialogue.require _ _).bind fun _ => .pure t

end Catalog

namespace JoinPlan

variable {σ : Type} [Server σ] (g : Gate) (bypass : Bool) (database : String)

theorem isDialogue_buildHop (left : PlannedTable) (hop : Hop) (j : JoinSpec) :
    IsDialogue (σ := σ) fun c => buildHop (Catalog.joinSource c g bypass database) left hop j := by
  unfold buildHop
  simp only [lift_eq]
  refine (IsDialogue.lift _).bind fun ⟨kind, a, b⟩ => ?_
  refine (Catalog.isDialogue_authorize g bypass database j.table).bind fun ref => ?_
  refine (Catalog.isDialogue_columns ref).bind fun columns => ?_
  refine (IsDialogue.lift _).bind fun _ => ?_
  exact (IsDialogue.lift _).bind fun _ => .pure _

theorem isDialogue_buildHops (places : List Hop) (specs : List JoinSpec) (left : PlannedTable) :
    IsDialogue (σ := σ) fun c => buildHops (Catalog.joinSource c g bypass database) left places specs := by
  induction places generalizing specs left with
  | nil => exact .pure _
  | cons hop places ih =>
      cases specs with
      | nil => exact .pure _
      | cons j rest =>
          refine (isDialogue_buildHop g bypass database left hop j).bind fun h => ?_
          exact (ih rest h.table).bind fun _ => .pure _

end JoinPlan

/-! ## Pages and blocks -/

namespace Page

variable {σ : Type} [Server σ]

theorem isDialogue_countRows (q : Query) : IsDialogue (σ := σ) fun c => countRows c q := by
  unfold countRows
  refine (IsDialogue.execute _).bind fun rows => ?_
  dsimp only
  split
  · exact .lift _
  · exact .pure _

theorem isDialogue_fetch (q : Query) (page : Value) (size : Int) :
    IsDialogue (σ := σ) fun c => fetch c q page size := by
  unfold fetch
  refine (isDialogue_countRows q).bind fun total => ?_
  refine (IsDialogue.lift _).bind fun pages => ?_
  refine (IsDialogue.lift _).bind fun number => ?_
  refine (IsDialogue.execute _).bind fun rows => ?_
  exact (IsDialogue.lift _).bind fun rows => .pure _

end Page

namespace Browser

variable {σ : Type} [Server σ] (b : Browser) (r : Requester)

theorem isDialogue_prepare (q : TableRequest) : IsDialogue (σ := σ) fun c => b.prepare r c q := by
  unfold prepare
  refine (Catalog.isDialogue_authorize (b.gate r) false q.database q.table).bind fun ref => ?_
  refine (Catalog.isDialogue_columns ref).bind fun columns => ?_
  refine (IsDialogue.lift _).bind fun conditions => ?_
  refine (Catalog.isDialogue_primaryKey ref).bind fun key => ?_
  refine (IsDialogue.lift _).bind fun tieBreakers => ?_
  exact (IsDialogue.lift _).bind fun order => .pure _

theorem isDialogue_page (q : TableRequest) (page : Value) :
    IsDialogue (σ := σ) fun c => do
      let prepared ← b.prepare r c q
      let page ← Page.fetch c (.table prepared.query) page b.pageSize
      return (prepared, page) :=
  (b.isDialogue_prepare r q).bind fun _ => (Page.isDialogue_fetch _ _ _).bind fun _ => .pure _

theorem isDialogue_count (q : TableRequest) :
    IsDialogue (σ := σ) fun c => do
      let prepared ← b.prepare r c q
      let total ← Page.countRows c (.table prepared.query)
      return (prepared, total) :=
  (b.isDialogue_prepare r q).bind fun _ => (Page.isDialogue_countRows _).bind fun _ => .pure _

theorem isDialogue_columns (database table : String) :
    IsDialogue (σ := σ) fun c => b.authorize r c database table >>= fun ref => Catalog.columnInfo c ref :=
  (Catalog.isDialogue_authorize (b.gate r) false database table).bind fun ref => Catalog.isDialogue_columnInfo ref

end Browser

namespace Reporter

variable {σ : Type} [Server σ] (p : Reporter)

theorem isDialogue_plan (r : Requester) (s : BlockSource) : IsDialogue (σ := σ) fun c => p.plan r c s := by
  unfold plan
  refine (Catalog.isDialogue_authorize (p.gate r) true s.database s.table).bind fun ref => ?_
  refine (Catalog.isDialogue_columns ref).bind fun columns => ?_
  simp only [JoinPlan.build_eq]
  refine (IsDialogue.require _ _).bind fun _ => ?_
  exact (JoinPlan.isDialogue_buildHops (p.gate r) true s.database _ _ _).bind fun _ => .pure _

theorem isDialogue_defaultOrder (plan : JoinPlan) : IsDialogue (σ := σ) fun c => defaultOrder c plan :=
  (Catalog.isDialogue_primaryKey plan.main.ref).bind fun _ => .lift _

theorem isDialogue_runTable (plan : JoinPlan) (b : TableBlock) (page : Value) :
    IsDialogue (σ := σ) fun c => p.runTable c plan b page := by
  unfold runTable
  refine (IsDialogue.lift _).bind fun items => ?_
  refine (IsDialogue.lift _).bind fun conditions => ?_
  refine (isDialogue_defaultOrder plan).bind fun tieBreakers => ?_
  refine (IsDialogue.lift _).bind fun order => ?_
  exact (Page.isDialogue_fetch _ _ _).bind fun _ => .pure _

theorem isDialogue_chartShape (plan : JoinPlan) (b : ChartBlock) (x y : ColumnExpr) :
    IsDialogue (σ := σ) fun c => chartShape c plan b x y := by
  unfold chartShape
  split
  · refine (IsDialogue.lift _).bind fun aggregate => ?_
    exact (IsDialogue.lift _).bind fun label => .pure _
  · exact (isDialogue_defaultOrder plan).bind fun _ => .pure _

theorem isDialogue_runChart (plan : JoinPlan) (b : ChartBlock) :
    IsDialogue (σ := σ) fun c => runChart c plan b := by
  unfold runChart
  refine (IsDialogue.lift _).bind fun x => ?_
  refine (IsDialogue.lift _).bind fun y => ?_
  refine (IsDialogue.lift _).bind fun conditions => ?_
  refine (isDialogue_chartShape plan b x y).bind fun shape => ?_
  refine (IsDialogue.execute _).bind fun rows => ?_
  exact (IsDialogue.lift _).bind fun rows => .pure _

theorem isDialogue_runMetric (plan : JoinPlan) (b : MetricBlock) :
    IsDialogue (σ := σ) fun c => runMetric c plan b := by
  unfold runMetric
  refine (IsDialogue.lift _).bind fun aggregate => ?_
  refine (IsDialogue.lift _).bind fun column => ?_
  refine (IsDialogue.lift _).bind fun conditions => ?_
  refine (IsDialogue.execute _).bind fun rows => ?_
  exact (IsDialogue.lift _).bind fun value => .pure _

/-- What is asked for a block, once its configuration has been read. -/
theorem isDialogue_query (r : Requester) (s : BlockSource) {body : Connection → JoinPlan → Exchange σ BlockAnswer}
    (hbody : ∀ plan, IsDialogue fun c => body c plan) :
    IsDialogue fun c => do
      let plan ← p.plan r c s
      let answer ← body c plan
      return (plan, answer) :=
  (p.isDialogue_plan r s).bind fun plan => (hbody plan).bind fun _ => .pure _

end Reporter

/-! ## Providers -/

/-- A provider executes statements on the connection that it is given, and it computes from what is answered. -/
def Provider.Converses {σ : Type} [Server σ] (p : Provider σ) : Prop :=
  ∀ r, ∃ d : Dialogue Value, ∀ c, p c r = d.on c

end TableSteward

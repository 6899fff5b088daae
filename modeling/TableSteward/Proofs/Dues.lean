import TableSteward.Proofs.Dialogue
import TableSteward.Proofs.Floor
import TableSteward.Proofs.ReadOnly
import TableSteward.Proofs.Request

/-!
# What is owed to the audit log

What is read of a table, or exported, is told to the audit log, once and under the name that the table has in the
catalog.  A `Due` is what a step owes to the log, and it owes something only if it succeeds.  An order either owes
nothing, and does nothing but read, or it files one row after its block; a full export owes nothing before its download
is drained.
-/
set_option autoImplicit false

namespace TableSteward

open Exchange

/-! ## The name of a table -/

section Names

variable {σ : Type} {l m : Link σ}

theorem Gate.ofText_of_authorize {g : Gate} {bypass : Bool} {tableExists : TableRef → Exchange σ Bool}
    {database name : String} {t : TableRef}
    (h : runOn (g.authorize bypass tableExists database (.text name)) l = (.ok t, m)) :
    TableRef.ofText name = .ok t := by
  rw [Gate.authorize_eq] at h
  obtain ⟨ref, _, hname, h⟩ := of_runOn_bind h
  obtain ⟨_, _, -, h⟩ := of_runOn_bind h
  obtain ⟨_, _, -, h⟩ := of_runOn_bind h
  obtain ⟨_, _, -, h⟩ := of_runOn_bind h
  obtain ⟨_, _, -, h⟩ := of_runOn_bind h
  obtain ⟨_, _, -, h⟩ := of_runOn_bind h
  obtain ⟨_, _, -, h⟩ := of_runOn_bind h
  cases h
  exact (of_runOn_lift hname).1

variable [Server σ]

/-- What a block answers was answered by its body. -/
theorem Exchange.body_of_readOnly {α : Type} {name : String} {timeout : Value} {body : Connection → Exchange σ α} {a : α}
    (h : runOn (readOnly name timeout body) l = (.ok a, m)) : ∃ c k n, runOn (body c) k = (.ok a, n) := by
  rcases hopening : (opening name timeout).runOn l with ⟨f | c, k⟩
  · obtain ⟨measure, hcalm⟩ : ∃ measure : σ → Nat, ∀ s c, measure (Server.answer s c).2 = measure s :=
      ⟨fun _ => 0, fun _ _ => rfl⟩
    obtain ⟨⟨g, hg⟩, -⟩ := readOnly_of_not_opens hcalm body (congrArg Prod.fst hopening)
    rw [h] at hg
    exact nomatch hg
  · have hbody := ((readOnly_of_opens body hopening).1 a).mp (congrArg Prod.fst h)
    exact ⟨c, k, _, Prod.ext hbody.1 rfl⟩

theorem Browser.ofText_of_prepare {b : Browser} {r : Requester} {c : Connection} {q : TableRequest} {p : Prepared}
    (h : runOn (b.prepare r c q) l = (.ok p, m)) : TableRef.ofText q.table = .ok p.ref := by
  obtain ⟨ref, _, hauthorize, h⟩ := of_runOn_bind h
  obtain ⟨_, _, -, h⟩ := of_runOn_bind h
  obtain ⟨_, _, -, h⟩ := of_runOn_bind h
  obtain ⟨_, _, -, h⟩ := of_runOn_bind h
  obtain ⟨_, _, -, h⟩ := of_runOn_bind h
  obtain ⟨_, _, -, h⟩ := of_runOn_bind h
  cases h
  exact Gate.ofText_of_authorize hauthorize

theorem Browser.ofText_of_fetchPage {b : Browser} {r : Requester} {q : TableRequest} {page : Value}
    {out : Prepared × Page} (h : runOn (b.fetchPage r q page) l = (.ok out, m)) :
    TableRef.ofText q.table = .ok out.1.ref := by
  obtain ⟨c, k, n, h⟩ := body_of_readOnly h
  obtain ⟨p, _, hprepare, h⟩ := of_runOn_bind h
  obtain ⟨_, _, -, h⟩ := of_runOn_bind h
  cases h
  exact ofText_of_prepare hprepare

theorem Browser.ofText_of_prepareCount {b : Browser} {r : Requester} {q : TableRequest} {out : Prepared × Int}
    (h : runOn (b.prepareCount r q) l = (.ok out, m)) : TableRef.ofText q.table = .ok out.1.ref := by
  obtain ⟨c, k, n, h⟩ := body_of_readOnly h
  obtain ⟨p, _, hprepare, h⟩ := of_runOn_bind h
  obtain ⟨_, _, -, h⟩ := of_runOn_bind h
  cases h
  exact ofText_of_prepare hprepare

theorem Reporter.ofText_of_plan {p : Reporter} {r : Requester} {c : Connection} {s : BlockSource} {plan : JoinPlan}
    (h : runOn (p.plan r c s) l = (.ok plan, m)) : TableRef.ofText s.table = .ok plan.main.ref := by
  obtain ⟨ref, _, hauthorize, h⟩ := of_runOn_bind h
  obtain ⟨_, _, -, h⟩ := of_runOn_bind h
  rw [JoinPlan.build_eq] at h
  obtain ⟨_, _, -, h⟩ := of_runOn_bind h
  obtain ⟨_, _, -, h⟩ := of_runOn_bind h
  cases h
  exact Gate.ofText_of_authorize hauthorize

end Names

/-! ## Dues -/

/-- What a step owes to the audit log; the details are given where the step alone decides on them. -/
structure Due where
  action : AuditAction
  requester : Requester
  database : String
  table : String
  details : Option String := none

/-- The row is the one that is owed: it tells the requester, and the table under its name in the catalog. -/
def Due.Asks (d : Due) (e : AuditEntry) : Prop :=
  ∃ t details, TableRef.ofText d.table = .ok t ∧ (∀ x, d.details = some x → details = x) ∧
    e = d.requester.auditEntry d.action d.database t details

/-- What an order that succeeds owes. -/
def Order.due? {σ : Type} (s : Service σ) (r : Requester) : Order → Option Due
  | .rows q _ => some ⟨.viewData, r, q.database, q.table, none⟩
  | .exportPage q _ => some ⟨.exportPage, r, q.database, q.table, none⟩
  | .block id _ => do
      let config ← (s.blockConfig r id).toOption
      let source ← config.source?
      return ⟨.reportQuery, r, source.database, source.table, none⟩
  | _ => none

/-- What a download owes when it is drained, if it is a full export that has not been drained before. -/
def Ticket.due? {σ : Type} (t : Ticket σ) : Option Due :=
  match t.order, t.stream with
  | .exportAll q, .cursor _ _ => some ⟨.exportAll, t.requester, q.database, q.table,
      some ("Exported all " ++ toString t.rows ++ " rows; filters: " ++ describeFilters q.filters)⟩
  | _, _ => none

/-- What a step owes, if it succeeds, or if it drains a download. -/
def Floor.due? {σ : Type} [Server σ] (F : Floor σ) (a : Step) : Option Due :=
  match a, (F.step a).1 with
  | .order r o, .ok _ => o.due? F.service r
  | .next i, .ok .ended => F.downloads[i]?.bind Ticket.due?
  | _, _ => none

/-- What each step owes, on the floor that the steps before it have left. -/
def Floor.dues {σ : Type} [Server σ] : Floor σ → List Step → List (Option Due)
  | _, [] => []
  | F, a :: steps => F.due? a :: dues (F.step a).2 steps

/-! ## Orders -/

section Orders

variable {σ α β : Type} [Server σ]

/-- What does nothing but read databases in blocks of their own. -/
inductive Exchange.Reads : {α : Type} → Exchange σ α → Prop
  | lift {α : Type} (r : Result α) : Reads (Exchange.lift r)
  | usePool (name : String) : Reads (Exchange.usePool name)
  | block {α : Type} (name : String) (timeout : Value) {body : Connection → Exchange σ α} :
      IsDialogue body → Reads (readOnly name timeout body)
  | bind {α β : Type} {x : Exchange σ α} {k : α → Exchange σ β} : Reads x → (∀ a, Reads (k a)) → Reads (x >>= k)

theorem Exchange.reads_pure (a : α) : Reads (pure a : Exchange σ α) := .lift (.ok a)

/-- A row is filed after a computation, with an answer that was made before. -/
def recording (x : Exchange σ α) (entry : α → AuditEntry) (answer : α → β) : Exchange σ β := do
  let a ← x
  Audit.record (entry a)
  return answer a

/-- An order that owes nothing only reads; another one files what it owes after its block. -/
inductive Order.Conducted (s : Service σ) (r : Requester) (o : Order) : Prop
  | reads : Reads (o.run s r) → o.due? s r = none → Conducted s r o
  | files {α : Type} (name : String) (timeout : Value) {body : Connection → Exchange σ α} (entry : α → AuditEntry)
      (answer : α → Reaction × Option (TextStream σ)) {due : Due} : IsDialogue body →
      o.run s r = recording (readOnly name timeout body) entry answer → o.due? s r = some due →
      (∀ a l m, runOn (readOnly name timeout body) l = (.ok a, m) → due.Asks (entry a)) → Conducted s r o

namespace Order

variable (s : Service σ) (r : Requester)

theorem conducted_tables (database : String) : (tables database).Conducted s r := by
  refine .reads ?_ rfl
  have hlisted : Reads (s.browser.listTables r database : Exchange σ (List Value)) :=
    (Reads.block database s.browser.timeout Catalog.isDialogue_listTables).bind fun _ =>
      (Reads.lift _).bind fun _ => reads_pure _
  exact hlisted.bind fun _ => reads_pure _

theorem conducted_columns (database table : String) : (columns database table).Conducted s r :=
  .reads ((Reads.block database s.browser.timeout (s.browser.isDialogue_columns r database table)).bind
    fun _ => reads_pure _) rfl

theorem conducted_exportCheck (q : TableRequest) : (exportCheck q).Conducted s r := by
  refine .reads ?_ rfl
  have hchecked : Reads (s.browser.exportCheck r q : Exchange σ ExportCheck) :=
    (Reads.block q.database s.browser.timeout (s.browser.isDialogue_count r { q with sort := [] })).bind
      fun _ => .lift _
  exact hchecked.bind fun _ => reads_pure _

theorem conducted_exportAll (q : TableRequest) : (exportAll q).Conducted s r := by
  refine .reads ?_ rfl
  have hexported : Reads (s.browser.exportAll r q : Exchange σ (Download σ)) :=
    (Reads.block q.database s.browser.timeout (s.browser.isDialogue_count r q)).bind fun _ =>
      (Reads.lift _).bind fun _ => (Reads.usePool _).bind fun _ => (Reads.lift _).bind fun _ => reads_pure _
  exact hexported.bind fun _ => reads_pure _

theorem conducted_rows (q : TableRequest) (page : Value) : (rows q page).Conducted s r := by
  refine .files q.database s.browser.timeout
    (fun out => r.auditEntry .viewData q.database out.1.ref ("Viewed page " ++ toString out.2.number ++ " of " ++
      toString out.2.pages ++ " (" ++ toString out.2.rows.length ++ " rows); filters: " ++ describeFilters q.filters))
    (fun out => (.page out.2, none)) (s.browser.isDialogue_page r q page) ?_ rfl ?_
  · simp only [run, Browser.fetchRows, recording, bind_assoc]
    rfl
  · intro out l m h
    exact ⟨out.1.ref, _, Browser.ofText_of_fetchPage h, nofun, rfl⟩

theorem conducted_exportPage (q : TableRequest) (page : Value) : (exportPage q page).Conducted s r := by
  refine .files q.database s.browser.timeout
    (fun out => r.auditEntry .exportPage q.database out.1.ref ("Exported page " ++ toString out.2.number ++
      " (" ++ toString out.2.rows.length ++ " rows); filters: " ++ describeFilters q.filters))
    (fun out => (.download (out.1.ref.table.name ++ "_page" ++ toString out.2.number ++ ".csv"),
      some (.records out.1.columns false out.2.rows))) (s.browser.isDialogue_page r q page) ?_ rfl ?_
  · simp only [run, Browser.exportPage, recording, bind_assoc]
    rfl
  · intro out l m h
    exact ⟨out.1.ref, _, Browser.ofText_of_fetchPage h, nofun, rfl⟩

/-- A block that is asked of a database. -/
theorem conducted_runQuery {id : String} {page : Value} {config : BlockConfig} (hconfig : s.blockConfig r id = .ok config)
    {source : BlockSource} (hsource : config.source? = some source)
    {body : Connection → JoinPlan → Exchange σ BlockAnswer} (hbody : ∀ plan, IsDialogue fun c => body c plan)
    (hrun : s.reporter.run r config page = s.reporter.runQuery r source body) : (block id page).Conducted s r := by
  have hdue : (block id page).due? s r = some ⟨.reportQuery, r, source.database, source.table, none⟩ := by
    rw [due?, hconfig]
    show (config.source?).bind _ = _
    rw [hsource]
    rfl
  refine .files source.database s.reporter.timeout
    (fun out => r.auditEntry .reportQuery source.database out.1.main.ref (out.2.details ++ Reporter.joinNote source.join))
    (fun out => (.payload out.2.payload, none)) (s.reporter.isDialogue_query r source hbody) ?_ hdue ?_
  · simp only [run, Reporter.runBlock_eq, hconfig, recording]
    show (s.reporter.run r config page >>= fun v => pure (Reaction.payload v, none)) = _
    rw [hrun]
    simp only [Reporter.runQuery, bind_assoc]
    rfl
  · intro out l m h
    obtain ⟨c, k, n, h⟩ := body_of_readOnly h
    obtain ⟨plan, _, hplan, h⟩ := of_runOn_bind h
    obtain ⟨_, _, -, h⟩ := of_runOn_bind h
    cases h
    exact ⟨plan.main.ref, _, Reporter.ofText_of_plan hplan, nofun, rfl⟩

theorem conducted_block (id : String) (page : Value) : (block id page).Conducted s r := by
  cases hconfig : s.blockConfig r id with
  | error f =>
      refine .reads ?_ (by rw [due?, hconfig]; rfl)
      simp only [run, Reporter.runBlock_eq, hconfig]
      exact .lift (.error f)
  | ok config =>
      cases config with
      | text content =>
          refine .reads ?_ (by rw [due?, hconfig]; rfl)
          simp only [run, Reporter.runBlock_eq, hconfig]
          exact reads_pure _
      | table b =>
          exact conducted_runQuery s r hconfig rfl (fun plan => s.reporter.isDialogue_runTable plan b page) rfl
      | chart b => exact conducted_runQuery s r hconfig rfl (fun plan => Reporter.isDialogue_runChart plan b) rfl
      | metric b => exact conducted_runQuery s r hconfig rfl (fun plan => Reporter.isDialogue_runMetric plan b) rfl

theorem conducted (o : Order) : o.Conducted s r := by
  cases o with
  | tables database => exact conducted_tables s r database
  | columns database table => exact conducted_columns s r database table
  | rows q page => exact conducted_rows s r q page
  | exportCheck q => exact conducted_exportCheck s r q
  | exportPage q page => exact conducted_exportPage s r q page
  | exportAll q => exact conducted_exportAll s r q
  | block id page => exact conducted_block s r id page

end Order

end Orders

/-! ## Downloads -/

def Requester.exportAllEntry (r : Requester) (q : TableRequest) (t : TableRef) (rows : Nat) : AuditEntry :=
  r.auditEntry .exportAll q.database t ("Exported all " ++ toString rows ++ " rows; filters: " ++ describeFilters q.filters)

/-- A full export: at its end it files the row that is owed for it. -/
structure CursorExport.Exports {σ : Type} [Server σ] (e : CursorExport σ) (r : Requester) (q : TableRequest) (t : TableRef) :
    Prop where
  name : TableRef.ofText q.table = .ok t
  site : e.site = .browsed q.database
  completes : ∀ n, e.onComplete n = Audit.record (r.exportAllEntry q t n)

/-- What an order begins: a page in memory, or a full export. -/
inductive Order.Begins {σ : Type} [Server σ] (r : Requester) : Order → TextStream σ → Prop
  | page (o : Order) (columns : List Value) (rows : List Row) : Begins r o (.records columns false rows)
  | exportAll (q : TableRequest) (e : CursorExport σ) (t : TableRef) : e.Exports r q t →
      Begins r (.exportAll q) (.cursor e .waiting)

/-- Only exports begin a download. -/
theorem Order.begins {σ : Type} [Server σ] {s : Service σ} {r : Requester} {o : Order} {l m : Link σ} {answer : Reaction}
    {stream : TextStream σ} (h : runOn (o.run s r) l = (.ok (answer, some stream), m)) : o.Begins r stream := by
  cases o with
  | tables | columns | rows | exportCheck | block =>
      obtain ⟨_, _, -, h⟩ := of_runOn_bind h
      exact nomatch h
  | exportPage q page =>
      obtain ⟨download, _, hexport, h⟩ := of_runOn_bind h
      cases h
      obtain ⟨_, _, -, h⟩ := of_runOn_bind hexport
      obtain ⟨_, _, -, h⟩ := of_runOn_bind h
      cases h
      exact .page ..
  | exportAll q =>
      obtain ⟨download, _, hexport, h⟩ := of_runOn_bind h
      cases h
      obtain ⟨⟨prepared, total⟩, _, hcount, h⟩ := of_runOn_bind hexport
      obtain ⟨_, _, -, h⟩ := of_runOn_bind h
      obtain ⟨_, _, -, h⟩ := of_runOn_bind h
      obtain ⟨stream, _, hstream, h⟩ := of_runOn_bind h
      cases h
      obtain ⟨_, -, hsame⟩ := Result.of_bind_ok (of_runOn_lift hstream).1
      cases hsame
      exact .exportAll q _ prepared.ref ⟨Browser.ofText_of_prepareCount hcount, rfl, fun _ => rfl⟩

end TableSteward

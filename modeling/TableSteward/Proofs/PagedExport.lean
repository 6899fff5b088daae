import TableSteward.Proofs.ExportLimit
import TableSteward.Proofs.Paging
import TableSteward.Proofs.Rest

/-!
# The pages of a full export

While a database is at rest, a full export and the exports of the single pages agree: the text of the full export is
the header, once, and then the data lines of all the pages, in order.
-/
set_option autoImplicit false

namespace TableSteward

open Exchange

variable {σ : Type} [Server σ] {k : Contents}

/-- An audit row that cannot be written is let pass. -/
theorem Audit.runOn_record_ok (e : AuditEntry) (l : Link σ) : (runOn (Audit.record e) l).1 = .ok () := by
  rw [Audit.record, runOn_discard, runOn_attempt]
  rfl

/-! ## Counting and fetching -/

namespace Browser

variable (b : Browser) (r : Requester) (q : TableRequest) {prepared : Result Prepared} {milliseconds : Int}
  {l : Link (Journal σ)}

theorem settled_prepareCount
    (hprepared : ∀ c, Leaves (σ := σ) (b.prepare r c q) (Settled k prepared))
    (hpool : (runOn (usePool q.database) l).1 = .ok ()) (htimeout : b.timeout.toInteger = .ok milliseconds) :
    ∃ p : Footprint, p.Between l (runOn (b.prepareCount r q) l).2 ∧
      Settled k ((prepared >>= fun p => .ok (p, ((k.rows (.table p.query)).length : Int))).mapError
        (reported .readRows)) (runOn (b.prepareCount r q) l).1 p :=
  settled_readOnly hpool htimeout fun c =>
    settled_bind (hprepared c) fun p =>
      settled_bind (Page.settled_countRows c (.table p.query)) fun total => settled_pure (p, total)

theorem settled_fetchPage (page : Value)
    (hprepared : ∀ c, Leaves (σ := σ) (b.prepare r c q) (Settled k prepared))
    (hpool : (runOn (usePool q.database) l).1 = .ok ()) (htimeout : b.timeout.toInteger = .ok milliseconds) :
    ∃ p : Footprint, p.Between l (runOn (b.fetchPage r q page) l).2 ∧
      Settled k ((prepared >>= fun p => k.page (.table p.query) page b.pageSize >>= fun shown =>
        .ok (p, shown)).mapError (reported .readRows)) (runOn (b.fetchPage r q page) l).1 p :=
  settled_readOnly hpool htimeout fun c =>
    settled_bind (hprepared c) fun p =>
      settled_bind (Page.settled_fetch c (.table p.query) page b.pageSize) fun shown => settled_pure (p, shown)

/-- A full export that begins reads the query that was counted. -/
theorem of_exportAll {download : Download (Journal σ)} {n : Link (Journal σ)}
    (h : runOn (b.exportAll r q) l = (.ok download, n)) :
    ∃ p total m complete, runOn (b.prepareCount r q) l = (.ok (p, total), m) ∧ n.server = m.server ∧
      (∀ written, ∃ entry, complete written = Audit.record entry) ∧
      download.stream = .cursor
        ⟨.browsed q.database, .table p.query, p.columns, b.batchSize, complete⟩ .waiting := by
  obtain ⟨⟨p, total⟩, m, hcount, hcounted⟩ := of_runOn_bind h
  obtain ⟨_, m₁, henforce, henforced⟩ := of_runOn_bind hcounted
  obtain ⟨-, rfl⟩ := of_runOn_lift henforce
  obtain ⟨_, m₂, hpool, hpooled⟩ := of_runOn_bind henforced
  obtain ⟨stream, m₃, hstream, hstreamed⟩ := of_runOn_bind hpooled
  obtain ⟨hallowed, rfl⟩ := of_runOn_lift hstream
  cases hstreamed
  obtain ⟨_, -, hsame⟩ := Result.of_bind_ok hallowed
  cases hsame
  have hserver := (usePool_server q.database m₁).1
  rw [hpool] at hserver
  exact ⟨p, total, m₁, _, hcount, hserver, fun _ => ⟨_, rfl⟩, rfl⟩

end Browser

namespace Desk

variable (d : Desk) (r : Requester) (q : TableRequest) {prepared : Result Prepared}

/-- A full export that is complete is the sheet of the rows that the database holds for its cursor. -/
theorem exportAll_sheet (hprepared : ∀ c, Leaves (σ := σ) (d.browser.prepare r c q) (Settled k prepared))
    (hbatch : 1 ≤ d.batchSize) {patience : Nat} {l : Link σ} {name : String} {delivery : Delivery}
    (h : ((d.answer r (.exportAll q patience)).runOn l).1 = .ok (.download name delivery))
    (hcomplete : delivery.ending = .complete) (htells : k.Tells (d.journal r (.exportAll q patience) l)) :
    ∃ p milliseconds, prepared = .ok p ∧ d.timeout.toInteger = .ok milliseconds ∧
      (∃ c x, ⟨.execute c (.declareCursor (.table p.query)), some x⟩ ∈
        d.journal r (.exportAll q patience) l) ∧
      Csv.sheet p.columns (k.rows (.table p.query)) = .ok delivery.text := by
  rw [← (d.answer_journaled r (.exportAll q patience) l).1] at h
  unfold journal at htells ⊢
  rcases hrun : (d.answer r (.exportAll q patience)).runOn l.journaled with ⟨out, final⟩
  rw [hrun] at h htells
  obtain rfl : out = .ok (.download name delivery) := h
  obtain ⟨download, n, hexport, hrun⟩ := of_runOn_bind hrun
  obtain ⟨arrived, n', hreceive, hrun⟩ := of_runOn_bind hrun
  cases hrun
  obtain ⟨p, total, m, complete, hcount, hserver, haudit, hstream⟩ := d.browser.of_exportAll r q hexport
  obtain ⟨hpool, milliseconds, htimeout⟩ := readOnly_requires hcount
  obtain ⟨opening, hopening, hsettled⟩ := d.browser.settled_prepareCount r q hprepared hpool htimeout
  rw [hcount] at hopening hsettled
  rw [hstream] at hreceive
  obtain ⟨silent, m', streaming, -, hannounced, hstreaming, -, hexported⟩ :=
    CursorExport.receive_exported _ patience n
  rw [hreceive] at hannounced
  obtain ⟨rfl, hcompleted⟩ := CursorExport.of_announce_complete _ hannounced.symm hcomplete
  obtain ⟨entry, hentry⟩ := haudit silent.dataLines
  obtain ⟨closing, hclosing, -⟩ := Audit.quiet_record entry m'
  have hjournal : final.server.entries = (opening.calls ++ streaming.calls) ++ closing := by
    rw [← hentry, hcompleted] at hclosing
    rw [hclosing, hstreaming.calls, hserver, hopening.calls]
    rfl
  change k.Tells final.server.entries at htells
  rw [hjournal] at htells
  obtain ⟨c, x, hdeclared⟩ := hexported.declared hcomplete
  have hmem : ⟨.execute c (.declareCursor (.table p.query)), some x⟩ ∈ final.server.entries := by
    rw [hjournal]
    exact List.mem_append_left _ (List.mem_append_right _ hdeclared)
  have hsheet := hexported.sheet_of_tells hcomplete hbatch htells.of_append_left
  rcases hsettled htells.of_append_left.of_append_left.answers with hexpected | ⟨⟨f, hf⟩, -⟩
  · obtain ⟨p', hp, hsame⟩ := Result.of_bind_ok (Result.of_mapError_ok hexpected.symm)
    cases hsame
    exact ⟨p, milliseconds, hp, htimeout, ⟨c, x, hmem⟩, hsheet⟩
  · exact nomatch hf

/-- A page is fetched and put on record, and then its rows are delivered from memory. -/
theorem exportPage_eq (page : Value) (patience : Nat) :
    ∃ (entry : Prepared × Page → AuditEntry) (name : Prepared × Page → String),
      d.answer (σ := σ) r (.exportPage q page patience) =
        d.browser.fetchPage r q page >>= fun out => Audit.record (entry out) >>= fun _ =>
          TextStream.receive patience (.records out.1.columns false out.2.rows) >>= fun delivery =>
            pure (.download (name out) delivery) := by
  refine ⟨fun out => r.auditEntry .exportPage q.database out.1.ref <|
      "Exported page " ++ toString out.2.number ++ " (" ++ toString out.2.rows.length ++
        " rows); filters: " ++ describeFilters q.filters,
    fun out => out.1.ref.table.name ++ "_page" ++ toString out.2.number ++ ".csv", ?_⟩
  simp only [answer, deliver, Browser.exportPage, bind_assoc, pure_bind]

/-- What is asked for a page is all asked before its rows are delivered. -/
theorem fetchPage_prolonged (page : Value) (patience : Nat) (l : Link σ) :
    (runOn (d.browser.fetchPage r q page) l.journaled).2.server.entries <+:
      d.journal r (.exportPage q page patience) l := by
  obtain ⟨entry, name, hanswer⟩ := d.exportPage_eq (σ := Journal σ) r q page patience
  unfold journal
  rw [hanswer, runOn_bind]
  rcases runOn (d.browser.fetchPage r q page) l.journaled with ⟨f | out, m⟩
  · exact List.prefix_refl _
  · have hrecords : Quiet (TextStream.receive patience
        (.records out.1.columns false out.2.rows : TextStream (Journal σ))) :=
      quiet_of_server_eq fun l => congrArg Link.server (TextStream.runOn_receive_records _ patience _ _ l)
    have hquiet := (Audit.quiet_record (σ := σ) (entry out)).andThen fun _ => hrecords.andThen
      fun delivery => fetches_pure (a := Reply.download (name out) delivery) rfl
    exact hquiet.prolongs m

/-- The page that the contents show is delivered, unless a call fails. -/
theorem exportPage_delivers (hprepared : ∀ c, Leaves (σ := σ) (d.browser.prepare r c q) (Settled k prepared))
    {milliseconds : Int} (htimeout : d.timeout.toInteger = .ok milliseconds) {page : Value} {p : Prepared}
    {shown : Page} {header : String} {lines : List String} (hp : prepared = .ok p)
    (hshown : k.page (.table p.query) page d.pageSize = .ok shown)
    (hheader : Csv.header p.columns = .ok header)
    (hlines : shown.rows.mapM (Csv.rowLine p.columns) = .ok lines) {patience : Nat} {l : Link σ}
    (hpatience : lines.length + 1 < patience) (hpool : l.pools.has q.database = true)
    (hanswers : k.Answers (d.journal r (.exportPage q page patience) l))
    (hanswered : ∀ e ∈ d.journal r (.exportPage q page patience) l, e.answer ≠ none) :
    ∃ name, ((d.answer r (.exportPage q page patience)).runOn l).1 =
      .ok (.download name ⟨header :: lines, .complete⟩) := by
  obtain ⟨later, hjournal⟩ := d.fetchPage_prolonged r q page patience l
  obtain ⟨fetching, hfetching, hsettled⟩ := d.browser.settled_fetchPage (l := l.journaled) r q page
    hprepared (usePool_ok hpool) htimeout
  have hcalls : fetching.calls ++ later = d.journal r (.exportPage q page patience) l := by
    rw [← hjournal, hfetching.calls]
    rfl
  rw [← hcalls] at hanswers hanswered
  have hfetched : (runOn (d.browser.fetchPage r q page) l.journaled).1 = .ok (p, shown) := by
    rcases hsettled hanswers.of_append_left with hexpected | ⟨-, e, he, hfailed⟩
    · rw [hexpected, hp, Result.ok_bind]
      change (k.page (.table p.query) page d.pageSize >>= _).mapError _ = _
      rw [hshown]
      rfl
    · exact absurd hfailed (hanswered e (List.mem_append_left _ he))
  obtain ⟨entry, name, hanswer⟩ := d.exportPage_eq (σ := Journal σ) r q page patience
  refine ⟨name (p, shown), ?_⟩
  rw [← (d.answer_journaled r (.exportPage q page patience) l).1, hanswer, runOn_bind]
  rcases hfetch : runOn (d.browser.fetchPage r q page) l.journaled with ⟨out, m⟩
  rw [hfetch] at hfetched
  obtain rfl : out = .ok (p, shown) := hfetched
  dsimp only
  have hrecorded := Audit.runOn_record_ok (entry (p, shown)) m
  rw [runOn_bind]
  rcases hrecord : runOn (Audit.record (entry (p, shown))) m with ⟨out, m'⟩
  rw [hrecord] at hrecorded
  obtain rfl : out = .ok () := hrecorded
  dsimp only
  rw [runOn_bind, TextStream.receive_records hheader hlines hpatience]
  rfl

end Desk

/-- In the rows of a whole table, a value without a plain form stands under a column that the catalog lists. -/
def Contents.Tabular (k : Contents) : Prop :=
  ∀ (q : TableQuery) (columns : List Value), q.selection = .mainTable → q.plan.hops = [] →
    k.Lists q.plan.main.ref columns → ∀ row ∈ k.rows (.table q), row.Fits columns

/-- Whenever this page is exported, it has these data lines, unless a call fails: to a receiver who waits long enough,
over any link on which the database is configured and answers from its contents. -/
def Desk.PageDelivers (σ : Type) [Server σ] (d : Desk) (r : Requester) (q : TableRequest) (k : Contents)
    (number : Int) (header : String) (lines : List String) : Prop :=
  ∀ (patience : Nat) (l : Link σ), lines.length + 1 < patience → l.pools.has q.database = true →
    k.Answers (d.journal r (.exportPage q (.int number) patience) l) →
    (∀ e ∈ d.journal r (.exportPage q (.int number) patience) l, e.answer ≠ none) →
    ∃ name, ((d.answer r (.exportPage q (.int number) patience)).runOn l).1 =
      .ok (.download name ⟨header :: lines, .complete⟩)

/-- While the contents of a database stay as they are, the text of a complete full export is the header and then
the data lines of the pages that are exported one by one, from the first to the last.  The lines are the records of
the rows that the database holds for the cursor, so that none is lost, none comes twice and none reads differently. -/
theorem Desk.exportAll_eq_pages (d : Desk) (r : Requester) (q : TableRequest) (hk : k.Tabular)
    (hpageSize : 1 ≤ d.pageSize) (hbatchSize : 1 ≤ d.batchSize) (patience : Nat) (l : Link σ)
    (name : String) (delivery : Delivery)
    (h : ((d.answer r (.exportAll q patience)).runOn l).1 = .ok (.download name delivery))
    (hcomplete : delivery.ending = .complete) (hfew : delivery.dataLines < 2 ^ 53)
    (htells : k.Tells (d.journal r (.exportAll q patience) l)) :
    ∃ (header : String) (pages : List (List String)),
      Page.count (.int pages.flatten.length) (.int d.pageSize) = .ok pages.length ∧
      delivery.text = header ++ String.join pages.flatten ∧
      (∃ query columns c x, ⟨.execute c (.declareCursor query), some x⟩ ∈
          d.journal r (.exportAll q patience) l ∧
        Csv.header columns = .ok header ∧
        (k.rows query).mapM (Csv.rowLine columns) = .ok pages.flatten) ∧
      ∀ (i : Nat) (lines : List String), pages[i]? = some lines →
        d.PageDelivers σ r q k ((i : Int) + 1) header lines := by
  obtain ⟨prepared, hfrom, hprepared⟩ := d.browser.determines_prepare (σ := σ) (k := k) r q
  obtain ⟨p, milliseconds, hp, htimeout, ⟨c, x, hdeclared⟩, hsheet⟩ :=
    d.exportAll_sheet r q hprepared hbatchSize h hcomplete htells
  obtain ⟨hselection, hhops, hlisted⟩ := hfrom p hp
  have hfits := hk p.query p.columns hselection hhops hlisted
  obtain ⟨header, body, hheader, hbody, htext⟩ := Csv.of_sheet hsheet
  obtain ⟨lines, hlines, hjoin⟩ := Result.of_bind_ok hbody
  cases hjoin
  have hlength : (k.rows (.table p.query)).length = lines.length :=
    (Result.forall₂_of_mapM_ok hlines).length_eq
  have hrows : delivery.dataLines = lines.length := by
    rw [Delivery.dataLines, Csv.records_sheet hsheet, hlength, Nat.add_sub_cancel]
  obtain ⟨size, hsize⟩ : ∃ size : Nat, d.pageSize = size := ⟨_, (Int.toNat_of_nonneg (by omega)).symm⟩
  have hpositive : 0 < size := by omega
  rw [hrows] at hfew
  have hcount := Page.count_eq hpositive hfew
  have hroom := Page.le_count (n := lines.length) hpositive
  generalize hnumber : max 1 ((lines.length + size - 1) / size) = number at hroom
  have hpages : Page.count (.int lines.length) (.int size) = .ok number := by
    rw [hcount, ← hnumber, Nat.cast_max, Nat.cast_one]
  have hflatten := Page.flatten_cut_eq hroom
  refine ⟨header, Page.cut size number lines, ?_, ?_,
    ⟨.table p.query, p.columns, c, x, hdeclared, hheader, ?_⟩, ?_⟩
  · rw [hflatten, Page.length_cut, hsize]
    exact hpages
  · rw [hflatten]
    exact htext
  · rw [hflatten]
    exact hlines
  · intro i page hpage patience' _ hpatience hpool hanswers hanswered
    obtain ⟨hi, rfl⟩ := Page.of_getElem_cut hpage
    rw [← hlength] at hpages
    obtain ⟨shown, hshown, hshownLines⟩ := Contents.page_eq hpages hi hlines hfits
    rw [← hsize] at hshown
    exact d.exportPage_delivers r q hprepared htimeout hp hshown hheader hshownLines hpatience hpool
      hanswers hanswered

/-! ## A table on two pages -/

namespace Ledger

def contents : Contents where
  found _ := [[("table_name", .text "t")]]
  columns _ := [[("column_name", .text "id")], [("column_name", .text "note")]]
  primaryKey _ := [[("column_name", .text "id")]]
  rows _ := [[("id", .int 1), ("note", .text "a, b")], [("id", .int 2), ("note", .null)],
    [("id", .int 3), ("note", .bool true)]]

def link : Link Still := ⟨⟨contents, []⟩, 0, [], ⟨[("Prod", "postgresql://prod")], {}, []⟩⟩

def desk : Desk where
  policy := ⟨[(.text "analyst", ⟨.text "analyst", .standard, 100, false⟩)], 100, 100⟩
  settings := {}
  blocks := {}
  pageSize := 2
  batchSize := 2
  timeout := .int 30000

def analyst : Requester := ⟨⟨"2", .text "a@example.com", .text "analyst", true⟩, [], .null⟩

def request : TableRequest := ⟨"Prod", "t", [], []⟩

theorem tabular : contents.Tabular := by
  intro q columns _ _ _ row hrow
  have hplain : (contents.rows (.table q)).all
      (fun row => row.all fun entry => entry.2.plain?.isSome) = true := rfl
  exact Row.fits_of_all_plain (List.all_eq_true.mp hplain row hrow) columns

theorem exportAll_outcome :
    ((desk.answer analyst (.exportAll request 10)).runOn link).1 =
      .ok (.download "t_export.csv" ⟨["id,note\n", "1,\"a, b\"\n2,\n", "3,true\n"], .complete⟩) :=
  Reply.eq_of_delivery? (by decide +kernel)

theorem dataLines_eq :
    Delivery.dataLines ⟨["id,note\n", "1,\"a, b\"\n2,\n", "3,true\n"], .complete⟩ = 3 := by decide +kernel

/-- Both exports of a table of three rows, on one page of two and on one of the last. -/
theorem exportAll_eq_two_pages :
    ∃ (header : String) (pages : List (List String)),
      Page.count (.int pages.flatten.length) (.int 2) = .ok pages.length ∧
      "id,note\n1,\"a, b\"\n2,\n3,true\n" = header ++ String.join pages.flatten ∧
      ∀ (i : Nat) (lines : List String), pages[i]? = some lines →
        ∃ name, ((desk.answer analyst
          (.exportPage request (.int ((i : Int) + 1)) (lines.length + 2))).runOn link).1 =
            .ok (.download name ⟨header :: lines, .complete⟩) := by
  have hrests := fun q => Still.rests_journal desk analyst q link rfl
  obtain ⟨header, pages, hcount, htext, -, hpages⟩ :=
    desk.exportAll_eq_pages analyst request tabular (by decide) (by decide) 10 link _ _ exportAll_outcome rfl
      (by rw [dataLines_eq]; decide) (hrests _).tells
  refine ⟨header, pages, hcount, htext, ?_⟩
  intro i lines hlines
  exact hpages i lines hlines (lines.length + 2) link (Nat.lt_succ_self _) (by decide)
    (hrests _).tells.answers (hrests _).answered

end Ledger

end TableSteward

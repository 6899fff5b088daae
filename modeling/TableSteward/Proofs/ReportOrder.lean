import TableSteward.Proofs.JoinedRows
import TableSteward.Proofs.Rest
import TableSteward.Proofs.ValueBlindness

/-!
# The order of report pages

The pages of a table block are ordered by the column that the block sorts by and by the primary key of its main table.
Two rows of a page tie just if they show the same main row and agree in that column.  Whatever order the database
chooses among rows that tie, every page shows the same main rows; if each join is on a unique column no rows tie, and
the pages are the same from one request to the next.
-/
set_option autoImplicit false

namespace TableSteward

open Exchange

/-- A page is asked for in the order that the block sorts by, with the key that the catalog lists as tie-breaker. -/
def TableBlock.Orders (b : TableBlock) (js : List Entry) : Statement → Prop
  | .page (.table q) _ => ∃ key ties, ListsKey js b.source.database q.plan.main.ref key ∧
      JoinPlan.defaultOrder key = .ok ties ∧ orderTerms b.order.toList q.plan.resolve ties = .ok q.order
  | _ => True

theorem TableBlock.Orders.mono {b : TableBlock} {js js' : List Entry} {s : Statement} (hjs : js ⊆ js')
    (h : b.Orders js s) : b.Orders js' s := by
  unfold Orders at h ⊢
  split at h
  · obtain ⟨key, ties, ⟨rows, ⟨c, hc, hanswered⟩, hkey⟩, hties, horder⟩ := h
    exact ⟨key, ties, ⟨rows, ⟨c, hc, hjs hanswered⟩, hkey⟩, hties, horder⟩
  · trivial

namespace Exchange

variable {σ α β : Type} {b : TableBlock}

/-! ## Queries as a block orders them -/

/-- What a computation leaves behind, together with what it sends. -/
theorem Leaves.sending {C : Result α → Footprint → Prop} {D : Result α → List Statement → Prop}
    {x : Exchange (Journal σ) α} (hx : Leaves x C) (hsends : Sends x D) :
    Leaves x fun r p => C r p ∧ D r (queries p.calls) := by
  intro l
  obtain ⟨p, hp, hvalue⟩ := hx l
  obtain ⟨sent, hsent, hvalue'⟩ := hsends l
  rw [hp.calls, queries_append, List.append_cancel_left_eq] at hsent
  exact ⟨p, hp, hvalue, hsent ▸ hvalue'⟩

/-- If nothing has been sent before, all that is sent is in the order of the block. -/
def Heeds (b : TableBlock) (x : Exchange (Journal σ) α) : Prop :=
  ∀ l, queries l.server.entries = [] →
    ∀ s ∈ queries (x.runOn l).2.server.entries, b.Orders (x.runOn l).2.server.entries s

theorem Silent.queries_eq {x : Exchange (Journal σ) α} (hx : Silent x) {l : Link (Journal σ)}
    (hl : queries l.server.entries = []) : queries (x.runOn l).2.server.entries = [] := by
  obtain ⟨sent, hsent, rfl⟩ := hx l
  rw [hsent, hl, List.append_nil]

theorem Silent.heeds {x : Exchange (Journal σ) α} (hx : Silent x) : Heeds b x := by
  intro l hl s hs
  rw [hx.queries_eq hl] at hs
  cases hs

theorem Leaves.heeds {x : Exchange (Journal σ) α}
    (hx : Leaves x fun _ p => ∀ s ∈ queries p.calls, b.Orders p.calls s) : Heeds b x := by
  intro l hl s hs
  obtain ⟨p, hp, horders⟩ := hx l
  rw [hp.calls, queries_append, hl, List.nil_append] at hs
  rw [hp.calls]
  exact (horders s hs).mono (List.subset_append_right ..)

theorem leaves_lift_bind {C : Result β → Footprint → Prop} {r : Result α} {k : α → Exchange (Journal σ) β}
    (herror : ∀ f, C (.error f) {}) (hk : ∀ a, r = .ok a → Leaves (k a) C) : Leaves (lift r >>= k) C := by
  cases r with
  | ok a => exact hk a rfl
  | error f => exact leaves_throw (herror f)

theorem Silent.before {x : Exchange (Journal σ) α} {k : α → Exchange (Journal σ) β} (hx : Silent x)
    (hk : ∀ a, Heeds b (k a)) : Heeds b (x >>= k) := by
  intro l hl
  have hfirst := hx.heeds (b := b) l hl
  have hnone := hx.queries_eq hl
  rw [runOn_bind]
  rcases hrun : x.runOn l with ⟨f | a, m⟩
  · rw [hrun] at hfirst
    exact hfirst
  · rw [hrun] at hnone
    exact hk a m hnone

/-- What sends nothing, and takes no entry of the journal back, may come afterwards. -/
theorem Heeds.andThen {x : Exchange (Journal σ) α} {k : α → Exchange (Journal σ) β} (hx : Heeds b x)
    (hsilent : ∀ a, Silent (k a)) (hquiet : ∀ a, Quiet (k a)) : Heeds b (x >>= k) := by
  intro l hl
  have hfirst := hx l hl
  rw [runOn_bind]
  rcases hrun : x.runOn l with ⟨f | a, m⟩
  · rw [hrun] at hfirst
    exact hfirst
  · rw [hrun] at hfirst
    intro s hs
    obtain ⟨sent, hsent, rfl⟩ := hsilent a m
    rw [hsent, List.append_nil] at hs
    exact (hfirst s hs).mono ((hquiet a).prolongs m).subset

theorem heeds_attempt {x : Exchange (Journal σ) α} (hx : Heeds b x) : Heeds b (attempt x) := by
  intro l
  rw [runOn_attempt]
  exact hx l

theorem heeds_reporting (task : FailedTask) {x : Exchange (Journal σ) α} (hx : Heeds b x) :
    Heeds b (reporting task x) := by
  intro l
  rw [runOn_reporting]
  exact hx l

section Calls

variable [Server σ]

theorem heeds_onConnection {site : Site} {body : Connection → Exchange (Journal σ) α}
    (hbody : ∀ c : Connection, c.site = site → Heeds b (body c)) : Heeds b (onConnection site body) := by
  intro l hl
  obtain ⟨p, -, c, hc, hcalled⟩ := leaves_connect site l
  have hnone := (silent_connect site).queries_eq hl
  have hfirst := (silent_connect site).heeds (b := b) l hl
  unfold onConnection
  rw [runOn_bind]
  rcases hrun : (connect site).runOn l with ⟨f | d, m⟩
  · rw [hrun] at hfirst
    exact hfirst
  · rw [hrun] at hcalled hnone
    cases hcalled
    refine ((heeds_attempt (hbody c hc)).andThen (fun outcome => ?_) fun outcome => ?_) m hnone
    · exact (silent_close c).andThen fun _ => silent_lift outcome
    · exact (quiet_note _).andThen fun _ => fetches_lift outcome rfl

theorem heeds_inTransaction {c : Connection} {body : Exchange (Journal σ) α} (hbody : Heeds b body) :
    Heeds b (inTransaction c body) := by
  unfold inTransaction
  refine (silent_begin c).before fun _ => ?_
  apply (heeds_attempt hbody).andThen
  · intro outcome
    cases outcome with
    | ok a => exact (silent_commit c).andThen fun _ => silent_pure a
    | error f => exact (silent_rollback c).andThen fun _ => silent_lift (.error f)
  · intro outcome
    cases outcome with
    | ok a => exact (quiet_commit c).andThen fun _ => fetches_pure rfl
    | error f => exact (quiet_rollback c).andThen fun _ => fetches_throw rfl

theorem heeds_readOnly {name : String} {timeout : Value} {body : Connection → Exchange (Journal σ) α}
    (hbody : ∀ c : Connection, c.site = .browsed name → Heeds b (body c)) :
    Heeds b (readOnly name timeout body) := by
  unfold readOnly
  apply (silent_usePool name).before
  intro _
  apply (silent_lift _).before
  intro milliseconds
  apply heeds_reporting
  apply heeds_onConnection
  intro c hc
  apply heeds_inTransaction
  apply (silent_discard (silent_execute c rfl)).before
  intro _
  apply (silent_discard (silent_execute c rfl)).before
  exact fun _ => hbody c hc

end Calls

end Exchange

/-! ## Table blocks -/

theorem Page.leaves_fetch {σ : Type} [Server σ] (c : Connection) (q : Query) (page : Value) (size : Int) :
    Leaves (σ := σ) (fetch c q page size) fun _ p => ∀ s ∈ queries p.calls, s = .count q ∨ ∃ w, s = .page q w := by
  -- Any contents will do, since only what is sent matters.
  let k : Contents := ⟨fun _ => [], fun _ => [], fun _ => [], fun _ => []⟩
  refine ((settled_fetch (k := k) c q page size).sending (sends_fetch c q page size)).weaken ?_
  rintro r p ⟨-, script, ⟨w, rfl⟩, hsent, -⟩ s hs
  have hs := hsent.subset hs
  simp only [List.mem_cons, List.not_mem_nil, or_false] at hs
  exact hs.imp id fun h => ⟨w, h⟩

namespace Reporter

variable {σ : Type} [Server σ] {b : TableBlock}

/-- A page of the query may be asked for once the key of its main table has been listed. -/
theorem leaves_tableQuery {c : Connection} (hc : c.site = .browsed b.source.database) (plan : JoinPlan) :
    Leaves (σ := σ) (tableQuery c plan b) fun r p => ∀ q, r = .ok q → ∀ w, b.Orders p.calls (.page (.table q) w) := by
  unfold tableQuery defaultOrder Catalog.primaryKey
  simp only [bind_assoc]
  apply leaves_lift_bind fun _ _ h => nomatch h
  intro items _
  apply leaves_lift_bind fun _ _ h => nomatch h
  intro conditions _
  apply (leaves_execute c (.primaryKey plan.main.ref)).bind
  · intro rows p hcalled
    cases hcalled
    apply leaves_lift_bind fun _ _ h => nomatch h
    intro key hkey
    apply leaves_lift_bind fun _ _ h => nomatch h
    intro ties hties
    apply leaves_lift_bind fun _ _ h => nomatch h
    intro order horder
    apply leaves_pure
    intro q hq w
    cases hq
    exact ⟨key, ties, ⟨_, ⟨c, hc, by simp⟩, hkey⟩, hties, horder⟩
  · exact fun f p _ q hq => nomatch hq

theorem leaves_runTable (p : Reporter) {c : Connection} (hc : c.site = .browsed b.source.database)
    (plan : JoinPlan) (page : Value) :
    Leaves (σ := σ) (p.runTable c plan b page) fun _ p => ∀ s ∈ queries p.calls, b.Orders p.calls s := by
  rw [runTable_eq]
  apply ((leaves_tableQuery hc plan).sending (silent_tableQuery c plan b)).bind
  · intro query p₁ hquery
    obtain ⟨horders, hsilent⟩ := hquery
    have hfetched : ∀ p₂ : Footprint,
        (∀ s ∈ queries p₂.calls, s = .count (.table query) ∨ ∃ w, s = .page (.table query) w) →
        ∀ s ∈ queries (p₁ ++ p₂).calls, b.Orders (p₁ ++ p₂).calls s := by
      intro p₂ hsent s hs
      rw [Footprint.calls_append, queries_append, hsilent, List.nil_append] at hs
      rcases hsent s hs with rfl | ⟨w, rfl⟩
      · trivial
      · exact (horders query rfl w).mono (List.subset_append_left ..)
    apply (Page.leaves_fetch c _ page _).bind
    · intro page p₂ hsent
      apply leaves_pure
      rw [Footprint.append_empty]
      exact hfetched p₂ hsent
    · exact fun _ p₂ hsent => hfetched p₂ hsent
  · intro f p₁ hquery s hs
    rw [hquery.2] at hs
    cases hs

theorem heeds_run (p : Reporter) (r : Requester) (page : Value) :
    Heeds b (p.run (σ := Journal σ) r (.table b) page) := by
  unfold run runQuery
  apply Heeds.andThen
  · apply heeds_readOnly
    intro c hc
    apply (p.silent_plan r c b.source).before
    intro plan
    exact (p.leaves_runTable hc plan page).heeds.andThen (fun _ => silent_pure _) fun _ => fetches_pure rfl
  · exact fun _ => (Audit.silent_record _).andThen fun _ => silent_pure _
  · exact fun _ => (Audit.quiet_record _).andThen fun _ => fetches_pure rfl

end Reporter

namespace Desk

variable {σ : Type} [Server σ]

/-- Every page of a table block is asked for in the order of the block. -/
theorem orders_of_page (d : Desk) (r : Requester) {id : String} {b : TableBlock}
    (hblock : d.config? r id = some (.table b)) (page : Value) (l : Link σ) {e : Entry}
    (he : e ∈ d.journal r (.block id page) l) {c : Connection} {q : TableQuery} {w : Window}
    (hcall : e.call = .execute c (.page (.table q) w)) :
    b.Orders (d.journal r (.block id page) l) (.page (.table q) w) := by
  have hheeds : Heeds b (d.answer (σ := Journal σ) r (.block id page)) := by
    obtain ⟨f, hnone, -⟩ | ⟨config, hconfig, hrun⟩ := d.runBlock_cases (σ := Journal σ) r id page
    · exact nomatch hblock.symm.trans hnone
    · obtain rfl : config = .table b := Option.some.inj (hconfig.symm.trans hblock)
      change Heeds b (d.reporter.runBlock d.blocks r id page >>= fun v => pure (Reply.payload v))
      rw [hrun]
      exact (d.reporter.heeds_run r page).andThen (fun _ => silent_pure _) fun _ => fetches_pure rfl
  apply hheeds l.journaled rfl
  apply List.mem_filterMap.mpr
  refine ⟨e, he, ?_⟩
  simp [Entry.query?, hcall, Statement.isData]

theorem wellFormed_of_page (d : Desk) (r : Requester) {id : String} {b : TableBlock}
    (hblock : d.config? r id = some (.table b)) (page : Value) (l : Link σ) {e : Entry}
    (he : e ∈ d.journal r (.block id page) l) {c : Connection} {q : TableQuery} {w : Window}
    (hcall : e.call = .execute c (.page (.table q) w)) : q.plan.WellFormed := by
  have herrand : d.errand? r (.block id page) = some (d.reporter.errand r b.source) := by
    simp [errand?, hblock, BlockConfig.source?]
  obtain ⟨earlier, later, hsplit⟩ := List.append_of_mem he
  have hallows := d.accounted_journal r herrand l earlier e later c _ hsplit hcall rfl
  obtain ⟨p, key, hgrounds, -, rfl, -⟩ := hallows.data rfl
  exact hgrounds.wellFormed

theorem tie_of_page (d : Desk) (r : Requester) {id : String} {b : TableBlock}
    (hblock : d.config? r id = some (.table b)) (page : Value) (l : Link σ) {st : Storage}
    (hkeys : ∀ t key, ListsKey (d.journal r (.block id page) l) b.source.database t key → st.Keyed t key)
    {e : Entry} (he : e ∈ d.journal r (.block id page) l) {c : Connection} {q : TableQuery} {w : Window}
    (hcall : e.call = .execute c (.page (.table q) w)) {m m' : Combination} (hm : m ∈ st.combinations q.plan)
    (hm' : m' ∈ st.combinations q.plan) :
    st.compareRows q.order m m' = .eq ↔ m .main = m' .main ∧
      ∀ s ∈ b.order, ∃ e, q.plan.resolve s.column = .ok e ∧ st.order (m.cell e) (m'.cell e) = .eq := by
  have hp := d.wellFormed_of_page r hblock page l he hcall
  obtain ⟨key, ties, hkey, hties, horder⟩ := d.orders_of_page r hblock page l he hcall
  have htie := Storage.compareRows_eq_iff_main hp (hkeys _ _ hkey) hties horder hm hm'
  simpa using htie

/-- Rows of a table block tie on a page just if they have the same main row and agree in the column that the block
sorts by.  So the main rows of a page are determined, whatever order the database chooses among rows that tie, and with
joins on unique columns all rows of the page are. -/
theorem pages_tie_by_main_row (d : Desk) (r : Requester) {id : String} {b : TableBlock}
    (hblock : d.config? r id = some (.table b)) (page : Value) (l : Link σ) (st : Storage)
    (hkeys : ∀ t key, ListsKey (d.journal r (.block id page) l) b.source.database t key → st.Keyed t key) :
    ∀ e ∈ d.journal r (.block id page) l, ∀ c q w, e.call = .execute c (.page (.table q) w) →
      (∀ m ∈ st.combinations q.plan, ∀ m' ∈ st.combinations q.plan,
        st.compareRows q.order m m' = .eq ↔ m .main = m' .main ∧
          ∀ s ∈ b.order, ∃ e, q.plan.resolve s.column = .ok e ∧ st.order (m.cell e) (m'.cell e) = .eq) ∧
      ∀ rows xs ys, rows ⊆ st.combinations q.plan → st.Arranges q.order rows xs → st.Arranges q.order rows ys →
        xs.map (· .main) = ys.map (· .main) ∧
          ((∀ h ∈ q.plan.hops, st.Unique h.table.ref h.target.column.name) → xs = ys) := by
  intro e he c q w hcall
  have htie : ∀ m ∈ st.combinations q.plan, ∀ m' ∈ st.combinations q.plan, _ :=
    fun m hm m' hm' => d.tie_of_page r hblock page l hkeys he hcall hm hm'
  refine ⟨htie, ?_⟩
  intro rows xs ys hrows hxs hys
  have hmain : ∀ m ∈ rows, ∀ m' ∈ rows, st.compareRows q.order m m' = .eq → m .main = m' .main :=
    fun m hm m' hm' h => ((htie m (hrows hm) m' (hrows hm')).mp h).1
  constructor
  · exact hxs.map_eq hys hmain
  · intro hunique
    have hlone := Storage.lone_combinations (d.wellFormed_of_page r hblock page l he hcall) hunique
    have hsame : xs.map (fun m => m) = ys.map (fun m => m) :=
      hxs.map_eq hys fun m hm m' hm' h => hlone m (hrows hm) m' (hrows hm') (hmain m hm m' hm' h)
    simpa using hsame

end Desk

/-! ## Orders with several lines -/

namespace OrderLines

def contents : Contents where
  found t := [[("table_name", .text t.table.name)]]
  columns t :=
    if t.table.name = "orders" then [[("column_name", .text "id")]]
    else [[("column_name", .text "id")], [("column_name", .text "order_id")]]
  primaryKey _ := [[("column_name", .text "id")]]
  rows _ := [[("id", .int 1), ("joined_id", .int 1)], [("id", .int 1), ("joined_id", .int 2)]]

def link : Link Still := ⟨⟨contents, []⟩, 0, [], ⟨[("Prod", "postgresql://prod")], {}, []⟩⟩

def join : JoinSpec := .mk "lines" ["id", "order_id"] "left" none

def block : TableBlock := ⟨⟨"Prod", "orders", [], some join⟩, ["id", "joined.id"], none⟩

def desk : Desk where
  policy := ⟨[(.text "analyst", ⟨.text "analyst", .standard, 100, false⟩)], 100, 100⟩
  settings := {}
  blocks := ⟨[("b1", ⟨"b1", "2", "table", none, [("database", .text "Prod"), ("table", .text "orders"),
    ("columns", .texts ["id", "joined.id"]), ("join", join.toValue)]⟩)]⟩
  pageSize := 1
  batchSize := 10
  timeout := .int 30000

def analyst : Requester := ⟨⟨"2", .text "a@example.com", .text "analyst", true⟩, [], .null⟩

/-- Whole numbers by their size, before all that is none. -/
def order : Value → Value → Ordering :=
  compareLex (compareOn fun | .int _ => 0 | _ => 1) (compareOn fun | .int n => n | _ => 0)

/-- One order with two lines. -/
def storage : Storage where
  rows t :=
    if t.table.name = "orders" then [⟨0, [("id", .int 1)]⟩]
    else [⟨0, [("id", .int 1), ("order_id", .int 1)]⟩, ⟨1, [("id", .int 2), ("order_id", .int 1)]⟩]
  order := order
  trans := inferInstanceAs (Std.TransCmp (compareLex _ _))
  placed := by
    intro t
    split
    · decide
    · decide

theorem config_eq : desk.config? analyst "b1" = some (.table block) := by rfl

theorem keyed (t : TableRef) : storage.Keyed t [.text "id"] := by
  have hrows : storage.rows t = [⟨0, [("id", .int 1)]⟩] ∨ storage.rows t =
      [⟨0, [("id", .int 1), ("order_id", .int 1)]⟩, ⟨1, [("id", .int 2), ("order_id", .int 1)]⟩] := by
    dsimp only [storage]
    split
    · exact .inl rfl
    · exact .inr rfl
  constructor
  · intro row hrow name hname
    obtain rfl : name = "id" := by simpa using hname
    rcases hrows with h | h
    · rw [h] at hrow
      obtain rfl := List.mem_singleton.mp hrow
      rfl
    · rw [h] at hrow
      simp only [List.mem_cons, List.not_mem_nil, or_false] at hrow
      rcases hrow with rfl | rfl <;> rfl
  · intro row hrow row' hrow' hsame _
    have hsame := hsame "id" (List.mem_singleton_self _)
    rcases hrows with h | h
    · rw [h, List.mem_singleton] at hrow hrow'
      rw [hrow, hrow']
    · rw [h] at hrow hrow'
      simp only [List.mem_cons, List.not_mem_nil, or_false] at hrow hrow'
      rcases hrow with rfl | rfl <;> rcases hrow' with rfl | rfl <;>
        first
          | rfl
          | exact absurd hsame (by decide)

/-- The database lists the keys that its tables have. -/
theorem keyed_of_listed (t : TableRef) (key : List Value)
    (h : ListsKey (desk.journal analyst (.block "b1" .null) link) "Prod" t key) : storage.Keyed t key := by
  obtain ⟨rows, ⟨c, -, hanswered⟩, hkey⟩ := h
  have htells := (Still.rests_journal desk analyst (.block "b1" .null) link rfl).tells
  obtain rfl := htells.answers _ hanswered c _ rows _ rfl rfl
  cases hkey
  exact keyed t

def showsTie (e : Entry) : Bool :=
  match e.call with
  | .execute _ (.page (.table q) _) =>
      (storage.combinations q.plan).any fun m => (storage.combinations q.plan).any fun m' =>
        (m .joined).map StoredRow.place != (m' .joined).map StoredRow.place && storage.compareRows q.order m m' == .eq
  | _ => false

theorem any_showsTie : (desk.journal analyst (.block "b1" .null) link).any showsTie = true := by decide +kernel

theorem of_showsTie {e : Entry} (h : showsTie e = true) : ∃ c q w, e.call = .execute c (.page (.table q) w) ∧
    ∃ m ∈ storage.combinations q.plan, ∃ m' ∈ storage.combinations q.plan, m ≠ m' ∧
      storage.compareRows q.order m m' = .eq := by
  unfold showsTie at h
  split at h
  · rename_i c q w hcall
    obtain ⟨m, hm, h⟩ := List.any_eq_true.mp h
    obtain ⟨m', hm', h⟩ := List.any_eq_true.mp h
    simp only [Bool.and_eq_true, bne_iff_ne, beq_iff_eq] at h
    exact ⟨c, q, w, hcall, m, hm, m', hm', fun hsame => h.1 (by rw [hsame]), h.2⟩
  · cases h

/-- Keys are unique and never null, and yet two lines of the order tie on the page. -/
theorem lines_of_one_order_tie :
    (∀ t key, ListsKey (desk.journal analyst (.block "b1" .null) link) "Prod" t key → storage.Keyed t key) ∧
      ∃ e ∈ desk.journal analyst (.block "b1" .null) link, ∃ c q w, e.call = .execute c (.page (.table q) w) ∧
        ∃ m ∈ storage.combinations q.plan, ∃ m' ∈ storage.combinations q.plan, m ≠ m' ∧
          storage.compareRows q.order m m' = .eq := by
  obtain ⟨e, he, htie⟩ := List.any_eq_true.mp any_showsTie
  exact ⟨keyed_of_listed, e, he, of_showsTie htie⟩

/-- The page shows lines of the order, and all that tie are of one order. -/
theorem lines_tie_by_order :
    ∃ e ∈ desk.journal analyst (.block "b1" .null) link, ∃ c q w, e.call = .execute c (.page (.table q) w) ∧
      ∀ m ∈ storage.combinations q.plan, ∀ m' ∈ storage.combinations q.plan,
        storage.compareRows q.order m m' = .eq ↔ m .main = m' .main := by
  obtain ⟨e, he, htie⟩ := List.any_eq_true.mp any_showsTie
  obtain ⟨c, q, w, hcall, -⟩ := of_showsTie htie
  refine ⟨e, he, c, q, w, hcall, ?_⟩
  intro m hm m' hm'
  have hpages := desk.pages_tie_by_main_row analyst config_eq .null link storage keyed_of_listed e he c q w hcall
  simpa [block] using hpages.1 m hm m' hm'

end OrderLines

end TableSteward

import TableSteward.Proofs.Execution

/-!
# What a request answers

Downloads are followed chunk by chunk, however long their receivers wait, and with them every request is:
`Desk.keeps_answer` for the requests that have an errand, `Desk.keeps_answer_without_errand` for the others.
-/
set_option autoImplicit false

namespace TableSteward

open Exchange

variable {σ τ : Type} [Server σ] [Server τ] {w : Errand} {js : List Entry} {c : Connection}

/-! ## Cursors -/

namespace CursorExport

section Parts

variable {A : Account} {g : Gate} {P : Pairing σ τ A g}

theorem keeps_abandon (c : Connection) (begun : Bool) :
    Keeps P js (abandon c begun) (abandon c begun) (Same fun _ _ => True) := by
  have hclose : ∀ js', Keeps P js' (close c) (close c) (Same fun _ _ => True) :=
    fun _ => (keeps_note _).weaken fun _ _ _ _ h => ⟨h.1, trivial⟩
  unfold abandon
  cases begun with
  | false => exact hclose js
  | true =>
      have hrollback : Keeps P js (attempt (rollback c)) (attempt (rollback c)) _ :=
        keeps_attempt (keeps_rollback c)
      exact (keeps_discard hrollback).bind fun _ js' _ _ => hclose js'

theorem keeps_guarded {α β : Type} {R : α → β → List Entry → Prop} {body : Exchange (Journal σ) α}
    {body' : Exchange τ β} (hbody : Keeps P js body body' R) :
    Keeps P js (guarded c body) (guarded c body') R := by
  unfold guarded
  refine (keeps_attempt hbody).andThen fun outcome outcome' js₁ _ hvalue => ?_
  cases hvalue with
  | ok hab => exact keeps_pure hab
  | error f =>
      refine (keeps_abandon c true).bind fun _ _ _ _ => ?_
      exact keeps_reporting _ (keeps_throw f)

theorem keeps_batch (c : Connection) (size : Int) (columns : List Value) :
    Keeps P js (batch c size columns) (batch c size columns) (Same fun _ _ => True) := by
  unfold batch
  refine keeps_guarded ((keeps_execute c (.fetch size) rfl nofun).bind fun rows js₁ _ _ => ?_)
  cases rows with
  | nil =>
      refine (keeps_discard (keeps_execute c .closeCursor rfl nofun)).bind fun _ _ _ _ => ?_
      refine (keeps_commit c).bind fun _ _ _ _ => ?_
      exact keeps_pure ⟨rfl, trivial⟩
  | cons row rest =>
      refine keeps_lift_bind fun _ _ => ?_
      exact keeps_pure ⟨rfl, trivial⟩

end Parts

variable {P : Pairing σ τ w.account w.gate} {e : CursorExport (Journal σ)} {e' : CursorExport τ}

/-- What the receiver of two downloads has got: the same chunk, and streams that are twins again. -/
def TwinStep (P : Pairing σ τ w.account w.gate) (out : Option String × TextStream (Journal σ))
    (out' : Option String × TextStream τ) (js : List Entry) : Prop :=
  out.1 = out'.1 ∧ StreamTwins P js out.2 out'.2

theorem keeps_readBatch (he : CursorTwins P js e e') (c : Connection) (written : Nat) :
    Keeps P js (e.readBatch c written) (e'.readBatch c written) (TwinStep P) := by
  obtain ⟨hq, hcomplete⟩ := he
  rw [readBatch_eq, readBatch_eq]
  refine (keeps_batch c _ _).bind fun batch js₁ h₀₁ _ => ?_
  rcases batch with _ | ⟨count, chunk⟩
  · refine (keeps_note _).bind fun _ js₂ _ _ => ?_
    refine (hcomplete written js₂).bind fun _ _ _ _ => ?_
    exact keeps_pure ⟨rfl, .finished⟩
  · exact keeps_pure ⟨rfl, .cursor (.mk (hq.mono h₀₁) hcomplete) nofun⟩

theorem keeps_openCursor (he : CursorTwins P js e e') (hc : c.site = .browsed w.database) :
    Keeps P js (e.openCursor c) (e'.openCursor c) (Same fun _ _ => True) := by
  obtain ⟨hq, -⟩ := he
  unfold openCursor
  refine (keeps_attempt (keeps_begin c)).andThen fun outcome outcome' js₁ h₀₁ hbegun => ?_
  cases hbegun with
  | error f =>
      refine (keeps_abandon c false).bind fun _ _ _ _ => ?_
      exact keeps_reporting _ (keeps_throw f)
  | ok _ =>
      refine keeps_guarded ?_
      refine (keeps_discard (keeps_execute c .readOnly rfl nofun)).bind fun _ js₂ h₁₂ _ => ?_
      have haccount := ((hq.mono (h₀₁.trans h₁₂)).accounts hc).2.2
      refine (keeps_discard (keeps_execute c _ rfl fun _ => haccount)).weaken ?_
      exact fun _ _ _ _ h => ⟨h.1, trivial⟩

theorem keeps_next {phase : CursorPhase} (he : CursorTwins P js e e')
    (hheaded : ∀ c, phase = .headed c → c.site = .browsed w.database) :
    Keeps P js (e.next phase) (e'.next phase) (TwinStep P) := by
  cases phase with
  | waiting =>
      obtain ⟨hq, hcomplete⟩ := he
      unfold next
      refine (keeps_connect _).bind fun c js₁ h₀₁ hc => ?_
      dsimp only
      split
      · refine keeps_pure ⟨rfl, .cursor (.mk (hq.mono h₀₁) hcomplete) ?_⟩
        intro _ hsame
        cases hsame
        exact hc
      · exact (keeps_abandon c false).bind fun _ _ _ _ => keeps_throw _
  | headed c =>
      unfold next
      refine (keeps_openCursor he (hheaded c rfl)).bind fun _ js₁ h₀₁ _ => ?_
      exact keeps_readBatch (he.mono h₀₁) c 0
  | reading c written => exact keeps_readBatch he c written

end CursorExport

/-! ## Streams -/

namespace TextStream

variable {P : Pairing σ τ w.account w.gate} {s : TextStream (Journal σ)} {t : TextStream τ}

theorem keeps_next (hst : StreamTwins P js s t) :
    Keeps P js s.next t.next (CursorExport.TwinStep P) := by
  cases hst with
  | finished => exact keeps_pure ⟨rfl, .finished⟩
  | cursor he hheaded => exact CursorExport.keeps_next he hheaded
  | records columns headed rows =>
      cases headed with
      | false =>
          refine keeps_lift_bind fun _ _ => ?_
          exact keeps_pure ⟨rfl, .records ..⟩
      | true =>
          cases rows with
          | nil => exact keeps_pure ⟨rfl, .finished⟩
          | cons row rest =>
              refine keeps_lift_bind fun _ _ => ?_
              exact keeps_pure ⟨rfl, .records ..⟩

theorem keeps_close (hst : StreamTwins P js s t) :
    Keeps P js s.close t.close (Same fun _ _ => True) := by
  cases hst with
  | finished => exact keeps_pure ⟨rfl, trivial⟩
  | records _ _ _ => exact keeps_pure ⟨rfl, trivial⟩
  | @cursor _ _ phase _ _ =>
      cases phase with
      | waiting => exact keeps_pure ⟨rfl, trivial⟩
      | headed c => exact CursorExport.keeps_abandon c false
      | reading c written => exact CursorExport.keeps_abandon c true

/-- Twins deliver the same however long their receiver waits. -/
theorem keeps_receive : ∀ (patience : Nat) (s : TextStream (Journal σ)) (t : TextStream τ)
    (js : List Entry), StreamTwins P js s t →
      Keeps P js (s.receive patience) (t.receive patience) (Same fun _ _ => True) := by
  intro patience
  induction patience with
  | zero =>
      intro s t js hst
      refine (keeps_close hst).bind fun _ _ _ _ => ?_
      exact keeps_pure ⟨rfl, trivial⟩
  | succ patience ih =>
      intro s t js hst
      unfold receive
      refine (keeps_attempt (keeps_next hst)).andThen fun outcome outcome' js₁ _ hnext => ?_
      cases hnext with
      | error f => exact keeps_pure ⟨rfl, trivial⟩
      | @ok out out' hstep =>
          obtain ⟨chunk, rest⟩ := out
          obtain ⟨_, rest'⟩ := out'
          obtain ⟨rfl, hrest⟩ := hstep
          cases chunk with
          | none => exact keeps_pure ⟨rfl, trivial⟩
          | some chunk =>
              refine (ih rest rest' js₁ hrest).bind fun _ _ _ _ => ?_
              exact keeps_pure ⟨rfl, trivial⟩

end TextStream

/-! ## Requests -/

namespace Browser

variable (b : Browser) (r : Requester)

theorem keeps_listTables {A : Account} {P : Pairing σ τ A (b.gate r)} (database : String) :
    Keeps P js (b.listTables r database) (b.listTables r database) (Same fun _ _ => True) := by
  unfold listTables
  have hread : Keeps P js (readOnly database b.timeout fun c => Catalog.listTables c)
      (readOnly database b.timeout fun c => Catalog.listTables c)
      fun xs ys _ => (b.gate r).browsable database xs = (b.gate r).browsable database ys :=
    keeps_readOnly (fun _ _ _ _ _ h => h) fun c _ _ hc => Catalog.keeps_listTables hc
  refine hread.andThen fun xs ys js₁ _ hlevel => ?_
  rw [hlevel]
  refine keeps_lift_bind fun _ _ => ?_
  exact keeps_pure ⟨rfl, trivial⟩

theorem keeps_listColumns (database table : String)
    {P : Pairing σ τ (b.errand r database table).account (b.errand r database table).gate} :
    Keeps P js (b.listColumns r database table) (b.listColumns r database table)
      (Same fun _ js' => (b.errand r database table).Cleared js') := by
  unfold listColumns
  refine keeps_readOnly (fun _ _ _ _ hpre h => ⟨h.1, h.2.mono hpre⟩) fun c js₁ _ hc => ?_
  refine ((b.errand r database table).keeps_authorize hc table).bind fun ref js₂ _ hgate => ?_
  obtain ⟨href, hclears⟩ := hgate
  refine ((b.errand r database table).keeps_columnInfo hc hclears).weaken ?_
  rintro infos _ js₃ h₂₃ ⟨rfl, -⟩
  refine ⟨rfl, ?_⟩
  intro name hname
  obtain rfl := List.mem_singleton.mp hname
  exact ⟨ref, href, hclears.mono h₂₃⟩

section Tables

variable (q : TableRequest)
  {P : Pairing σ τ (b.errand r q.database q.table).account (b.errand r q.database q.table).gate}

theorem keeps_fetchRows (page : Value) :
    Keeps P js (b.fetchRows r q page) (b.fetchRows r q page)
      (Same fun _ js' => (b.errand r q.database q.table).Cleared js') := by
  unfold fetchRows
  refine (b.keeps_fetchPage r q page).bind fun out js₁ _ hq => ?_
  refine (Audit.keeps_record _).bind fun _ js₂ h₁₂ _ => ?_
  exact keeps_pure ⟨rfl, hq.cleared.mono h₁₂⟩

theorem keeps_exportCheck :
    Keeps P js (b.exportCheck r q) (b.exportCheck r q)
      (Same fun _ js' => (b.errand r q.database q.table).Cleared js') := by
  unfold exportCheck
  refine (b.keeps_prepareCount r { q with sort := [] }).bind fun out js₁ _ hout => ?_
  exact keeps_lift _ fun _ _ => hout.1.cleared

def DownloadTwins {w : Errand} (P : Pairing σ τ w.account w.gate) (d : Download (Journal σ))
    (d' : Download τ) (js : List Entry) : Prop :=
  d.fileName = d'.fileName ∧ StreamTwins P js d.stream d'.stream ∧ w.Cleared js

theorem keeps_exportPage (page : Value) :
    Keeps P js (b.exportPage r q page) (b.exportPage r q page) (DownloadTwins P) := by
  unfold exportPage
  refine (b.keeps_fetchPage r q page).bind fun out js₁ _ hq => ?_
  refine (Audit.keeps_record _).bind fun _ js₂ h₁₂ _ => ?_
  exact keeps_pure ⟨rfl, .records .., hq.cleared.mono h₁₂⟩

/-- A full export before its first chunk: the rows have been counted, and they were not too many. -/
structure Opened (b : Browser) (r : Requester) (q : TableRequest) (d : Download (Journal σ))
    (js : List Entry) : Prop where
  waiting : ∃ e, d.stream = .cursor e .waiting ∧
    ∀ written, ∃ entry, e.onComplete written = Audit.record entry
  counted : ∃ query total, Counted js q.database query total ∧
    b.policy.enforce r.user.role total = .ok ()

theorem keeps_exportAll :
    Keeps P js (b.exportAll r q) (b.exportAll r q)
      fun d d' js' => DownloadTwins P d d' js' ∧ Opened b r q d js' := by
  unfold exportAll
  refine (b.keeps_prepareCount r q).bind fun out js₁ _ hout => ?_
  obtain ⟨hq, hcounted⟩ := hout
  refine keeps_lift_bind fun _ henforced => ?_
  refine (keeps_usePool _).bind ?_
  intro _ _ _ hjs
  subst hjs
  unfold TextStream.ofQuery
  cases Policy.enforceAbsolute out.2 b.policy.absoluteCeiling with
  | error f => exact keeps_throw f
  | ok _ =>
      refine keeps_pure ⟨⟨rfl, .cursor (.mk hq fun _ _ => Audit.keeps_record _) nofun, hq.cleared⟩, ?_⟩
      exact ⟨⟨_, rfl, fun _ => ⟨_, rfl⟩⟩, _, _, hcounted, henforced⟩

end Tables

end Browser

theorem Reporter.keeps_run (p : Reporter) (r : Requester) {config : BlockConfig} {s : BlockSource}
    (page : Value) (hsource : config.source? = some s)
    {P : Pairing σ τ (p.errand r s).account (p.errand r s).gate} :
    Keeps P js (p.run r config page) (p.run r config page)
      (Same fun _ js' => (p.errand r s).Cleared js') := by
  cases config with
  | text content => exact nomatch hsource
  | table b =>
      cases hsource
      exact p.keeps_runQuery r b.source fun _ _ _ hc hplan => Reporter.keeps_runTable hc hplan p b page
  | chart b =>
      cases hsource
      exact p.keeps_runQuery r b.source fun _ _ _ hc hplan => Reporter.keeps_runChart hc hplan b
  | metric b =>
      cases hsource
      exact p.keeps_runQuery r b.source fun _ _ _ hc hplan => Reporter.keeps_runMetric hc hplan b

namespace Desk

variable (d : Desk) (r : Requester)

theorem keeps_deliver {P : Pairing σ τ w.account w.gate} {patience : Nat}
    {download : Exchange (Journal σ) (Download (Journal σ))} {download' : Exchange τ (Download τ)}
    (h : Keeps P js download download' (Browser.DownloadTwins P)) :
    Keeps P js (deliver patience download) (deliver patience download')
      (Same fun _ js' => w.Cleared js') := by
  unfold deliver
  refine h.andThen ?_
  rintro ⟨fileName, s⟩ ⟨_, t⟩ js₁ - ⟨rfl, hst, hcleared⟩
  refine (TextStream.keeps_receive patience s t js₁ hst).bind fun _ js₂ h₁₂ _ => ?_
  exact keeps_pure ⟨rfl, hcleared.mono h₁₂⟩

theorem config_of_parse {d : Desk} {r : Requester} {id : String} {b : ReportBlock} {config : BlockConfig}
    (hblock : Reporter.ownedBlock d.blocks r id = .ok b)
    (hparse : BlockConfig.parse b.kind (.dict b.config) = .ok config) :
    d.config? r id = some config := by
  unfold config?
  rw [hblock]
  simp only [hparse]
  rfl

/-- A request with an errand does what its errand allows, and clears every table of the errand before it has an
answer. -/
theorem keeps_answer {q : Request} (h : d.errand? r q = some w) {P : Pairing σ τ w.account w.gate} :
    Keeps P js (d.answer r q) (d.answer r q) (Same fun _ js' => w.Cleared js') := by
  cases q with
  | tables database => exact nomatch h
  | columns database table =>
      cases h
      refine (d.browser.keeps_listColumns r database table).bind fun _ _ _ hcleared => ?_
      exact keeps_pure ⟨rfl, hcleared⟩
  | rows q page =>
      cases h
      refine (d.browser.keeps_fetchRows r q page).bind fun _ _ _ hcleared => ?_
      exact keeps_pure ⟨rfl, hcleared⟩
  | exportCheck q =>
      cases h
      refine (d.browser.keeps_exportCheck r q).bind fun _ _ _ hcleared => ?_
      exact keeps_pure ⟨rfl, hcleared⟩
  | exportPage q page patience =>
      cases h
      exact keeps_deliver (d.browser.keeps_exportPage r q page)
  | exportAll q patience =>
      cases h
      refine keeps_deliver ((d.browser.keeps_exportAll r q).weaken ?_)
      exact fun _ _ _ _ h => h.1
  | block id page =>
      obtain ⟨source, hsource, rfl⟩ := Option.map_eq_some_iff.mp h
      have hrun : Keeps P js (d.reporter.runBlock d.blocks r id page)
          (d.reporter.runBlock d.blocks r id page)
          (Same fun _ js' => (d.reporter.errand r source).Cleared js') := by
        unfold Reporter.runBlock
        refine keeps_lift_bind fun b hblock => ?_
        refine keeps_lift_bind fun config hparse => ?_
        rw [config_of_parse hblock hparse] at hsource
        exact d.reporter.keeps_run r page hsource
      refine hrun.bind fun _ _ _ hcleared => ?_
      exact keeps_pure ⟨rfl, hcleared⟩

theorem keeps_answer_without_errand {q : Request} (h : d.errand? r q = none) {A : Account}
    {P : Pairing σ τ A (d.browser.gate r)} :
    Keeps P js (d.answer r q) (d.answer r q) (Same fun _ _ => True) := by
  cases q with
  | tables database =>
      refine (d.browser.keeps_listTables r database).bind fun _ _ _ _ => ?_
      exact keeps_pure ⟨rfl, trivial⟩
  | columns _ _ | rows _ _ | exportCheck _ | exportPage _ _ _ | exportAll _ _ => exact nomatch h
  | block id page =>
      have hsource := Option.map_eq_none_iff.mp h
      have hrun : Keeps P js (d.reporter.runBlock d.blocks r id page)
          (d.reporter.runBlock d.blocks r id page) (Same fun _ _ => True) := by
        unfold Reporter.runBlock
        refine keeps_lift_bind fun b hblock => ?_
        refine keeps_lift_bind fun config hparse => ?_
        rw [config_of_parse hblock hparse] at hsource
        cases config with
        | text content => exact keeps_pure ⟨rfl, trivial⟩
        | table _ | chart _ | metric _ => exact nomatch hsource
      refine hrun.bind fun _ _ _ _ => ?_
      exact keeps_pure ⟨rfl, trivial⟩

/-! ## Runs -/

/-- What the databases have been asked, with their answers, when a request ends. -/
def journal (q : Request) (l : Link σ) : List Entry :=
  ((d.answer r q).runOn l.journaled).2.server.entries

theorem kept_of_errand {q : Request} (h : d.errand? r q = some w) (l : Link σ) :
    Kept (Pairing.self σ w.account w.gate) [] (Same fun _ js' => w.Cleared js')
      ((d.answer r q).runOn l.journaled) ((d.answer r q).runOn l) :=
  keeps_answer d r h l.journaled l rfl (accounted_nil _) ⟨rfl, rfl, rfl, rfl⟩

theorem kept_without_errand {q : Request} (h : d.errand? r q = none) (l : Link σ) :
    Kept (Pairing.self σ Account.nothing (d.browser.gate r)) [] (Same fun _ _ => True)
      ((d.answer r q).runOn l.journaled) ((d.answer r q).runOn l) :=
  keeps_answer_without_errand d r h l.journaled l rfl (accounted_nil _) ⟨rfl, rfl, rfl, rfl⟩

/-- Keeping a journal changes neither the answer to a request nor what happens on the connections. -/
theorem answer_journaled (q : Request) (l : Link σ) :
    ((d.answer r q).runOn l.journaled).1 = ((d.answer r q).runOn l).1 ∧
      ((d.answer r q).runOn l.journaled).2.trace = ((d.answer r q).runOn l).2.trace := by
  cases h : d.errand? r q with
  | some w =>
      have hkept := d.kept_of_errand r h l
      exact ⟨Same.outcomes_eq hkept.outcomes, hkept.alike.trace⟩
  | none =>
      have hkept := d.kept_without_errand r h l
      exact ⟨Same.outcomes_eq hkept.outcomes, hkept.alike.trace⟩

theorem accounted_journal {q : Request} (h : d.errand? r q = some w) (l : Link σ) :
    Accounted w.account (d.journal r q l) :=
  (d.kept_of_errand r h l).accounted

theorem accounted_journal_without_errand {q : Request} (h : d.errand? r q = none) (l : Link σ) :
    Accounted Account.nothing (d.journal r q l) :=
  (d.kept_without_errand r h l).accounted

/-- Without an answer to every look-up there is no answer to the request. -/
theorem cleared_of_answer {q : Request} (h : d.errand? r q = some w) {l : Link σ} {reply : Reply}
    (hreply : ((d.answer r q).runOn l).1 = .ok reply) : w.Cleared (d.journal r q l) := by
  have hkept := d.kept_of_errand r h l
  have hjournaled := (Same.outcomes_eq hkept.outcomes).trans hreply
  obtain ⟨_, -, -, hcleared⟩ := hkept.outcomes.of_ok hjournaled
  exact hcleared

end Desk

end TableSteward

import TableSteward.Proofs.Dues
import TableSteward.Proofs.Filing
import TableSteward.Proofs.ExportOrder
import TableSteward.Proofs.Turns

/-!
# The audit trail

However orders, dashboards and downloads follow one another, the database of the application is visited just when a step
owes an audit row, and it is visited for this row alone.
-/
set_option autoImplicit false

namespace TableSteward

open Exchange

/-- One audit row is filed, or tried to be, just after a transaction on a browsed database was committed; all else is
about browsed databases. -/
def Filed (e : AuditEntry) (calls : List Entry) : Prop :=
  ∃ (p : Footprint) (visit : List Entry), calls = p.calls ++ visit ∧ p.Away ∧ p.Committed ∧ Visit e visit

/-- The calls of a step do what is owed for it, and nothing more. -/
def Settles (due : Option Due) (calls : List Entry) : Prop :=
  match due with
  | none => ∀ e ∈ calls, ∃ name, e.call.connection.site = .browsed name
  | some d => ∃ e, d.Asks e ∧ Filed e calls

theorem Filed.after {e : AuditEntry} {p q : Footprint} (hp : p.Away) (h : Filed e q.calls) : Filed e (p ++ q).calls := by
  obtain ⟨r, visit, hcalls, haway, hcommitted, hvisit⟩ := h
  refine ⟨p ++ r, visit, ?_, hp.append haway, hcommitted.after, hvisit⟩
  rw [Footprint.calls_append, hcalls, Footprint.calls_append, List.append_assoc]

/-! ## Orders -/

section Orders

variable {σ α β : Type} [Server σ]

theorem leaves_block (name : String) (timeout : Value) {body : Connection → Exchange (Journal σ) α}
    (h : IsDialogue body) :
    Leaves (readOnly name timeout body) fun r p => p.Away ∧ (r.isOk = true → p.Committed) := by
  obtain ⟨d, -, hbody⟩ := h
  refine leaves_readOnly name timeout fun c hc => ?_
  rw [hbody]
  exact staysAway_dialogue hc d

theorem Exchange.Reads.staysAway {x : Exchange (Journal σ) α} (h : Reads x) : StaysAway x := by
  induction h with
  | lift r => exact staysAway_lift r
  | usePool name => exact staysAway_usePool name
  | block name timeout hbody => exact (leaves_block name timeout hbody).weaken fun _ _ hp => hp.1
  | bind _ _ hx hk => exact hx.bind hk

theorem filed_recording {x : Exchange (Journal σ) α}
    (hx : Leaves x fun r p => p.Away ∧ (r.isOk = true → p.Committed)) (entry : α → AuditEntry) (answer : α → β)
    (l : Link (Journal σ)) :
    ∃ p : Footprint, p.Between l ((recording x entry answer).runOn l).2 ∧
      ((∃ f, ((recording x entry answer).runOn l).1 = .error f ∧ p.Away) ∨
        ∃ a m, x.runOn l = (.ok a, m) ∧ ((recording x entry answer).runOn l).1 = .ok (answer a) ∧
          Filed (entry a) p.calls) := by
  obtain ⟨p, hp, haway, hok⟩ := hx l
  rw [recording, runOn_bind]
  rcases hrun : x.runOn l with ⟨f | a, m⟩
  · rw [hrun] at hp
    exact ⟨p, hp, .inl ⟨f, rfl, haway⟩⟩
  · rw [hrun] at hp hok
    obtain ⟨q, hq, hrecord, hvisit⟩ := Audit.leaves_record (entry a) m
    simp only [runOn_bind]
    rcases hrun' : (Audit.record (entry a)).runOn m with ⟨r, n⟩
    rw [hrun'] at hq hrecord
    obtain rfl : r = .ok () := hrecord
    exact ⟨p ++ q, hp.trans hq, .inr ⟨a, m, rfl, rfl, p, q.calls, rfl, haway, hok rfl, hvisit⟩⟩

/-- From every link an order does what it owes, if it succeeds. -/
theorem Order.settles (s : Service (Journal σ)) (r : Requester) (o : Order) (l : Link (Journal σ)) :
    ∃ p : Footprint, p.Between l ((o.run s r).runOn l).2 ∧
      ((∃ f, ((o.run s r).runOn l).1 = .error f ∧ p.Away) ∨
        ∃ out, ((o.run s r).runOn l).1 = .ok out ∧ Settles (o.due? s r) p.calls) := by
  cases o.conducted s r with
  | reads hreads hdue =>
      obtain ⟨p, hp, haway⟩ := hreads.staysAway l
      refine ⟨p, hp, ?_⟩
      rw [hdue]
      cases ((o.run s r).runOn l).1 with
      | error f => exact .inl ⟨f, rfl, haway⟩
      | ok out => exact .inr ⟨out, rfl, haway⟩
  | files name timeout entry answer hbody hrun hdue hentry =>
      obtain ⟨p, hp, hcases⟩ := filed_recording (leaves_block name timeout hbody) entry answer l
      rw [hrun, hdue]
      refine ⟨p, hp, hcases.imp_right ?_⟩
      rintro ⟨a, m, hblock, hanswer, hfiled⟩
      exact ⟨answer a, hanswer, entry a, hentry a l m hblock, hfiled⟩

end Orders

/-! ## Streams -/

/-- The text ends so many records, whatever comes after it. -/
def Csv.Adds (text : String) (n : Nat) : Prop :=
  ∀ tail, Csv.recordsFrom false (text.toList ++ tail) = Csv.recordsFrom false tail + n

theorem Csv.Adds.append {s t : String} {m n : Nat} (hs : Csv.Adds s m) (ht : Csv.Adds t n) : Csv.Adds (s ++ t) (m + n) := by
  intro tail
  rw [String.toList_append, List.append_assoc, hs, ht]
  omega

theorem Csv.Adds.records {s : String} {n : Nat} (h : Csv.Adds s n) : Csv.records s = n := by
  have hnil := h []
  rw [List.append_nil] at hnil
  exact hnil.trans (Nat.zero_add n)

/-- The connection of an export that has been headed, and how many rows were delivered. -/
def CursorPhase.on? : CursorPhase → Option (Connection × Nat)
  | .waiting => none
  | .headed c => some (c, 0)
  | .reading c n => some (c, n)

namespace CursorExport

variable {σ : Type} {e : CursorExport (Journal σ)} {entry : Nat → AuditEntry} {phase : CursorPhase}
  {r : Result (Option String × TextStream (Journal σ))} {c : Connection} {name : String}

/-- What the attempt to get a chunk comes to: a fault, the header, a batch, or the end, when the row is filed. -/
inductive Advance (e : CursorExport (Journal σ)) (entry : Nat → AuditEntry) :
    CursorPhase → Result (Option String × TextStream (Journal σ)) → Footprint → Prop
  | fails (phase : CursorPhase) (f : Fault) {p : Footprint} : p.Away → Advance e entry phase (.error f) p
  | heads (c : Connection) {header : String} {p : Footprint} : c.site = e.site → Csv.Adds header 1 → p.Away →
      Advance e entry .waiting (.ok (some header, .cursor e (.headed c))) p
  | reads {phase : CursorPhase} {c : Connection} {n k : Nat} {chunk : String} {p : Footprint} :
      phase.on? = some (c, n) → Csv.Adds chunk k → p.Away →
      Advance e entry phase (.ok (some chunk, .cursor e (.reading c (n + k)))) p
  | ends {phase : CursorPhase} {c : Connection} {n : Nat} {p : Footprint} : phase.on? = some (c, n) →
      Filed (entry n) p.calls → Advance e entry phase (.ok (none, .finished)) p

theorem Advance.after {p q : Footprint} (hp : p.Away) (h : Advance e entry phase r q) :
    Advance e entry phase r (p ++ q) := by
  cases h with
  | fails phase f hq => exact .fails phase f (hp.append hq)
  | heads c hc hheader hq => exact .heads c hc hheader (hp.append hq)
  | reads hon hchunk hq => exact .reads hon hchunk (hp.append hq)
  | ends hon hfiled => exact .ends hon (hfiled.after hp)

theorem Closing.connection {size : Int} {complete : Bool} {calls : List Entry} (h : Closing c size complete calls) :
    ∀ e ∈ calls, e.call.connection = c := by
  cases h <;> simp [fetched, Call.connection]

theorem Closing.away (hc : c.site = .browsed name) {size : Int} {complete : Bool} {calls : List Entry}
    (h : Closing c size complete calls) (closed : List Connection) : Footprint.Away ⟨calls, closed⟩ :=
  fun e he => ⟨name, (congrArg Connection.site (h.connection e he)).trans hc⟩

theorem Closing.committed (hc : c.site = .browsed name) {size : Int} {calls : List Entry}
    (h : Closing c size true calls) : Footprint.Committed ⟨calls, []⟩ := by
  cases h with
  | complete x y => exact ⟨[_, _], c, name, y, hc, rfl⟩

variable [Server σ]

theorem staysAway_abandon (hc : c.site = .browsed name) (begun : Bool) : StaysAway (σ := σ) (abandon c begun) := by
  cases begun with
  | false => exact staysAway_close c
  | true =>
      refine (leaves_abandon c).weaken ?_
      rintro _ _ ⟨-, z, rfl⟩
      exact List.forall_mem_singleton.mpr ⟨name, hc⟩

theorem staysAway_guarded {α : Type} (hc : c.site = .browsed name) {body : Exchange (Journal σ) α}
    (hbody : StaysAway body) : StaysAway (guarded c body) := by
  unfold guarded
  refine (staysAway_attempt hbody).bind fun outcome => ?_
  cases outcome with
  | ok a => exact staysAway_pure a
  | error f =>
      refine (staysAway_abandon hc true).bind fun _ => ?_
      rw [reporting_throw]
      exact staysAway_lift (.error _)

theorem staysAway_openCursor (hc : c.site = .browsed name) : StaysAway (e.openCursor c) := by
  unfold openCursor
  refine (staysAway_attempt (staysAway_begin hc)).bind fun outcome => ?_
  cases outcome with
  | error f =>
      refine (staysAway_abandon hc false).bind fun _ => ?_
      rw [reporting_throw]
      exact staysAway_lift (.error _)
  | ok _ =>
      refine staysAway_guarded hc ((staysAway_discard (staysAway_execute hc .readOnly)).bind fun _ => ?_)
      exact staysAway_discard (staysAway_execute hc (.declareCursor e.query))

theorem leaves_readBatch_filing (hentry : ∀ n, e.onComplete n = Audit.record (entry n)) (hc : c.site = .browsed name)
    {n : Nat} (hon : phase.on? = some (c, n)) : Leaves (e.readBatch c n) (Advance e entry phase) := by
  rw [readBatch_eq]
  refine (leaves_batch c _ _).bind ?_ ?_
  · rintro _ p (⟨hrows, hbody⟩ | hclosing | _)
    · exact leaves_pure (.reads hon (Csv.recordsFrom_body hbody) (List.forall_mem_singleton.mpr ⟨name, hc⟩))
    · refine (leaves_close c).bind ?_ fun _ _ h => nomatch h.1
      rintro _ _ ⟨-, rfl⟩
      rw [hentry]
      refine (Audit.leaves_record (entry n)).bind ?_ fun _ _ h => nomatch h.1
      rintro _ q ⟨-, hvisit⟩
      refine leaves_pure (.ends hon ⟨_, q.calls, ?_, hclosing.away hc [], hclosing.committed hc, hvisit⟩)
      simp
  · rintro f _ (_ | _ | ⟨_, hclosing⟩)
    exact .fails phase f (hclosing.away hc [c])

theorem leaves_next (hsite : e.site = .browsed name) (hentry : ∀ n, e.onComplete n = Audit.record (entry n))
    (hphase : ∀ c n, phase.on? = some (c, n) → c.site = e.site) : Leaves (e.next phase) (Advance e entry phase) := by
  cases phase with
  | waiting =>
      unfold next
      refine (leaves_connect e.site).bind ?_ ?_
      · rintro c p ⟨_, hd, hcalled⟩
        obtain ⟨hp, hc⟩ : p.Away ∧ c.site = e.site := by
          cases hcalled
          exact ⟨List.forall_mem_singleton.mpr ⟨name, hd.trans hsite⟩, hd⟩
        cases hheader : Csv.header e.columns with
        | ok header => exact leaves_pure (.heads c hc (Csv.recordsFrom_line hheader) (hp.append Footprint.away_empty))
        | error f =>
            refine Leaves.bind (staysAway_abandon (hc.trans hsite) false) ?_ ?_
            · rintro _ q hq
              exact leaves_throw (.fails _ f (hp.append (hq.append Footprint.away_empty)))
            · rintro g q hq
              exact .fails _ g (hp.append hq)
      · rintro f p ⟨c, hc, hcalled⟩
        exact .fails _ f (away_of_called hcalled (hc.trans hsite))
  | headed c =>
      have hc : c.site = .browsed name := (hphase c 0 rfl).trans hsite
      refine Leaves.bind (staysAway_openCursor hc) (fun _ p hp => ?_) fun f p hp => .fails _ f hp
      exact (leaves_readBatch_filing hentry hc rfl).weaken fun _ _ h => h.after hp
  | reading c n => exact leaves_readBatch_filing hentry ((hphase c n rfl).trans hsite) rfl

end CursorExport

/-! ## Downloads -/

/-- A download that is a full export: what it files at its end, and what it has delivered. -/
structure Ticket.Exports {σ : Type} [Server σ] (t : Ticket σ) (e : CursorExport σ) (phase : CursorPhase) (q : TableRequest)
    (ref : TableRef) : Prop where
  order : t.order = .exportAll q
  full : e.Exports t.requester q ref
  waiting : phase = .waiting → t.chunks = []
  connection : ∀ c n, phase.on? = some (c, n) → c.site = e.site
  delivered : ∀ c n, phase.on? = some (c, n) → Csv.Adds (String.join t.chunks) (n + 1)

def Ticket.Consistent {σ : Type} [Server σ] (t : Ticket σ) : Prop :=
  ∀ e phase, t.stream = .cursor e phase → ∃ q ref, t.Exports e phase q ref

namespace Ticket

variable {σ : Type} [Server σ] {t : Ticket (Journal σ)}

/-- What is owed for an attempt to get a chunk: something at the end of the stream only. -/
def dueAfter? (t : Ticket (Journal σ)) : Result (Option String × TextStream (Journal σ)) → Option Due
  | .ok (none, _) => t.due?
  | _ => none

omit [Server σ] in
theorem due?_eq_none (h : ∀ e phase, t.stream ≠ .cursor e phase) : t.due? = none := by
  rw [due?]
  split
  · rename_i hs
    exact absurd hs (h _ _)
  · rfl

theorem consistent_of_stream {stream : TextStream (Journal σ)} {chunks : List String}
    (h : ∀ e phase, stream ≠ .cursor e phase) : Consistent { t with stream := stream, chunks := chunks } :=
  fun e phase hs => absurd hs (h e phase)

theorem join_concat (chunks : List String) (chunk : String) : String.join (chunks ++ [chunk]) = String.join chunks ++ chunk := by
  rw [String.join_append]
  rfl

theorem consistent_of_begins {r : Requester} {o : Order} {stream : TextStream (Journal σ)} (h : o.Begins r stream) :
    Consistent ⟨r, o, stream, []⟩ := by
  cases h with
  | page => exact consistent_of_stream (t := ⟨r, o, .finished, []⟩) fun _ _ => nofun
  | exportAll q e t hexport =>
      rintro _ _ ⟨⟩
      exact ⟨q, t, rfl, hexport, fun _ => rfl, nofun, nofun⟩

/-- A full export from which one more chunk was handed over. -/
theorem Exports.later {e : CursorExport (Journal σ)} {phase phase' : CursorPhase} {q : TableRequest} {ref : TableRef}
    (ht : t.Exports e phase q ref) {c : Connection} {n : Nat} {chunk : String} (hon : phase'.on? = some (c, n))
    (hc : c.site = e.site) (hdelivered : Csv.Adds (String.join (t.chunks ++ [chunk])) (n + 1)) :
    (t.after (.ok (some chunk, .cursor e phase'))).Consistent := by
  rintro _ _ ⟨⟩
  refine ⟨q, ref, ht.order, ht.full, ?_, fun d m hdm => ?_, fun d m hdm => ?_⟩
  · rintro rfl
    exact nomatch hon
  · obtain ⟨rfl, rfl⟩ := Prod.mk.inj (Option.some.inj (hon.symm.trans hdm))
    exact hc
  · obtain ⟨rfl, rfl⟩ := Prod.mk.inj (Option.some.inj (hon.symm.trans hdm))
    exact hdelivered

/-- An attempt to get the next chunk of a full export. -/
theorem Exports.settles {e : CursorExport (Journal σ)} {phase : CursorPhase} {q : TableRequest} {ref : TableRef}
    (ht : t.Exports e phase q ref) (hs : t.stream = .cursor e phase)
    {r : Result (Option String × TextStream (Journal σ))} {p : Footprint}
    (h : e.Advance (t.requester.exportAllEntry q ref) phase r p) :
    Settles (t.dueAfter? r) p.calls ∧ (t.after r).Consistent := by
  cases h with
  | fails phase f hp => exact ⟨hp, consistent_of_stream fun _ _ => nofun⟩
  | heads c hc hheader hp =>
      refine ⟨hp, ht.later rfl hc ?_⟩
      rw [ht.waiting rfl]
      exact hheader
  | reads hon hchunk hp =>
      refine ⟨hp, ht.later rfl (ht.connection _ _ hon) ?_⟩
      rw [join_concat, Nat.add_right_comm]
      exact (ht.delivered _ _ hon).append hchunk
  | ends hon hfiled =>
      refine ⟨?_, consistent_of_stream fun _ _ => nofun⟩
      have hrows : t.rows = _ := congrArg (· - 1) (ht.delivered _ _ hon).records
      have hdue : t.due? = some ⟨.exportAll, t.requester, q.database, q.table,
          some ("Exported all " ++ toString t.rows ++ " rows; filters: " ++ describeFilters q.filters)⟩ := by
        rw [due?, ht.order, hs]
      show Settles t.due? _
      rw [hdue]
      refine ⟨_, ⟨ref, _, ht.full.name, fun x hx => Option.some.inj hx, ?_⟩, hfiled⟩
      rw [hrows]
      rfl

theorem Consistent.leaves_next (ht : t.Consistent) :
    Leaves t.stream.next fun r p => Settles (t.dueAfter? r) p.calls ∧ (t.after r).Consistent := by
  -- A page is rendered from rows in memory, and nothing is owed for it.
  have hplain : ∀ (text : Result String) (columns : List Value) (headed : Bool) (rows : List Row),
      Leaves (do let text ← lift text; return (some text, TextStream.records columns headed rows) :
        Exchange (Journal σ) (Option String × TextStream (Journal σ)))
        fun r p => Settles (t.dueAfter? r) p.calls ∧ (t.after r).Consistent := by
    intro text columns headed rows
    cases text with
    | error f => exact leaves_throw ⟨Footprint.away_empty, consistent_of_stream fun _ _ => nofun⟩
    | ok text => exact leaves_pure ⟨Footprint.away_empty, consistent_of_stream fun _ _ => nofun⟩
  have hfinished : t.due? = none → Leaves (pure (none, .finished) : Exchange (Journal σ) _)
      fun r p => Settles (t.dueAfter? r) p.calls ∧ (t.after r).Consistent := by
    intro hdue
    refine leaves_pure ⟨?_, consistent_of_stream fun _ _ => nofun⟩
    show Settles t.due? _
    rw [hdue]
    exact Footprint.away_empty
  cases hs : t.stream with
  | finished => exact hfinished (due?_eq_none fun _ _ h => nomatch hs.symm.trans h)
  | records columns headed rows =>
      cases headed with
      | false => exact hplain (Csv.header columns) columns true rows
      | true =>
          cases rows with
          | nil => exact hfinished (due?_eq_none fun _ _ h => nomatch hs.symm.trans h)
          | cons row rest => exact hplain (Csv.rowLine columns row) columns true rest
  | cursor e phase =>
      obtain ⟨q, ref, hexports⟩ := ht e phase hs
      exact (CursorExport.leaves_next hexports.full.site hexports.full.completes hexports.connection).weaken
        fun _ _ h => hexports.settles hs h

theorem Consistent.staysAway_close (ht : t.Consistent) : StaysAway t.stream.close := by
  cases hs : t.stream with
  | finished => exact staysAway_pure ()
  | records columns headed rows => exact staysAway_pure ()
  | cursor e phase =>
      obtain ⟨q, ref, hexports⟩ := ht e phase hs
      cases phase with
      | waiting => exact staysAway_pure ()
      | headed c => exact CursorExport.staysAway_abandon ((hexports.connection c 0 rfl).trans hexports.full.site) false
      | reading c n => exact CursorExport.staysAway_abandon ((hexports.connection c n rfl).trans hexports.full.site) true

end Ticket

/-! ## Dashboards -/

/-- Whatever is done for a dashboard is done on a browsed database. -/
theorem Service.staysAway_dashboard {σ : Type} [Server σ] (s : Service (Journal σ))
    (hproviders : ∀ kind compute, s.providers.get? kind = some compute → compute.Converses) (kind : String)
    (r : DashboardRequest) (refresh : Bool) :
    ∃ p : Footprint, p.Between s.link ((dashboard kind r refresh).runOn s).2.link ∧ p.Away := by
  rcases s.fetch_cases kind r refresh with hkind | ⟨compute, v, hkind, rfl, hholds⟩ | ⟨compute, hkind, hmiss⟩
  · obtain ⟨f, hrun⟩ := dashboard_unknown hkind r refresh
    rw [hrun]
    exact ⟨{}, .refl _, Footprint.away_empty⟩
  · rw [dashboard_hit hkind hholds]
    exact ⟨{}, .refl _, Footprint.away_empty⟩
  · obtain ⟨d, hd⟩ := hproviders kind compute hkind r
    rw [link_dashboard_miss hkind hmiss]
    refine (leaves_readOnly r.database s.timeout fun c hc => ?_).weaken (fun _ _ h => h.1) s.link
    rw [hd]
    exact staysAway_dialogue hc d

/-! ## The floor -/

namespace Floor

variable {σ : Type} [Server σ]

/-- What every step preserves of the downloads. -/
def Consistent (F : Floor σ) : Prop := ∀ t ∈ F.downloads, t.Consistent

variable {F : Floor (Journal σ)}

theorem due_next {i : Nat} {t : Ticket (Journal σ)} (ht : F.downloads[i]? = some t) :
    F.due? (.next i) = t.dueAfter? (t.stream.next.runOn F.link).1 := by
  have hstep : (F.step (.next i)).1 = (t.stream.next.runOn F.link).1.map Reaction.ofNext := by
    show (F.next i).1 = _
    rw [next_of_ticket ht]
  simp only [due?, hstep]
  rcases (t.stream.next.runOn F.link).1 with f | ⟨_ | chunk, rest⟩
  · rfl
  · show F.downloads[i]?.bind Ticket.due? = t.due?
    rw [ht]
    rfl
  · rfl

/-- A step does what it owes, and nothing more. -/
theorem settles_step (hF : F.Consistent)
    (hproviders : ∀ kind compute, F.service.providers.get? kind = some compute → compute.Converses) (a : Step) :
    (∃ p : Footprint, p.Between F.link (F.step a).2.link ∧ Settles (F.due? a) p.calls) ∧ (F.step a).2.Consistent := by
  have hidle : ∃ p : Footprint, p.Between F.link F.link ∧ Settles none p.calls := ⟨{}, .refl _, Footprint.away_empty⟩
  cases a with
  | order r o =>
      show (∃ p : Footprint, p.Between F.link (F.serve r o).2.link ∧ Settles (F.due? (.order r o)) p.calls) ∧
        (F.serve r o).2.Consistent
      obtain ⟨p, hp, ⟨f, hrun, haway⟩ | ⟨⟨answer, stream⟩, hrun, hsettles⟩⟩ := o.settles F.service r F.link
      · have hdue : F.due? (.order r o) = none := by
          simp only [due?, step, serve_error hrun]
        rw [hdue, serve_error hrun]
        exact ⟨⟨p, hp, haway⟩, hF⟩
      · have hdue : F.due? (.order r o) = o.due? F.service r := by
          simp only [due?, step, serve_ok hrun]
        rw [hdue, serve_ok hrun]
        refine ⟨⟨p, hp, hsettles⟩, forall_begin hF r o ?_⟩
        rintro begun rfl
        exact Ticket.consistent_of_begins (o.begins (Prod.ext hrun rfl))
  | dashboard kind r refresh =>
      obtain ⟨p, hp, haway⟩ := F.service.staysAway_dashboard hproviders kind r refresh
      exact ⟨⟨p, hp, haway⟩, hF⟩
  | clearCache pattern => exact ⟨hidle, hF⟩
  | store c =>
      rw [link_store]
      exact ⟨hidle, hF⟩
  | pass clock now today writable => exact ⟨hidle, hF⟩
  | next i =>
      show (∃ p : Footprint, p.Between F.link (F.next i).2.link ∧ Settles (F.due? (.next i)) p.calls) ∧
        (F.next i).2.Consistent
      cases ht : F.downloads[i]? with
      | none =>
          have hdue : F.due? (.next i) = none := by
            simp only [due?, step, next_of_none ht]
          rw [hdue, next_of_none ht]
          exact ⟨hidle, hF⟩
      | some t =>
          obtain ⟨p, hp, hsettles, hafter⟩ := (hF t (List.mem_of_getElem? ht)).leaves_next F.link
          rw [due_next ht, next_of_ticket ht]
          exact ⟨⟨p, hp, hsettles⟩, forall_putTicket hF i hafter⟩
  | close i =>
      show (∃ p : Footprint, p.Between F.link (F.close i).2.link ∧ Settles none p.calls) ∧ (F.close i).2.Consistent
      cases ht : F.downloads[i]? with
      | none =>
          rw [close_of_none ht]
          exact ⟨hidle, hF⟩
      | some t =>
          obtain ⟨p, hp, haway⟩ := (hF t (List.mem_of_getElem? ht)).staysAway_close F.link
          rw [close_of_ticket ht]
          exact ⟨⟨p, hp, haway⟩, forall_putTicket hF i (Ticket.consistent_of_stream fun _ _ => nofun)⟩

/-- However steps follow one another, each does what it owes and nothing more. -/
theorem settles_steps (hF : F.Consistent)
    (hproviders : ∀ kind compute, F.service.providers.get? kind = some compute → compute.Converses) (steps : List Step) :
    ∃ visits : List (List Entry), (F.after steps).link.server.entries = F.link.server.entries ++ visits.flatten ∧
      List.Forall₂ Settles (F.dues steps) visits := by
  induction steps generalizing F with
  | nil => exact ⟨[], (List.append_nil _).symm, .nil⟩
  | cons a steps ih =>
      obtain ⟨⟨p, hp, hsettles⟩, hnext⟩ := settles_step hF hproviders a
      obtain ⟨visits, hvisits, hall⟩ := ih hnext (by rw [providers_step]; exact hproviders)
      refine ⟨p.calls :: visits, ?_, .cons hsettles hall⟩
      rw [after_cons, hvisits, hp.calls, List.flatten_cons, List.append_assoc]

end Floor

end TableSteward

import TableSteward.Proofs.AuditTrail
import TableSteward.Proofs.Counterparts
import TableSteward.Proofs.OfflineActions
import TableSteward.Proofs.PagedExport

/-!
# Failing audit rows

Whether audit rows can be written is nothing that a requester could find out.  Two services that are alike but for what
becomes of their audit rows answer every step alike, and they stay alike.
-/
set_option autoImplicit false

namespace TableSteward

open Exchange

/-! ## A row -/

section Rows

variable {σ α : Type} {I : σ → Prop}

/-- What keeps a property of the server and leaves the pools as they are, with the connections that were opened. -/
def Exchange.sparing (I : σ → Prop) : Effects σ (List Connection) where
  nothing := []
  append_nothing := List.append_nil
  between cs l m := (I l.server → I m.server) ∧ m.pools = l.pools ∧ m.connections = l.connections + cs.length
  refl _ := ⟨id, rfl, rfl⟩
  trans := by
    rintro p q l m n ⟨hp, hppools, hpcount⟩ ⟨hq, hqpools, hqcount⟩
    refine ⟨hq ∘ hp, hqpools.trans hppools, ?_⟩
    rw [hqcount, hpcount, List.length_append, Nat.add_assoc]

theorem Exchange.spares_note (e : Event) : Has (sparing I) (note e) fun _ _ => True :=
  fun _ => ⟨[], ⟨id, rfl, rfl⟩, trivial⟩

variable [Server σ] (hI : ∀ s (call : Call), call.IsAudit → I s → I (Server.answer s call).2)

include hI

theorem Exchange.spares_ask {call : Call} (h : call.IsAudit) : Has (sparing I) (ask call) fun _ _ => True := by
  intro l
  rw [runOn_ask]
  exact ⟨[], ⟨hI _ call h, rfl, rfl⟩, trivial⟩

theorem Exchange.spares_connect :
    Has (sparing I) (connect .application) fun r _ => ∀ c, r = .ok c → c.site = .application := by
  intro l
  have hserver := hI l.server (.connect ⟨l.connections + 1, .application⟩) rfl
  rw [runOn_connect]
  rcases hrun : Server.answer l.server (.connect ⟨l.connections + 1, .application⟩) with ⟨_ | rows, s⟩ <;>
    rw [hrun] at hserver
  · exact ⟨[], ⟨hserver, rfl, rfl⟩, nofun⟩
  · refine ⟨[⟨l.connections + 1, .application⟩], ⟨hserver, rfl, rfl⟩, ?_⟩
    rintro _ ⟨⟩
    rfl

theorem Audit.spares_record (e : AuditEntry) : Has (sparing I) (Audit.record e) fun _ _ => True := by
  have hrow : ∀ c : Connection, c.site = .application → Has (sparing I) (do
      discard (execute c (.recordAudit e))
      commit c) fun _ _ => True := by
    intro c hc
    have hexecute : Has (sparing I) (execute c (.recordAudit e)) fun _ _ => True :=
      (spares_note _).bind (fun _ _ _ => spares_ask hI hc) fun _ _ _ => trivial
    have hasked : Has (sparing I) (ask (.commit c)) fun _ _ => True := spares_ask hI hc
    have hcommit : Has (sparing I) (commit c) fun _ _ => True :=
      (has_discard hasked).bind (fun _ _ _ => spares_note _) fun _ _ _ => trivial
    exact (has_discard hexecute).bind (fun _ _ _ => hcommit) fun _ _ _ => trivial
  have hvisit : Has (sparing I) (onConnection .application fun c => do
      discard (execute c (.recordAudit e))
      commit c) fun _ _ => True := by
    unfold onConnection
    refine (spares_connect hI).bind (fun c _ hc => ?_) fun _ _ _ => trivial
    refine (has_attempt (hrow c (hc c rfl))).bind (fun outcome _ _ => ?_) fun _ _ _ => trivial
    exact (spares_note _).bind (fun _ _ _ => has_lift outcome trivial) fun _ _ _ => trivial
  exact (has_discard (has_attempt hvisit)).weaken fun _ _ _ => trivial

end Rows

section Alike

variable {σ α : Type} [Server σ] {R : Counterparts → σ → σ → Prop} (hR : Server.Separates R) {ps : Counterparts}

include hR

/-- Whatever becomes of the row on either side, the runs go on alike. -/
theorem Audit.agree_record (e : AuditEntry) : Agree R ps (Audit.record e) (Audit.record e) := by
  intro l m hlm
  obtain ⟨cs, ⟨hleft, hlpools, hlcount⟩, -⟩ :=
    Audit.spares_record (I := fun s => R ps s m.server) (fun _ call h hs => hR.left hs call h) e l
  obtain ⟨ds, ⟨hright, hmpools, hmcount⟩, -⟩ :=
    Audit.spares_record (I := R ps ((Audit.record e).runOn l).2.server) (fun _ call h ht => hR.right ht call h) e m
  refine ⟨ps, List.Subset.refl ps, ⟨hright (hleft hlm.servers), ?_, fun p hp => ?_⟩, ?_⟩
  · rw [hlpools, hmpools, hlm.pools]
  · obtain ⟨hfirst, hsecond⟩ := hlm.numbers p hp
    omega
  · rw [Audit.runOn_record_ok, Audit.runOn_record_ok]
    exact .ok rfl

theorem Exchange.Reads.agree {x : Exchange σ α} (h : Reads x) : Agree R ps x x := by
  induction h generalizing ps with
  | lift r => exact agree_lift r
  | usePool name => exact agree_usePool name
  | block name timeout hbody =>
      obtain ⟨t, -, ht⟩ := hbody
      exact agree_readOnly hR name timeout ht
  | bind _ _ hx hk => exact agree_bind hx fun a _ _ => hk a

theorem Order.agree (s : Service σ) (r : Requester) (o : Order) : Agree R ps (o.run s r) (o.run s r) := by
  cases o.conducted s r with
  | reads hreads _ => exact hreads.agree hR
  | files name timeout entry answer hbody hrun _ _ =>
      rw [hrun]
      refine agree_bind ((Reads.block name timeout hbody).agree hR) fun a _ _ => ?_
      exact agree_bind (Audit.agree_record hR (entry a)) fun _ _ _ => mirrors_pure rfl

end Alike

/-! ## Streams -/

/-- Phases on counterparts. -/
inductive CursorPhase.Alike (ps : Counterparts) : CursorPhase → CursorPhase → Prop
  | waiting : Alike ps .waiting .waiting
  | headed {c d : Connection} : (c, d) ∈ ps → Alike ps (.headed c) (.headed d)
  | reading {c d : Connection} (n : Nat) : (c, d) ∈ ps → Alike ps (.reading c n) (.reading d n)

/-- Streams that hand over the same, from one page or from one export on counterparts. -/
inductive TextStream.Alike {σ : Type} [Server σ] (ps : Counterparts) : TextStream σ → TextStream σ → Prop
  | finished : Alike ps .finished .finished
  | records (columns : List Value) (headed : Bool) (rows : List Row) :
      Alike ps (.records columns headed rows) (.records columns headed rows)
  | cursor {e : CursorExport σ} {r : Requester} {q : TableRequest} {t : TableRef} {phase phase' : CursorPhase} :
      e.Exports r q t → phase.Alike ps phase' → Alike ps (.cursor e phase) (.cursor e phase')

theorem TextStream.Alike.mono {σ : Type} [Server σ] {ps qs : Counterparts} (hqs : ps ⊆ qs) {s s' : TextStream σ}
    (h : Alike ps s s') : Alike qs s s' := by
  cases h with
  | finished => exact .finished
  | records columns headed rows => exact .records columns headed rows
  | cursor he hphase =>
      refine .cursor he ?_
      cases hphase with
      | waiting => exact .waiting
      | headed h => exact .headed (hqs h)
      | reading n h => exact .reading n (hqs h)

section Streams

variable {σ α : Type} [Server σ] {R : Counterparts → σ → σ → Prop} (hR : Server.Separates R) {ps : Counterparts}

/-- What two streams hand over, and what is left of them. -/
abbrev TextStream.Handed (qs : Counterparts) (out out' : Option String × TextStream σ) : Prop :=
  out.1 = out'.1 ∧ out.2.Alike qs out'.2

include hR

namespace CursorExport

variable {c d : Connection}

theorem agree_abandon (h : (c, d) ∈ ps) (begun : Bool) : Agree (σ := σ) R ps (abandon c begun) (abandon d begun) := by
  cases begun with
  | false => exact agree_note _ _
  | true =>
      exact agree_bind (mirrors_discard (mirrors_attempt (agree_rollback hR h))) fun _ _ _ => agree_note _ _

theorem agree_guarded (h : (c, d) ∈ ps) {x y : Exchange σ α} (hxy : Agree R ps x y) :
    Agree R ps (guarded c x) (guarded d y) := by
  unfold guarded
  refine (mirrors_attempt hxy).bind fun r r' qs hqs hout => ?_
  obtain rfl := eq_of_outcomes hout
  cases r with
  | ok a => exact mirrors_pure rfl
  | error f => exact agree_bind (agree_abandon hR (hqs h) true) fun _ _ _ => mirrors_reporting _ (mirrors_throw f)

theorem agree_openCursor (h : (c, d) ∈ ps) (e : CursorExport σ) : Agree R ps (e.openCursor c) (e.openCursor d) := by
  unfold openCursor
  refine (mirrors_attempt (agree_begin hR h)).bind fun r r' qs hqs hout => ?_
  obtain rfl := eq_of_outcomes hout
  cases r with
  | error f => exact agree_bind (agree_abandon hR (hqs h) false) fun _ _ _ => mirrors_reporting _ (mirrors_throw f)
  | ok _ =>
      refine agree_guarded hR (hqs h) (agree_bind (mirrors_discard (agree_execute hR (hqs h) .readOnly)) fun _ _ hrs => ?_)
      exact mirrors_discard (agree_execute hR (hrs (hqs h)) (.declareCursor e.query))

theorem agree_batch (h : (c, d) ∈ ps) (size : Int) (columns : List Value) :
    Agree (σ := σ) R ps (batch c size columns) (batch d size columns) := by
  refine agree_guarded hR h (agree_bind (agree_execute hR h (.fetch size)) fun rows qs hqs => ?_)
  cases rows with
  | nil =>
      refine agree_bind (mirrors_discard (agree_execute hR (hqs h) .closeCursor)) fun _ _ hrs => ?_
      exact agree_bind (agree_commit hR (hrs (hqs h))) fun _ _ _ => mirrors_pure rfl
  | cons row rest => exact agree_bind (agree_lift _) fun _ _ _ => mirrors_pure rfl

variable {e : CursorExport σ} {r : Requester} {q : TableRequest} {t : TableRef} (he : e.Exports r q t)

include he

theorem mirrors_readBatch (h : (c, d) ∈ ps) (n : Nat) :
    Mirrors R ps (e.readBatch c n) (e.readBatch d n) TextStream.Handed := by
  rw [readBatch_eq, readBatch_eq]
  refine (agree_batch hR h _ _).bind ?_
  rintro (_ | ⟨count, chunk⟩) _ qs hqs rfl
  · refine (agree_note _ _).bind fun _ _ rs _ _ => ?_
    rw [he.completes]
    exact (Audit.agree_record hR _).bind fun _ _ _ _ _ => mirrors_pure ⟨rfl, .finished⟩
  · exact mirrors_pure ⟨rfl, .cursor he (.reading _ (hqs h))⟩

theorem mirrors_next {phase phase' : CursorPhase} (h : phase.Alike ps phase') :
    Mirrors R ps (e.next phase) (e.next phase') TextStream.Handed := by
  cases h with
  | waiting =>
      unfold next
      rw [he.site]
      refine (mirrors_connect hR q.database).bind fun c d qs _ hcd => ?_
      cases Csv.header e.columns with
      | ok header => exact mirrors_pure ⟨rfl, .cursor he (.headed hcd)⟩
      | error f => exact (agree_abandon hR hcd false).bind fun _ _ _ _ _ => mirrors_throw f
  | headed h =>
      refine (agree_openCursor hR h e).bind fun _ _ qs hqs _ => ?_
      exact mirrors_readBatch hR he (hqs h) 0
  | reading n h => exact mirrors_readBatch hR he h n

end CursorExport

namespace TextStream

theorem mirrors_next {s s' : TextStream σ} (h : s.Alike ps s') : Mirrors R ps s.next s'.next Handed := by
  have hline : ∀ (text : Result String) (columns : List Value) (rows : List Row),
      let next : Exchange σ (Option String × TextStream σ) := do
        let text ← lift text
        return (some text, records columns true rows)
      Mirrors R ps next next Handed := by
    intro text columns rows
    cases text with
    | error f => exact mirrors_throw f
    | ok text => exact mirrors_pure ⟨rfl, .records columns true rows⟩
  cases h with
  | finished => exact mirrors_pure ⟨rfl, .finished⟩
  | records columns headed rows =>
      cases headed with
      | false => exact hline (Csv.header columns) columns rows
      | true =>
          cases rows with
          | nil => exact mirrors_pure ⟨rfl, .finished⟩
          | cons row rest => exact hline (Csv.rowLine columns row) columns rest
  | cursor he hphase => exact CursorExport.mirrors_next hR he hphase

theorem agree_close {s s' : TextStream σ} (h : s.Alike ps s') : Agree R ps s.close s'.close := by
  cases h with
  | finished => exact mirrors_pure rfl
  | records columns headed rows => exact mirrors_pure rfl
  | cursor he hphase =>
      cases hphase with
      | waiting => exact mirrors_pure rfl
      | headed h => exact CursorExport.agree_abandon hR h false
      | reading n h => exact CursorExport.agree_abandon hR h true

end TextStream

end Streams

/-! ## Downloads -/

section Downloads

variable {σ α β : Type} {S : α → β → Prop}

theorem getElem?_of_forall₂ {xs : List α} {ys : List β} (h : List.Forall₂ S xs ys) (i : Nat) :
    (xs[i]? = none ∧ ys[i]? = none) ∨ ∃ x y, xs[i]? = some x ∧ ys[i]? = some y ∧ S x y := by
  induction h generalizing i with
  | nil => exact .inl ⟨rfl, rfl⟩
  | cons hxy _ ih =>
      cases i with
      | zero => exact .inr ⟨_, _, rfl, rfl, hxy⟩
      | succ i => exact ih i

theorem forall₂_set {xs : List α} {ys : List β} (h : List.Forall₂ S xs ys) (i : Nat) {x : α} {y : β} (hxy : S x y) :
    List.Forall₂ S (xs.set i x) (ys.set i y) := by
  induction h generalizing i with
  | nil => exact .nil
  | cons hhead htail ih =>
      cases i with
      | zero => exact .cons hxy htail
      | succ i => exact .cons hhead (ih i)

/-- Downloads that have handed over the same, and will. -/
structure Ticket.Alike [Server σ] (ps : Counterparts) (t u : Ticket σ) : Prop where
  requester : t.requester = u.requester
  order : t.order = u.order
  chunks : t.chunks = u.chunks
  stream : t.stream.Alike ps u.stream

theorem Ticket.Alike.mono [Server σ] {ps qs : Counterparts} {t u : Ticket σ} (hqs : ps ⊆ qs) (h : t.Alike ps u) :
    t.Alike qs u :=
  ⟨h.requester, h.order, h.chunks, h.stream.mono hqs⟩

theorem Ticket.Alike.after [Server σ] {ps : Counterparts} {t u : Ticket σ}
    {r r' : Result (Option String × TextStream σ)} (h : t.Alike ps u) (hout : Outcomes (TextStream.Handed ps) r r') :
    (t.after r).Alike ps (u.after r') ∧ r.map Reaction.ofNext = r'.map Reaction.ofNext := by
  cases hout with
  | error f => exact ⟨⟨h.requester, h.order, h.chunks, .finished⟩, rfl⟩
  | @ok out out' hhanded =>
      obtain ⟨chunk, rest⟩ := out
      obtain ⟨chunk', rest'⟩ := out'
      obtain ⟨rfl, hrest⟩ : chunk = chunk' ∧ rest.Alike ps rest' := hhanded
      refine ⟨⟨h.requester, h.order, congrArg (· ++ chunk.toList) h.chunks, hrest⟩, ?_⟩
      cases chunk <;> rfl

theorem Order.Begins.alike [Server σ] {r : Requester} {o : Order} {stream : TextStream σ} (h : o.Begins r stream)
    (ps : Counterparts) : stream.Alike ps stream := by
  cases h with
  | page o columns rows => exact .records columns false rows
  | exportAll q e t he => exact .cursor he .waiting

end Downloads

/-! ## Steps -/

namespace Floor

variable {σ : Type} [Server σ]

/-- Floors that differ in their servers only, and in how many connections there have been. -/
structure Alike (R : Counterparts → σ → σ → Prop) (ps : Counterparts) (F G : Floor σ) : Prop where
  links : F.link.Matches R ps G.link
  service : G.service = F.service.onto G.link
  downloads : List.Forall₂ (Ticket.Alike ps) F.downloads G.downloads

variable {R : Counterparts → σ → σ → Prop} (hR : Server.Separates R) {ps : Counterparts} {F G : Floor σ}

theorem Alike.act {α : Type} (h : F.Alike R ps G) {x : Action σ α} (l : Link σ) {qs : Counterparts} (hqs : ps ⊆ qs)
    (hrun : x.runOn G.service = ((x.runOn F.service).1, (x.runOn F.service).2.onto l))
    (hlinks : (x.runOn F.service).2.link.Matches R qs l) (answer : α → Reaction) :
    (F.act x answer).1 = (G.act x answer).1 ∧ ∃ qs, ps ⊆ qs ∧ (F.act x answer).2.Alike R qs (G.act x answer).2 := by
  rw [Floor.act, Floor.act, hrun]
  exact ⟨rfl, qs, hqs, hlinks, rfl, h.downloads.imp fun _ _ => Ticket.Alike.mono hqs⟩

/-- An action that has nothing to do with the link. -/
theorem Alike.actOffline {α : Type} (h : F.Alike R ps G) {x : Action σ α} (hx : x.Offline) (answer : α → Reaction) :
    (F.act x answer).1 = (G.act x answer).1 ∧ ∃ qs, ps ⊆ qs ∧ (F.act x answer).2.Alike R qs (G.act x answer).2 := by
  refine h.act G.link (List.Subset.refl ps) ?_ ?_ answer
  · rw [h.service]
    exact hx F.service G.link
  · rw [hx.link]
    exact h.links

theorem Alike.service_eq (h : F.Alike R ps G) (l l' : Link σ) :
    { G.service with link := l' } = ({ F.service with link := l } : Service σ).onto l' := by
  rw [h.service]
  rfl

include hR

theorem Alike.serve (h : F.Alike R ps G) (r : Requester) (o : Order) :
    (F.serve r o).1 = (G.serve r o).1 ∧ ∃ qs, ps ⊆ qs ∧ (F.serve r o).2.Alike R qs (G.serve r o).2 := by
  obtain ⟨qs, hqs, hlinks, hout⟩ := Order.agree hR F.service r o F.link G.link h.links
  have hsame : o.run G.service r = o.run F.service r := by
    rw [h.service]
    cases o <;> rfl
  have hdownloads := h.downloads.imp fun _ _ => Ticket.Alike.mono hqs
  have houtcome := eq_of_outcomes hout
  cases hrun : ((o.run F.service r).runOn F.link).1 with
  | error f =>
      have hrun' : ((o.run G.service r).runOn G.link).1 = .error f := by
        rw [hsame, ← houtcome, hrun]
      rw [serve_error hrun, serve_error hrun', hsame]
      exact ⟨rfl, qs, hqs, hlinks, h.service_eq _ _, hdownloads⟩
  | ok out =>
      obtain ⟨answer, stream⟩ := out
      have hrun' : ((o.run G.service r).runOn G.link).1 = .ok (answer, stream) := by
        rw [hsame, ← houtcome, hrun]
      rw [serve_ok hrun, serve_ok hrun', hsame]
      refine ⟨rfl, qs, hqs, hlinks, h.service_eq _ _, List.rel_append hdownloads ?_⟩
      cases stream with
      | none => exact .nil
      | some s =>
          have hbegins : o.Begins r s := Order.begins (Prod.ext hrun rfl)
          exact .cons ⟨rfl, rfl, rfl, hbegins.alike qs⟩ .nil

theorem Alike.dashboard (h : F.Alike R ps G)
    (hproviders : ∀ kind compute, F.service.providers.get? kind = some compute → compute.Converses) (kind : String)
    (r : DashboardRequest) (refresh : Bool) :
    (F.step (.dashboard kind r refresh)).1 = (G.step (.dashboard kind r refresh)).1 ∧
      ∃ qs, ps ⊆ qs ∧ (F.step (.dashboard kind r refresh)).2.Alike R qs (G.step (.dashboard kind r refresh)).2 := by
  show (F.act (Service.dashboard kind r refresh) .payload).1 = (G.act (Service.dashboard kind r refresh) .payload).1 ∧
    ∃ qs, ps ⊆ qs ∧
      (F.act (Service.dashboard kind r refresh) .payload).2.Alike R qs (G.act (Service.dashboard kind r refresh) .payload).2
  have hoffline : (Service.lookUp kind r refresh : Action σ (Value ⊕ Provider σ)).Offline :=
    Service.offline_lookUp kind r refresh
  have hlookUp := hoffline F.service G.link
  have hlink := hoffline.link F.service
  rw [← h.service] at hlookUp
  rcases hrun : (Service.lookUp kind r refresh).runOn F.service with ⟨f | (v | compute), t⟩ <;>
    rw [hrun] at hlookUp hlink
  · refine h.act G.link (List.Subset.refl ps) ?_ ?_ _
    · rw [Service.dashboard_eq, Action.runOn_bind, Action.runOn_bind, hrun, hlookUp]
    · rw [Service.dashboard_eq, Action.runOn_bind, hrun]
      exact hlink ▸ h.links
  · refine h.act G.link (List.Subset.refl ps) ?_ ?_ _
    · rw [Service.dashboard_eq, Action.runOn_bind, Action.runOn_bind, hrun, hlookUp]
      rfl
    · rw [Service.dashboard_eq, Action.runOn_bind, hrun]
      exact hlink ▸ h.links
  · obtain ⟨d, hd⟩ := hproviders kind compute (Service.provider_of_lookUp hrun) r
    have hblock : Agree R ps (Exchange.readOnly r.database t.timeout fun c => compute c r)
        (Exchange.readOnly r.database t.timeout fun c => compute c r) := agree_readOnly hR _ _ hd
    obtain ⟨qs, hqs, hlinks, hout⟩ := hblock t.link G.link (hlink ▸ h.links)
    obtain ⟨hcompute, hcomputed⟩ := Service.runOn_computeDashboard_onto (r.cacheKey kind) compute r t G.link
      (eq_of_outcomes hout).symm
    refine h.act ((t.onto G.link).block compute r).2 hqs ?_ ?_ _
    · rw [Service.dashboard_eq, Action.runOn_bind, Action.runOn_bind, hrun, hlookUp]
      exact hcompute
    · rw [Service.dashboard_eq, Action.runOn_bind, hrun]
      exact hcomputed ▸ hlinks

theorem Alike.next (h : F.Alike R ps G) (i : Nat) :
    (F.next i).1 = (G.next i).1 ∧ ∃ qs, ps ⊆ qs ∧ (F.next i).2.Alike R qs (G.next i).2 := by
  rcases getElem?_of_forall₂ h.downloads i with ⟨hF, hG⟩ | ⟨t, u, hF, hG, htu⟩
  · rw [next_of_none hF, next_of_none hG]
    exact ⟨rfl, ps, List.Subset.refl ps, h⟩
  · obtain ⟨qs, hqs, hlinks, hout⟩ := TextStream.mirrors_next hR htu.stream F.link G.link h.links
    rw [next_of_ticket hF, next_of_ticket hG]
    obtain ⟨hafter, hanswer⟩ := (htu.mono hqs).after hout
    refine ⟨hanswer, qs, hqs, hlinks, h.service_eq _ _, ?_⟩
    exact forall₂_set (h.downloads.imp fun _ _ => Ticket.Alike.mono hqs) i hafter

theorem Alike.close (h : F.Alike R ps G) (i : Nat) :
    (F.close i).1 = (G.close i).1 ∧ ∃ qs, ps ⊆ qs ∧ (F.close i).2.Alike R qs (G.close i).2 := by
  rcases getElem?_of_forall₂ h.downloads i with ⟨hF, hG⟩ | ⟨t, u, hF, hG, htu⟩
  · rw [close_of_none hF, close_of_none hG]
    exact ⟨rfl, ps, List.Subset.refl ps, h⟩
  · obtain ⟨qs, hqs, hlinks, hout⟩ := TextStream.agree_close hR htu.stream F.link G.link h.links
    rw [close_of_ticket hF, close_of_ticket hG, eq_of_outcomes hout]
    refine ⟨rfl, qs, hqs, hlinks, h.service_eq _ _, ?_⟩
    exact forall₂_set (h.downloads.imp fun _ _ => Ticket.Alike.mono hqs) i ⟨htu.requester, htu.order, htu.chunks, .finished⟩

/-- Every step is answered alike, and the floors stay alike. -/
theorem Alike.step (h : F.Alike R ps G)
    (hproviders : ∀ kind compute, F.service.providers.get? kind = some compute → compute.Converses) (a : Step) :
    (F.step a).1 = (G.step a).1 ∧ ∃ qs, ps ⊆ qs ∧ (F.step a).2.Alike R qs (G.step a).2 := by
  cases a with
  | order r o => exact h.serve hR r o
  | dashboard kind r refresh => exact h.dashboard hR hproviders kind r refresh
  | clearCache pattern =>
      exact h.actOffline (Service.offline_clearCache pattern) fun _ => .nothing
  | store c => exact h.actOffline c.offline_perform .stored
  | pass clock now today writable =>
      refine ⟨rfl, ps, List.Subset.refl ps, h.links, ?_, h.downloads⟩
      show ({ G.service with clock, now, today, writable } : Service σ) = _
      rw [h.service]
      rfl
  | next i => exact h.next hR i
  | close i => exact h.close hR i

/-- Floors that are alike answer the same, whatever is done on them. -/
theorem Alike.run (h : F.Alike R ps G)
    (hproviders : ∀ kind compute, F.service.providers.get? kind = some compute → compute.Converses) (steps : List Step) :
    F.outcomes steps = G.outcomes steps ∧ ∃ qs, (F.after steps).Alike R qs (G.after steps) := by
  induction steps generalizing F G ps with
  | nil => exact ⟨rfl, ps, h⟩
  | cons a steps ih =>
      obtain ⟨hanswer, qs, -, hafter⟩ := h.step hR hproviders a
      obtain ⟨hrest, hend⟩ := ih hafter (by rw [providers_step]; exact hproviders)
      exact ⟨congrArg₂ List.cons hanswer hrest, hend⟩

omit hR in
/-- However orders, dashboards and downloads follow one another on a new floor, each step files the one row that it owes,
or tries to, and does nothing else with the application's database.  What becomes of the rows is nothing that an answer
depends on, nor anything that is left on the floor. -/
theorem audited (F : Floor (Journal σ)) (hdownloads : F.downloads = [])
    (hproviders : ∀ kind compute, F.service.providers.get? kind = some compute → compute.Converses) (steps : List Step) :
    (∃ visits : List (List Entry), (F.after steps).link.server.entries = F.link.server.entries ++ visits.flatten ∧
      List.Forall₂ Settles (F.dues steps) visits) ∧
    ∀ R : Counterparts → Journal σ → Journal σ → Prop, Server.Separates R → ∀ l, F.link.Matches R [] l →
      F.outcomes steps = (F.withLink l).outcomes steps ∧
        ∃ ps, (F.after steps).Alike R ps ((F.withLink l).after steps) := by
  refine ⟨settles_steps ?_ hproviders steps, fun R hR l hl => ?_⟩
  · rw [Consistent, hdownloads]
    exact fun _ h => (nomatch h)
  · have hnew : F.Alike R [] (F.withLink l) := by
      refine ⟨hl, rfl, ?_⟩
      show List.Forall₂ _ F.downloads F.downloads
      rw [hdownloads]
      exact .nil
    exact hnew.run hR hproviders steps

end Floor

/-! ## A ledger that is out of reach at times -/

namespace Ledger

/-- A database at rest, with one for audit rows that is out of reach, or is not, one time after another as it is told. -/
structure Clerk where
  still : Still
  outages : List Bool := []

instance : Server Clerk where
  answer s
    | .connect ⟨_, .application⟩ =>
        (if s.outages.headD false then none else some [], { s with outages := s.outages.tail })
    | call => ((Server.answer s.still call).1, { s with still := (Server.answer s.still call).2 })

theorem Clerk.still_audit (s : Clerk) {call : Call} (h : call.IsAudit) : (Server.answer s call).2.still = s.still := by
  cases call with
  | connect c =>
      obtain ⟨number, site⟩ := c
      cases site <;> rfl
  | execute c s =>
      cases s with
      | recordAudit e => rfl
      | _ => exact h.elim
  | _ => rfl

def SameStill (_ : Counterparts) (j k : Journal Clerk) : Prop := j.server.still = k.server.still

theorem separates_clerks : Server.Separates SameStill where
  connect {ps s t} h := by
    obtain ⟨⟨still, outages⟩, entries⟩ := s
    obtain ⟨⟨still', outages'⟩, entries'⟩ := t
    obtain rfl : still = still' := h
    rintro ⟨c, _⟩ ⟨d, _⟩ name rfl rfl -
    exact ⟨rfl, rfl⟩
  talk {ps s t} h := by
    obtain ⟨⟨still, outages⟩, entries⟩ := s
    obtain ⟨⟨still', outages'⟩, entries'⟩ := t
    obtain rfl : still = still' := h
    intro c d _ k
    cases k with
    | execute s => cases s <;> exact ⟨rfl, rfl⟩
    | _ => exact ⟨rfl, rfl⟩
  left h _ hcall := (Clerk.still_audit _ hcall).trans h
  right h _ hcall := h.trans (Clerk.still_audit _ hcall).symm

def totals : Provider (Journal Clerk) := fun c _ => (Dialogue.ask (.given "SELECT 1") fun _ => .done (.ok (.int 1))).on c

/-- The link to a clerk, and how often it has tried to file a row. -/
def clerkLink (outages : List Bool) : Link (Journal Clerk) :=
  Link.journaled ⟨⟨link.server, outages⟩, 0, [], link.pools⟩

def clerkFloor : Floor (Journal Clerk) where
  service := {
    link := clerkLink []
    policy := desk.policy
    providers := [("sales", totals)]
    today := ⟨2024, 3, 1, Service.isDay_firstOfMarch⟩ }

theorem converses_providers (kind : String) (compute : Provider (Journal Clerk))
    (h : clerkFloor.service.providers.get? kind = some compute) : compute.Converses := by
  obtain ⟨-, rfl⟩ := Prod.mk.inj (List.mem_singleton.mp (Entries.mem_of_get? h))
  exact fun _ => ⟨_, fun _ => rfl⟩

def clerkSteps : List Step := [.dashboard "sales" ⟨"Prod", "weekly", none, none, []⟩ false,
  .order analyst (.exportAll request), .next 0, .order analyst (.rows request (.int 1)),
  .order analyst (.exportCheck request), .next 0, .next 0, .next 0]

/-- The actions whose rows are in the log. -/
def logged (F : Floor (Journal Clerk)) : List String :=
  F.link.server.entries.filterMap fun e =>
    match e.call, e.answer with
    | .execute _ (.recordAudit row), some _ => some row.action
    | _, _ => none

/-- A page is looked at while a download is going on, and the row of the page is lost in an outage. -/
theorem audited_in_outage :
    ((clerkFloor.dues clerkSteps).reduceOption.map fun d => (d.action, d.details)) =
      [(.viewData, none), (.exportAll, some "Exported all 3 rows; filters: none")] ∧
    logged (clerkFloor.after clerkSteps) = ["VIEW_DATA", "EXPORT_ALL"] ∧
    logged ((clerkFloor.withLink (clerkLink [true])).after clerkSteps) = ["EXPORT_ALL"] ∧
    (∃ visits : List (List Entry),
      (clerkFloor.after clerkSteps).link.server.entries = clerkFloor.link.server.entries ++ visits.flatten ∧
        List.Forall₂ Settles (clerkFloor.dues clerkSteps) visits) ∧
    clerkFloor.outcomes clerkSteps = (clerkFloor.withLink (clerkLink [true])).outcomes clerkSteps := by
  obtain ⟨hvisits, halike⟩ := Floor.audited clerkFloor rfl converses_providers clerkSteps
  have hlinks : clerkFloor.link.Matches SameStill [] (clerkLink [true]) := ⟨rfl, rfl, fun _ h => (nomatch h)⟩
  exact ⟨by decide +kernel, by decide +kernel, by decide +kernel, hvisits,
    (halike SameStill separates_clerks _ hlinks).1⟩

end Ledger

end TableSteward

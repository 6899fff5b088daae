import TableSteward.Database.Audit
import TableSteward.Proofs.Journal
import TableSteward.Proofs.Receiver

/-!
# Rows that are fetched

`Fetches` relates the outcome of a computation to the number of rows that cursors gave while it ran.  Hardly
anything fetches rows; a download does, and the data lines that its receiver gets are the rows that were fetched
for it.
-/
set_option autoImplicit false

namespace TableSteward

/-- The rows that a cursor gave in answer to a call. -/
def Entry.fetched (e : Entry) : Nat :=
  match e.call, e.answer with
  | .execute _ (.fetch _), some rows => rows.length
  | _, _ => 0

def fetchedRows : List Entry → Nat
  | [] => 0
  | e :: js => e.fetched + fetchedRows js

theorem fetchedRows_append (js js' : List Entry) :
    fetchedRows (js ++ js') = fetchedRows js + fetchedRows js' := by
  induction js with
  | nil => exact (Nat.zero_add _).symm
  | cons e js ih =>
      rw [List.cons_append, fetchedRows, fetchedRows, ih, Nat.add_assoc]

def Statement.isFetch : Statement → Bool
  | .fetch _ => true
  | _ => false

namespace Exchange

variable {σ α β : Type}

/-- From every link, the computation adds some entries to the journal, and the number of rows that were fetched
in them stands in this relation to its outcome. -/
def Fetches (x : Exchange (Journal σ) α) (C : Result α → Nat → Prop) : Prop :=
  ∀ l, ∃ new, (x.runOn l).2.server.entries = l.server.entries ++ new ∧
    C (x.runOn l).1 (fetchedRows new)

def Quiet (x : Exchange (Journal σ) α) : Prop := Fetches x fun _ n => n = 0

variable {C : Result α → Nat → Prop} {D : Result β → Nat → Prop}

/-! ## Sequences -/

theorem fetches_pure {a : α} (h : C (.ok a) 0) : Fetches (pure a : Exchange (Journal σ) α) C :=
  fun _ => ⟨[], (List.append_nil _).symm, h⟩

theorem fetches_throw {f : Fault} (h : C (.error f) 0) :
    Fetches (throw f : Exchange (Journal σ) α) C :=
  fun _ => ⟨[], (List.append_nil _).symm, h⟩

theorem fetches_lift (r : Result α) (h : C r 0) : Fetches (lift r : Exchange (Journal σ) α) C := by
  cases r with
  | ok a => exact fetches_pure h
  | error f => exact fetches_throw h

theorem fetches_lift_same (r : Result α) :
    Fetches (lift r : Exchange (Journal σ) α) fun r' n => n = 0 ∧ r = r' := fetches_lift r ⟨rfl, rfl⟩

theorem Fetches.weaken {C' : Result α → Nat → Prop} {x : Exchange (Journal σ) α} (h : Fetches x C)
    (hC : ∀ r n, C r n → C' r n) : Fetches x C' := by
  intro l
  obtain ⟨new, hnew, hvalue⟩ := h l
  exact ⟨new, hnew, hC _ _ hvalue⟩

theorem Fetches.bind {x : Exchange (Journal σ) α} {k : α → Exchange (Journal σ) β} (hx : Fetches x C)
    (hok : ∀ a n, C (.ok a) n → Fetches (k a) fun r m => D r (n + m))
    (herror : ∀ f n, C (.error f) n → D (.error f) n) : Fetches (x >>= k) D := by
  intro l
  obtain ⟨new, hnew, hvalue⟩ := hx l
  rw [runOn_bind]
  rcases hrun : x.runOn l with ⟨r, m⟩
  rw [hrun] at hnew hvalue
  cases r with
  | error f => exact ⟨new, hnew, herror f _ hvalue⟩
  | ok a =>
      obtain ⟨later, hlater, hvalue'⟩ := hok a _ hvalue m
      refine ⟨new ++ later, ?_, ?_⟩
      · rw [← List.append_assoc, ← hnew]
        exact hlater
      · rw [fetchedRows_append]
        exact hvalue'

theorem Quiet.bind {x : Exchange (Journal σ) α} {k : α → Exchange (Journal σ) β} (hx : Quiet x)
    (hok : ∀ a, Fetches (k a) D) (herror : ∀ f, D (.error f) 0) : Fetches (x >>= k) D := by
  refine Fetches.bind hx ?_ ?_
  · rintro a n rfl
    exact (hok a).weaken fun r m h => by rwa [Nat.zero_add]
  · rintro f n rfl
    exact herror f

theorem Quiet.andThen {x : Exchange (Journal σ) α} {k : α → Exchange (Journal σ) β} (hx : Quiet x)
    (hk : ∀ a, Quiet (k a)) : Quiet (x >>= k) := hx.bind hk fun _ => rfl

theorem Quiet.prolongs {x : Exchange (Journal σ) α} (h : Quiet x) (l : Link (Journal σ)) :
    l.server.entries <+: (x.runOn l).2.server.entries := by
  obtain ⟨new, hnew, -⟩ := h l
  exact ⟨new, hnew.symm⟩

theorem fetches_attempt {x : Exchange (Journal σ) α} (hx : Fetches x C) :
    Fetches (attempt x) fun r n => ∃ outcome, r = .ok outcome ∧ C outcome n := by
  intro l
  obtain ⟨new, hnew, hvalue⟩ := hx l
  rw [runOn_attempt]
  exact ⟨new, hnew, _, rfl, hvalue⟩

theorem quiet_attempt {x : Exchange (Journal σ) α} (hx : Quiet x) : Quiet (attempt x) :=
  (fetches_attempt hx).weaken fun _ _ ⟨_, _, h⟩ => h

theorem quiet_discard {x : Exchange (Journal σ) α} (hx : Quiet x) : Quiet (discard x) := by
  intro l
  rw [runOn_discard]
  exact hx l

theorem quiet_reporting (task : FailedTask) {x : Exchange (Journal σ) α} (hx : Quiet x) :
    Quiet (reporting task x) := by
  intro l
  rw [runOn_reporting]
  exact hx l

theorem quiet_of_server_eq {x : Exchange (Journal σ) α}
    (h : ∀ l, (x.runOn l).2.server = l.server) : Quiet x := by
  intro l
  rw [h l]
  exact ⟨[], (List.append_nil _).symm, rfl⟩

theorem quiet_note (e : Event) : Quiet (σ := σ) (note e) := quiet_of_server_eq fun _ => rfl

/-! ## Calls -/

section Calls

variable [Server σ]

theorem quiet_ask (call : Call) (h : ∀ c s, call = .execute c s → s.isFetch = false) :
    Quiet (σ := σ) (ask call) := by
  intro l
  rw [runOn_ask]
  refine ⟨_, Journal.answer_entries _ _, ?_⟩
  cases call with
  | execute c s =>
      cases s with
      | fetch size => exact nomatch h c _ rfl
      | _ => rfl
  | connect _ | begin _ | commit _ | rollback _ => rfl

theorem quiet_execute (c : Connection) {s : Statement} (h : s.isFetch = false) :
    Quiet (σ := σ) (execute c s) := by
  refine (quiet_note _).andThen fun _ => quiet_ask _ ?_
  intro _ _ hsame
  cases hsame
  exact h

theorem fetches_fetch (c : Connection) (size : Int) :
    Fetches (σ := σ) (execute c (.fetch size)) fun r n => ∀ rows, r = .ok rows → n = rows.length := by
  refine (quiet_note _).bind (fun _ => ?_) (fun _ _ h => nomatch h)
  intro l
  rw [runOn_ask]
  refine ⟨_, Journal.answer_entries _ _, ?_⟩
  intro rows hrows
  cases hanswer : (Server.answer l.server (.execute c (.fetch size))).1 with
  | none =>
      rw [hanswer] at hrows
      exact nomatch hrows
  | some answered =>
      rw [hanswer] at hrows
      cases hrows
      simp [fetchedRows, Entry.fetched]

theorem quiet_begin (c : Connection) : Quiet (σ := σ) (begin c) :=
  (quiet_discard (quiet_ask (.begin c) fun _ _ h => nomatch h)).andThen fun _ => quiet_note _

theorem quiet_commit (c : Connection) : Quiet (σ := σ) (commit c) :=
  (quiet_discard (quiet_ask (.commit c) fun _ _ h => nomatch h)).andThen fun _ => quiet_note _

theorem quiet_rollback (c : Connection) : Quiet (σ := σ) (rollback c) :=
  (quiet_discard (quiet_ask (.rollback c) fun _ _ h => nomatch h)).andThen fun _ => quiet_note _

theorem quiet_connect (site : Site) : Quiet (σ := σ) (connect site) := by
  unfold connect
  refine (quiet_of_server_eq fun _ => rfl).andThen fun l => ?_
  refine (quiet_discard (quiet_ask (.connect _) fun _ _ h => nomatch h)).andThen fun _ => ?_
  refine (quiet_of_server_eq fun _ => rfl).andThen fun _ => ?_
  exact (quiet_note _).andThen fun _ => fetches_pure rfl

theorem quiet_onConnection {site : Site} {body : Connection → Exchange (Journal σ) α}
    (hbody : ∀ c, Quiet (body c)) : Quiet (onConnection site body) := by
  refine (quiet_connect site).andThen fun c => ?_
  refine (quiet_attempt (hbody c)).andThen fun r => ?_
  exact (quiet_note _).andThen fun _ => fetches_lift r rfl

end Calls

end Exchange

open Exchange

variable {σ : Type} [Server σ]

theorem Audit.quiet_record (e : AuditEntry) : Quiet (σ := σ) (Audit.record e) :=
  quiet_discard <| quiet_attempt <| quiet_onConnection fun c =>
    (quiet_discard (quiet_execute c rfl)).andThen fun _ => quiet_commit c

/-! ## Downloads -/

namespace CursorExport

variable {e : CursorExport (Journal σ)}

theorem quiet_abandon (c : Connection) (begun : Bool) : Quiet (σ := σ) (abandon c begun) := by
  cases begun with
  | false => exact quiet_note _
  | true =>
      exact (quiet_discard (quiet_attempt (quiet_rollback c))).andThen fun _ => quiet_note _

/-- A fault stays a fault, with the rows that were fetched before it. -/
theorem fetches_guarded {α : Type} {C : Result α → Nat → Prop} {c : Connection}
    {body : Exchange (Journal σ) α} (hbody : Fetches body C)
    (herror : ∀ f g n, C (.error f) n → C (.error g) n) : Fetches (guarded c body) C := by
  unfold guarded
  refine (fetches_attempt hbody).bind ?_ (fun f n h => nomatch h)
  rintro outcome n ⟨_, ⟨⟩, h⟩
  cases outcome with
  | ok a => exact fetches_pure h
  | error f =>
      refine (quiet_abandon c true).bind (fun _ => ?_) (fun g => herror f g n h)
      rw [reporting_throw]
      exact fetches_throw (herror f _ n h)

theorem quiet_openCursor (c : Connection) : Quiet (e.openCursor c) := by
  unfold openCursor
  refine (quiet_attempt (quiet_begin c)).andThen fun outcome => ?_
  cases outcome with
  | error f => exact (quiet_abandon c false).andThen fun _ => quiet_reporting _ (fetches_throw rfl)
  | ok _ =>
      refine fetches_guarded ?_ fun _ _ _ h => h
      refine (quiet_discard (quiet_execute c rfl)).andThen fun _ => ?_
      exact quiet_discard (quiet_execute c rfl)

/-- A batch of some rows is rendered to as many records. -/
def BatchOf : Result (Option (Nat × String)) → Nat → Prop
  | .ok (some (_, chunk)), n =>
      ∀ tail, Csv.recordsFrom false (chunk.toList ++ tail) = Csv.recordsFrom false tail + n
  | .ok none, n => n = 0
  | .error _, _ => True

/-- What the next chunk holds: a record for each row that was fetched for it, until there are no more. -/
def ChunkOf (e : CursorExport (Journal σ)) (c : Connection) :
    Result (Option String × TextStream (Journal σ)) → Nat → Prop
  | .ok (some chunk, rest), n =>
      (∃ written, rest = .cursor e (.reading c written)) ∧
        ∀ tail, Csv.recordsFrom false (chunk.toList ++ tail) = Csv.recordsFrom false tail + n
  | .ok (none, _), n => n = 0
  | .error _, _ => True

theorem fetches_batch (c : Connection) (size : Int) (columns : List Value) :
    Fetches (σ := σ) (batch c size columns) BatchOf := by
  refine fetches_guarded ?_ fun _ _ _ _ => trivial
  refine (fetches_fetch c size).bind ?_ fun _ _ _ => trivial
  intro rows n hn
  obtain rfl : n = rows.length := hn rows rfl
  cases rows with
  | nil =>
      refine (quiet_discard (quiet_execute c rfl)).bind (fun _ => ?_) fun _ => trivial
      exact (quiet_commit c).bind (fun _ => fetches_pure rfl) fun _ => trivial
  | cons row rest =>
      refine (fetches_lift_same _).bind ?_ fun _ _ _ => trivial
      rintro lines m ⟨rfl, hlines⟩
      exact fetches_pure (Csv.recordsFrom_join hlines)

theorem fetches_readBatch (hcomplete : ∀ written, Quiet (e.onComplete written)) (c : Connection)
    (written : Nat) : Fetches (e.readBatch c written) (ChunkOf e c) := by
  rw [readBatch_eq]
  refine (fetches_batch c _ _).bind ?_ fun _ _ _ => trivial
  rintro (_ | ⟨count, chunk⟩) n hn
  · obtain rfl : n = 0 := hn
    refine (quiet_note _).bind (fun _ => ?_) fun _ => trivial
    exact (hcomplete written).bind (fun _ => fetches_pure rfl) fun _ => trivial
  · exact fetches_pure ⟨⟨_, rfl⟩, hn⟩

theorem fetches_next {phase : CursorPhase} {c : Connection}
    (hcomplete : ∀ written, Quiet (e.onComplete written))
    (hphase : phase = .headed c ∨ ∃ written, phase = .reading c written) :
    Fetches (e.next phase) (ChunkOf e c) := by
  rcases hphase with rfl | ⟨written, rfl⟩
  · exact (quiet_openCursor c).bind (fun _ => fetches_readBatch hcomplete c 0) fun _ => trivial
  · exact fetches_readBatch hcomplete c written

theorem fetches_header (e : CursorExport (Journal σ)) :
    Fetches (e.next .waiting) fun r n => n = 0 ∧ ∀ out, r = .ok out → ∃ chunk c,
      out = (some chunk, .cursor e (.headed c)) ∧
        ∀ tail, Csv.recordsFrom false (chunk.toList ++ tail) = Csv.recordsFrom false tail + 1 := by
  unfold next
  refine (quiet_connect e.site).bind (fun c => ?_) fun _ => ⟨rfl, fun _ h => nomatch h⟩
  rcases hheader : Csv.header e.columns with f | header
  · refine (quiet_abandon c false).bind (fun _ => ?_) fun _ => ⟨rfl, fun _ h => nomatch h⟩
    exact fetches_throw ⟨rfl, fun _ h => nomatch h⟩
  · refine fetches_pure ⟨rfl, ?_⟩
    intro _ hsame
    cases hsame
    exact ⟨header, c, rfl, Csv.recordsFrom_line hheader⟩

end CursorExport

/-- The records of a delivery, next to the number of rows that were fetched meanwhile: as many, unless a fault
kept the last rows back. -/
def Tallies (records : Nat) (ending : Ending) (fetched : Nat) : Prop :=
  records ≤ fetched ∧ ((∀ f, ending ≠ .failed f) → records = fetched)

namespace TextStream

open CursorExport

variable {e : CursorExport (Journal σ)}

theorem quiet_close (s : TextStream (Journal σ)) : Quiet s.close := by
  cases s with
  | cursor e phase =>
      cases phase with
      | waiting => exact fetches_pure rfl
      | headed c => exact quiet_abandon c false
      | reading c written => exact quiet_abandon c true
  | records _ _ _ => exact fetches_pure rfl
  | finished => exact fetches_pure rfl

theorem fetches_receive {c : Connection} (hcomplete : ∀ written, Quiet (e.onComplete written)) :
    ∀ (patience : Nat) (phase : CursorPhase),
      (phase = .headed c ∨ ∃ written, phase = .reading c written) →
      Fetches ((cursor e phase).receive patience) fun r n =>
        ∀ d, r = .ok d → Tallies (Csv.records d.text) d.ending n := by
  -- Every chunk adds as many records as rows; only a fault can part the two.
  intro patience
  induction patience with
  | zero =>
      intro phase _
      refine (quiet_close _).bind (fun _ => ?_) fun _ _ h => nomatch h
      refine fetches_pure ?_
      intro _ hsame
      cases hsame
      exact ⟨Nat.le_refl 0, fun _ => rfl⟩
  | succ patience ih =>
      intro phase hphase
      unfold receive
      refine (fetches_attempt (fetches_next hcomplete hphase)).bind ?_ fun _ _ _ _ h => nomatch h
      rintro outcome n ⟨_, ⟨⟩, hnext⟩
      rcases outcome with f | ⟨_ | chunk, rest⟩
      · refine fetches_pure ?_
        intro _ hsame
        cases hsame
        exact ⟨Nat.zero_le _, fun h => absurd rfl (h f)⟩
      · obtain rfl : n = 0 := hnext
        refine fetches_pure ?_
        intro _ hsame
        cases hsame
        exact ⟨Nat.le_refl 0, fun _ => rfl⟩
      · obtain ⟨⟨written, rfl⟩, hchunk⟩ := hnext
        refine (ih _ (Or.inr ⟨written, rfl⟩)).bind ?_ fun _ _ _ _ h => nomatch h
        intro d m hd
        refine fetches_pure ?_
        intro _ hsame
        cases hsame
        obtain ⟨hle, heq⟩ := hd d rfl
        rw [Delivery.records_after d hchunk]
        refine ⟨by omega, fun hended => ?_⟩
        have hsame := heq hended
        omega

theorem fetches_receive_waiting (hcomplete : ∀ written, Quiet (e.onComplete written))
    (patience : Nat) :
    Fetches ((cursor e .waiting).receive patience) fun r n =>
      ∀ d, r = .ok d → Tallies d.dataLines d.ending n := by
  cases patience with
  | zero =>
      refine fetches_pure ?_
      intro _ hsame
      cases hsame
      exact ⟨Nat.le_refl 0, fun _ => rfl⟩
  | succ patience =>
      unfold receive
      refine (fetches_attempt (fetches_header e)).bind ?_ fun _ _ _ _ h => nomatch h
      rintro outcome n ⟨_, ⟨⟩, rfl, hheader⟩
      cases outcome with
      | error f =>
          refine fetches_pure ?_
          intro _ hsame
          cases hsame
          exact ⟨Nat.le_refl 0, fun _ => rfl⟩
      | ok out =>
          obtain ⟨chunk, c, rfl, hchunk⟩ := hheader out rfl
          refine (fetches_receive hcomplete patience _ (Or.inl rfl)).bind ?_ fun _ _ _ _ h => nomatch h
          intro d m hd
          refine fetches_pure ?_
          intro _ hsame
          cases hsame
          obtain ⟨hle, heq⟩ := hd d rfl
          unfold Delivery.dataLines
          rw [Delivery.records_after d hchunk]
          refine ⟨by omega, fun hended => ?_⟩
          have hsame := heq hended
          omega

end TextStream

end TableSteward

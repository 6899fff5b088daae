import TableSteward.Proofs.Footprint
import TableSteward.Proofs.Sheet

/-!
# The course of an export

All that can happen on the connection of a full export, call by call: `Course` lists the sequences of calls, from
the beginning of the transaction to its end, with the batches that were delivered meanwhile.  Each step of a stream
adds the calls of one batch or closes the course, whichever calls fail and whenever the receiver gives up.
-/
set_option autoImplicit false

namespace TableSteward

open Exchange

namespace CursorExport

def fetched (c : Connection) (size : Int) (rows : List Row) : Entry :=
  ⟨.execute c (.fetch size), some rows⟩

/-- The calls after the last batch that was delivered, and whether they complete the export. -/
inductive Closing (c : Connection) (size : Int) : Bool → List Entry → Prop
  | complete (x y : List Row) :
      Closing c size true [fetched c size [], ⟨.execute c .closeCursor, some x⟩, ⟨.commit c, some y⟩]
  | givenUp (z : Option (List Row)) : Closing c size false [⟨.rollback c, z⟩]
  | notFetched (z : Option (List Row)) :
      Closing c size false [⟨.execute c (.fetch size), none⟩, ⟨.rollback c, z⟩]
  | notRendered (rows : List Row) (z : Option (List Row)) :
      Closing c size false [fetched c size rows, ⟨.rollback c, z⟩]
  | notClosed (z : Option (List Row)) :
      Closing c size false
        [fetched c size [], ⟨.execute c .closeCursor, none⟩, ⟨.rollback c, z⟩]
  | notCommitted (x : List Row) (z : Option (List Row)) :
      Closing c size false
        [fetched c size [], ⟨.execute c .closeCursor, some x⟩, ⟨.commit c, none⟩, ⟨.rollback c, z⟩]

/-- The calls on an open connection, with the batches that were delivered. -/
inductive Course {σ : Type} (e : CursorExport σ) (c : Connection) :
    Bool → List (List Row) → List Entry → Prop
  | notBegun : Course e c false [] []
  | beginFailed : Course e c false [] [⟨.begin c, none⟩]
  | readOnlyFailed (x : List Row) (z : Option (List Row)) :
      Course e c false [] [⟨.begin c, some x⟩, ⟨.execute c .readOnly, none⟩, ⟨.rollback c, z⟩]
  | declareFailed (x y : List Row) (z : Option (List Row)) :
      Course e c false []
        [⟨.begin c, some x⟩, ⟨.execute c .readOnly, some y⟩, ⟨.execute c (.declareCursor e.query), none⟩,
          ⟨.rollback c, z⟩]
  | read (x y z : List Row) {complete : Bool} {batches : List (List Row)} {closing : List Entry} :
      (∀ rows ∈ batches, rows ≠ []) → Closing c e.batchSize complete closing →
      Course e c complete batches
        (⟨.begin c, some x⟩ :: ⟨.execute c .readOnly, some y⟩ ::
          ⟨.execute c (.declareCursor e.query), some z⟩ ::
          (batches.map (fetched c e.batchSize) ++ closing))

/-- A delivery of the batches that were fetched, and the calls that came after them. -/
structure Reads {σ : Type} (e : CursorExport σ) (c : Connection) (d : Delivery)
    (batches : List (List Row)) (closing : List Entry) : Prop where
  filled : ∀ rows ∈ batches, rows ≠ []
  closing : Closing c e.batchSize (decide (d.ending = .complete)) closing
  text : Csv.body e.columns batches.flatten = .ok d.text

namespace Reads

variable {σ : Type} {e : CursorExport σ} {c : Connection} {closing : List Entry}

theorem ended {ending : Ending}
    (h : Closing c e.batchSize (decide (ending = .complete)) closing) :
    Reads e c ⟨[], ending⟩ [] closing :=
  ⟨fun _ h => (List.not_mem_nil h).elim, h, rfl⟩

theorem after {rows : List Row} {chunk : String} {d : Delivery} {batches : List (List Row)}
    (hrows : rows ≠ []) (hbody : Csv.body e.columns rows = .ok chunk) (h : Reads e c d batches closing) :
    Reads e c (d.after chunk) (rows :: batches) closing := by
  refine ⟨?_, h.closing, ?_⟩
  · intro batch hbatch
    rcases List.mem_cons.mp hbatch with rfl | hbatch
    · exact hrows
    · exact h.filled batch hbatch
  · rw [List.flatten_cons, Csv.body_append, hbody, h.text]
    exact congrArg Except.ok (String.join_cons ..).symm

end Reads

variable {σ : Type} [Server σ]

/-! ## One step -/

theorem leaves_abandon (c : Connection) :
    Leaves (σ := σ) (abandon c true) fun r p =>
      r = .ok () ∧ ∃ z, p = ⟨[⟨.rollback c, z⟩], [c]⟩ := by
  refine (leaves_discard (leaves_attempt (leaves_rollback c))).bind ?_ ?_
  · rintro _ p ⟨_, -, _, -, hp⟩
    refine (leaves_close c).weaken ?_
    rintro _ _ ⟨rfl, rfl⟩
    cases hp with
    | answered rows => exact ⟨rfl, _, rfl⟩
    | failed => exact ⟨rfl, _, rfl⟩
  · rintro f p ⟨_, hf, _, rfl, -⟩
    exact nomatch hf

/-- A fault is followed by an attempt to roll back and by the closing of the connection. -/
theorem leaves_guarded {α : Type} {c : Connection} {body : Exchange (Journal σ) α}
    {C D : Result α → Footprint → Prop} (hbody : Leaves body C) (hok : ∀ a p, C (.ok a) p → D (.ok a) p)
    (herror : ∀ f g p z, C (.error f) p → D (.error g) (p ++ ⟨[⟨.rollback c, z⟩], [c]⟩)) :
    Leaves (guarded c body) D := by
  unfold guarded
  refine (leaves_attempt hbody).bind ?_ (fun f p h => nomatch h)
  rintro outcome p ⟨_, ⟨⟩, h⟩
  cases outcome with
  | ok a =>
      refine leaves_pure ?_
      rw [Footprint.append_empty]
      exact hok a p h
  | error f =>
      refine (leaves_abandon c).bind ?_ ?_
      · rintro _ _ ⟨-, z, rfl⟩
        rw [reporting_throw]
        refine leaves_throw ?_
        rw [Footprint.append_empty]
        exact herror f _ p z h
      · rintro g q ⟨hg, -⟩
        exact nomatch hg

/-- A cursor that has been opened, or a course that ended before that. -/
inductive Opening (e : CursorExport (Journal σ)) (c : Connection) : Result Unit → Footprint → Prop
  | opened (x y z : List Row) :
      Opening e c (.ok ()) ⟨[⟨.begin c, some x⟩, ⟨.execute c .readOnly, some y⟩,
        ⟨.execute c (.declareCursor e.query), some z⟩], []⟩
  | failed (f : Fault) {calls : List Entry} :
      Course e c false [] calls → Opening e c (.error f) ⟨calls, [c]⟩

theorem leaves_openCursor (e : CursorExport (Journal σ)) (c : Connection) :
    Leaves (e.openCursor c) (Opening e c) := by
  unfold openCursor
  refine (leaves_attempt (leaves_begin c)).bind ?_ fun _ _ h => nomatch h
  rintro _ _ ⟨_, ⟨⟩, (x | _)⟩
  · -- After the beginning, only the two statements remain to be followed.
    refine leaves_guarded (C := fun r p =>
      (∃ y z, r = .ok () ∧ p = ⟨[⟨.execute c .readOnly, some y⟩,
        ⟨.execute c (.declareCursor e.query), some z⟩], []⟩) ∨
      (∃ f, r = .error f ∧ (p = ⟨[⟨.execute c .readOnly, none⟩], []⟩ ∨
        ∃ y, p = ⟨[⟨.execute c .readOnly, some y⟩,
          ⟨.execute c (.declareCursor e.query), none⟩], []⟩))) ?_ ?_ ?_
    · refine (leaves_execute c .readOnly).discarded.bind ?_ ?_
      · rintro _ _ (y | _)
        refine (leaves_execute c (.declareCursor e.query)).discarded.weaken ?_
        rintro _ _ (z | _)
        · exact .inl ⟨y, z, rfl, rfl⟩
        · exact .inr ⟨_, rfl, .inr ⟨y, rfl⟩⟩
      · rintro _ _ (_ | _)
        exact .inr ⟨_, rfl, .inl rfl⟩
    · rintro _ _ (⟨y, z, -, rfl⟩ | ⟨_, ⟨⟩, -⟩)
      exact .opened x y z
    · rintro _ g _ z (⟨_, _, ⟨⟩, -⟩ | ⟨_, -, rfl | ⟨y, rfl⟩⟩)
      · exact .failed g (.readOnlyFailed x z)
      · exact .failed g (.declareFailed x y z)
  · refine (leaves_close c).bind ?_ fun _ _ h => nomatch h.1
    rintro _ _ ⟨-, rfl⟩
    rw [reporting_throw]
    refine leaves_throw ?_
    exact .failed _ .beginFailed

/-- A batch that was rendered, the end of the cursor and of the transaction, or a fault. -/
inductive Batched (c : Connection) (size : Int) (columns : List Value) :
    Result (Option (Nat × String)) → Footprint → Prop
  | rendered {rows : List Row} {chunk : String} : rows ≠ [] → Csv.body columns rows = .ok chunk →
      Batched c size columns (.ok (some (rows.length, chunk))) ⟨[fetched c size rows], []⟩
  | atEnd {closing : List Entry} : Closing c size true closing →
      Batched c size columns (.ok none) ⟨closing, []⟩
  | failed (f : Fault) {closing : List Entry} : Closing c size false closing →
      Batched c size columns (.error f) ⟨closing, [c]⟩

theorem leaves_batch (c : Connection) (size : Int) (columns : List Value) :
    Leaves (σ := σ) (batch c size columns) (Batched c size columns) := by
  -- Before the transaction is rolled back, a fault lacks the last of its calls.
  refine leaves_guarded (C := fun r p =>
    match r with
    | .ok out => Batched c size columns (.ok out) p
    | .error _ => p.closed = [] ∧ ∀ z, Closing c size false (p.calls ++ [⟨.rollback c, z⟩]))
    ?_ (fun _ _ h => h) ?_
  · refine (leaves_execute c (.fetch size)).bind ?_ ?_
    · rintro _ _ (rows | _)
      dsimp only [id_eq]
      cases rows with
      | nil =>
          refine (leaves_execute c .closeCursor).discarded.bind ?_ ?_
          · rintro _ _ (x | _)
            refine (leaves_commit c).bind ?_ ?_
            · rintro _ _ (y | _)
              exact leaves_pure (.atEnd (.complete x y))
            · rintro _ _ (_ | _)
              exact ⟨rfl, fun z => .notCommitted x z⟩
          · rintro _ _ (_ | _)
            exact ⟨rfl, fun z => .notClosed z⟩
      | cons row rest =>
          dsimp only
          rcases hlines : (row :: rest).mapM (Csv.rowLine columns) with f | lines
          · exact leaves_throw ⟨rfl, fun z => .notRendered _ z⟩
          · have hbody : Csv.body columns (row :: rest) = .ok (String.join lines) := by
              rw [Csv.body, hlines]
              rfl
            exact leaves_pure (.rendered (List.cons_ne_nil _ _) hbody)
    · rintro _ _ (_ | _)
      exact ⟨rfl, fun z => .notFetched z⟩
  · rintro f g ⟨calls, closed⟩ z ⟨rfl, hclosing⟩
    exact .failed g (hclosing z)

/-! ## A whole run -/

/-- The export with nothing to be done at its end. -/
def silent (e : CursorExport (Journal σ)) : CursorExport (Journal σ) :=
  { e with onComplete := fun _ => pure () }

/-- The next chunk, the end of the stream, or a fault. -/
inductive Stepped (e : CursorExport (Journal σ)) (c : Connection) (written : Nat) :
    Result (Option String × TextStream (Journal σ)) → Footprint → Prop
  | chunk {rows : List Row} {chunk : String} : rows ≠ [] → Csv.body e.columns rows = .ok chunk →
      Stepped e c written
        (.ok (some chunk, .cursor e.silent (.reading c (written + rows.length))))
        ⟨[fetched c e.batchSize rows], []⟩
  | complete {closing : List Entry} : Closing c e.batchSize true closing →
      Stepped e c written (.ok (none, .finished)) ⟨closing, [c]⟩
  | failed (f : Fault) {closing : List Entry} : Closing c e.batchSize false closing →
      Stepped e c written (.error f) ⟨closing, [c]⟩

theorem leaves_readBatch (e : CursorExport (Journal σ)) (c : Connection) (written : Nat) :
    Leaves (e.silent.readBatch c written) (Stepped e c written) := by
  rw [readBatch_eq]
  refine (leaves_batch c _ _).bind ?_ ?_
  · rintro _ _ (⟨hrows, hbody⟩ | hclosing | _)
    · exact leaves_pure (.chunk hrows hbody)
    · refine (leaves_close c).bind ?_ fun _ _ h => nomatch h.1
      rintro _ _ ⟨-, rfl⟩
      refine leaves_pure ?_
      rw [Footprint.append_empty, Footprint.append_mk, List.append_nil, List.nil_append]
      exact .complete hclosing
  · rintro f _ (_ | _ | ⟨_, hclosing⟩)
    exact .failed f hclosing

theorem leaves_receive_reading (e : CursorExport (Journal σ)) (c : Connection) :
    ∀ (patience written : Nat),
      Leaves (TextStream.receive patience (.cursor e.silent (.reading c written))) fun r p =>
        ∃ d batches closing, r = .ok d ∧ Reads e c d batches closing ∧
          p = ⟨batches.map (fetched c e.batchSize) ++ closing, [c]⟩ := by
  intro patience
  induction patience with
  | zero =>
      intro written
      refine (leaves_abandon c).bind ?_ (by rintro _ _ ⟨⟨⟩, -⟩)
      rintro _ _ ⟨-, z, rfl⟩
      exact leaves_pure ⟨_, [], _, rfl, .ended (.givenUp z), rfl⟩
  | succ patience ih =>
      intro written
      unfold TextStream.receive
      have hstep : Leaves (TextStream.cursor e.silent (.reading c written)).next
          (Stepped e c written) := leaves_readBatch e c written
      refine (leaves_attempt hstep).bind ?_ (by rintro _ _ ⟨_, ⟨⟩, -⟩)
      rintro _ _ ⟨_, ⟨⟩, (⟨hrows, hbody⟩ | hclosing | ⟨f, hclosing⟩)⟩
      · refine (ih _).bind ?_ (by rintro _ _ ⟨_, _, _, ⟨⟩, -⟩)
        rintro d _ ⟨_, batches, closing, ⟨⟩, hreads, rfl⟩
        refine leaves_pure ⟨_, _, closing, rfl, hreads.after hrows hbody, ?_⟩
        rw [Footprint.append_empty, Footprint.append_mk, List.nil_append, List.map_cons]
        rfl
      · refine leaves_pure ⟨_, [], _, rfl, .ended hclosing, ?_⟩
        exact Footprint.append_empty _
      · refine leaves_pure ⟨_, [], _, rfl, .ended hclosing, ?_⟩
        exact Footprint.append_empty _

/-- To go on from the header is to open the cursor and then to go on as after any batch. -/
theorem runOn_receive_headed (e : CursorExport (Journal σ)) (c : Connection) (patience : Nat)
    (l : Link (Journal σ)) :
    runOn (TextStream.receive (patience + 1) (.cursor e (.headed c))) l =
      match runOn (e.openCursor c) l with
      | (.error f, m) => (.ok ⟨[], .failed f⟩, m)
      | (.ok (), m) => runOn (TextStream.receive (patience + 1) (.cursor e (.reading c 0))) m := by
  rw [TextStream.runOn_receive_succ, TextStream.next, next, runOn_bind]
  rcases runOn (e.openCursor c) l with ⟨_ | _, m⟩
  · rfl
  · dsimp only
    rw [TextStream.runOn_receive_succ, TextStream.next, next]

theorem leaves_receive_headed (e : CursorExport (Journal σ)) (c : Connection) (patience : Nat) :
    Leaves (TextStream.receive patience (.cursor e.silent (.headed c))) fun r p =>
      ∃ d batches calls, r = .ok d ∧ Course e c (decide (d.ending = .complete)) batches calls ∧
        Csv.body e.columns batches.flatten = .ok d.text ∧ p = ⟨calls, [c]⟩ := by
  cases patience with
  | zero =>
      refine (leaves_close c).bind ?_ fun _ _ h => nomatch h.1
      rintro _ _ ⟨-, rfl⟩
      exact leaves_pure ⟨_, [], _, rfl, .notBegun, rfl, rfl⟩
  | succ patience =>
      intro l
      rw [runOn_receive_headed]
      obtain ⟨p, hp, hopening⟩ := leaves_openCursor e.silent c l
      rcases hrun : runOn (e.silent.openCursor c) l with ⟨outcome, m⟩
      rw [hrun] at hp hopening
      cases hopening with
      | opened x y z =>
          obtain ⟨q, hq, d, batches, closing, hd, hreads, rfl⟩ :=
            leaves_receive_reading e c (patience + 1) 0 m
          refine ⟨_, hp.trans hq, d, batches, _, hd, ?_, hreads.text, rfl⟩
          exact .read x y z hreads.filled hreads.closing
      | failed f hcourse =>
          refine ⟨_, hp, _, [], _, rfl, ?_, rfl, rfl⟩
          cases hcourse with
          | notBegun => exact .notBegun
          | beginFailed => exact .beginFailed
          | readOnlyFailed x z => exact .readOnlyFailed x z
          | declareFailed x y z => exact .declareFailed x y z
          | read x y z hfilled hclosing => exact .read x y z hfilled hclosing

/-- What can become of an export. -/
inductive Exported (e : CursorExport σ) : Delivery → Footprint → Prop
  | untouched : Exported e ⟨[], .givenUp⟩ {}
  | notConnected (c : Connection) (f : Fault) :
      Exported e ⟨[], .failed f⟩ ⟨[⟨.connect c, none⟩], []⟩
  | notHeaded (c : Connection) (x : List Row) (f : Fault) :
      Exported e ⟨[], .failed f⟩ ⟨[⟨.connect c, some x⟩], [c]⟩
  | headed (c : Connection) (x : List Row) {d : Delivery} {batches : List (List Row)}
      {calls : List Entry} :
      Course e c (decide (d.ending = .complete)) batches calls →
      Csv.sheet e.columns batches.flatten = .ok d.text →
      Exported e d ⟨⟨.connect c, some x⟩ :: calls, [c]⟩

theorem leaves_receive (e : CursorExport (Journal σ)) (patience : Nat) :
    Leaves (TextStream.receive patience (.cursor e.silent .waiting)) fun r p =>
      ∃ d, r = .ok d ∧ Exported e d p ∧ (patience = 0 → p = {}) := by
  cases patience with
  | zero => exact leaves_pure ⟨_, rfl, .untouched, fun _ => rfl⟩
  | succ patience =>
      unfold TextStream.receive
      have hstep : Leaves (TextStream.cursor e.silent .waiting).next fun r p =>
          (∃ c f, r = .error f ∧ p = ⟨[⟨.connect c, none⟩], []⟩) ∨
          (∃ c x f, r = .error f ∧ p = ⟨[⟨.connect c, some x⟩], [c]⟩) ∨
          (∃ c x header, r = .ok (some header, .cursor e.silent (.headed c)) ∧
            Csv.header e.columns = .ok header ∧ p = ⟨[⟨.connect c, some x⟩], []⟩) := by
        refine (leaves_connect e.site).bind ?_ ?_
        · rintro c _ ⟨_, -, (x | _)⟩
          rcases hheader : Csv.header e.columns with f | header
          · have hsame : Csv.header e.silent.columns = .error f := hheader
            rw [hsame]
            refine (leaves_close c).bind ?_ (by rintro _ _ ⟨⟨⟩, -⟩)
            rintro _ _ ⟨-, rfl⟩
            exact leaves_throw (.inr (.inl ⟨c, x, f, rfl, rfl⟩))
          · have hsame : Csv.header e.silent.columns = .ok header := hheader
            rw [hsame]
            exact leaves_pure (.inr (.inr ⟨c, x, header, rfl, rfl, rfl⟩))
        · rintro f _ ⟨c, -, (_ | _)⟩
          exact .inl ⟨c, _, rfl, rfl⟩
      refine (leaves_attempt hstep).bind ?_ (by rintro _ _ ⟨_, ⟨⟩, -⟩)
      rintro _ _ ⟨_, ⟨⟩, (⟨c, f, rfl, rfl⟩ | ⟨c, x, f, rfl, rfl⟩ | ⟨c, x, header, rfl, hheader, rfl⟩)⟩
      · refine leaves_pure ⟨_, rfl, .notConnected c f, fun h => absurd h (Nat.succ_ne_zero patience)⟩
      · refine leaves_pure ⟨_, rfl, .notHeaded c x f, fun h => absurd h (Nat.succ_ne_zero patience)⟩
      · refine (leaves_receive_headed e c patience).bind ?_ (by rintro _ _ ⟨_, _, _, ⟨⟩, -⟩)
        rintro d _ ⟨_, batches, calls, ⟨⟩, hcourse, hbody, rfl⟩
        refine leaves_pure ⟨_, rfl, ?_, fun h => absurd h (Nat.succ_ne_zero patience)⟩
        have hsheet : Csv.sheet e.columns batches.flatten = .ok (d.after header).text := by
          rw [Csv.sheet_of_body hheader hbody]
          exact congrArg Except.ok (String.join_cons ..).symm
        rw [Footprint.append_empty]
        exact .headed c x hcourse hsheet

end CursorExport

end TableSteward

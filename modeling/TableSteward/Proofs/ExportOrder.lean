import TableSteward.Proofs.Course

/-!
# The order of an export

What every course of an export has in common.  The connection that it opened is closed once; a transaction that
has begun is either committed or rolled back, and rolled back no more than once; the cursor is closed only at its
end.  What is to be done on completion is done after all this, just if the transaction was committed.  The text
is the sheet of the rows that the cursor deals out, or the beginning of it.
-/
set_option autoImplicit false

namespace TableSteward

open Exchange

namespace Entry

def opened? : Entry → Option Connection
  | ⟨.connect c, some _⟩ => some c
  | _ => none

def begins (c : Connection) : Entry → Bool
  | ⟨.begin d, some _⟩ => d = c
  | _ => false

def commits (c : Connection) : Entry → Bool
  | ⟨.commit d, some _⟩ => d = c
  | _ => false

/-- An attempt to roll back, also one that failed. -/
def rollsBack (c : Connection) : Entry → Bool
  | ⟨.rollback d, _⟩ => d = c
  | _ => false

def findsEnd (c : Connection) : Entry → Bool
  | ⟨.execute d (.fetch _), some []⟩ => d = c
  | _ => false

def closesCursor (c : Connection) : Entry → Bool
  | ⟨.execute d .closeCursor, _⟩ => d = c
  | _ => false

/-- The cursor is closed only when a fetch has just found its end. -/
def ClosesAtEnd (c : Connection) (calls : List Entry) : Prop :=
  ∀ earlier e later, calls = earlier ++ e :: later → e.closesCursor c = true →
    ∃ before last, earlier = before ++ [last] ∧ last.findsEnd c = true

/-- What a cursor gave, and how many rows it was asked for. -/
def dealt? : Entry → Option (Nat × List Row)
  | ⟨.execute _ (.fetch size), some rows⟩ => some (size.toNat, rows)
  | _ => none

end Entry

namespace Entry.ClosesAtEnd

variable {c : Connection} {calls : List Entry}

theorem nil (c : Connection) : ClosesAtEnd c [] := by
  intro earlier e later h
  simp at h

theorem cons {e : Entry} (he : e.closesCursor c = false) (h : ClosesAtEnd c calls) :
    ClosesAtEnd c (e :: calls) := by
  intro earlier d later hsplit hd
  cases earlier with
  | nil =>
      obtain ⟨rfl, -⟩ := List.cons.inj hsplit
      rw [he] at hd
      exact nomatch hd
  | cons first earlier =>
      obtain ⟨rfl, hrest⟩ := List.cons.inj hsplit
      obtain ⟨before, last, rfl, hlast⟩ := h earlier d later hrest hd
      exact ⟨e :: before, last, rfl, hlast⟩

theorem append {js : List Entry} (hjs : ∀ e ∈ js, e.closesCursor c = false) (h : ClosesAtEnd c calls) :
    ClosesAtEnd c (js ++ calls) := by
  induction js with
  | nil => exact h
  | cons e js ih =>
      exact cons (hjs e (List.mem_cons_self ..)) (ih fun d hd => hjs d (List.mem_cons_of_mem _ hd))

theorem atEnd {last close : Entry} (hlast : last.findsEnd c = true)
    (hclose : last.closesCursor c = false) (h : ClosesAtEnd c calls) :
    ClosesAtEnd c (last :: close :: calls) := by
  intro earlier d later hsplit hd
  rcases earlier with _ | ⟨first, _ | ⟨second, earlier⟩⟩
  · obtain ⟨rfl, -⟩ := List.cons.inj hsplit
    rw [hclose] at hd
    exact nomatch hd
  · obtain ⟨rfl, -⟩ := List.cons.inj hsplit
    exact ⟨[], last, rfl, hlast⟩
  · simp only [List.cons_append, List.cons.injEq] at hsplit
    obtain ⟨rfl, rfl, hrest⟩ := hsplit
    obtain ⟨before, last', rfl, hlast'⟩ := h earlier d later hrest hd
    exact ⟨last :: close :: before, last', rfl, hlast'⟩

end Entry.ClosesAtEnd

/-- The rows that cursors gave, in order. -/
def givenRows (js : List Entry) : List Row := js.flatMap fun e => e.dealt?.elim [] Prod.snd

/-- The answers to the fetches are these rows, dealt out in order. -/
def Deals : List Row → List Entry → Prop
  | _, [] => True
  | rows, e :: js =>
      match e.dealt? with
      | none => Deals rows js
      | some (size, got) => got = rows.take size ∧ Deals (rows.drop size) js

theorem deals_of_silent {e : Entry} (he : e.dealt? = none) {rows : List Row} {js : List Entry} :
    Deals rows (e :: js) ↔ Deals rows js := by
  rw [Deals, he]

namespace CursorExport

variable {c : Connection} {size : Int}

theorem dealt_fetched (c : Connection) (size : Int) (rows : List Row) :
    (fetched c size rows).dealt? = some (size.toNat, rows) := rfl

/-- The batches come first; what is left of the rows is for the calls after them. -/
theorem rest_of_deals {batches : List (List Row)} {closing : List Entry} :
    ∀ {rows : List Row}, Deals rows (batches.map (fetched c size) ++ closing) →
      ∃ rest, rows = batches.flatten ++ rest ∧ Deals rest closing := by
  induction batches with
  | nil => intro rows h; exact ⟨rows, rfl, h⟩
  | cons batch batches ih =>
      intro rows h
      rw [List.map_cons, List.cons_append, Deals, dealt_fetched] at h
      obtain ⟨hbatch, h⟩ := h
      obtain ⟨rest, hrest, hclosing⟩ := ih h
      refine ⟨rest, ?_, hclosing⟩
      rw [List.flatten_cons, List.append_assoc, ← hrest, hbatch, List.take_append_drop]

/-- A cursor that gives nothing when it is asked for a row has none left. -/
theorem Closing.rows_eq_nil {closing : List Entry} {rows : List Row} (hsize : 1 ≤ size)
    (h : Closing c size true closing) (hdeals : Deals rows closing) : rows = [] := by
  cases h with
  | complete x y =>
      rw [Deals, dealt_fetched] at hdeals
      obtain ⟨hnone, -⟩ := hdeals
      rcases List.take_eq_nil_iff.mp hnone.symm with hzero | hrows
      · omega
      · exact hrows

namespace Closing

variable {complete : Bool} {closing : List Entry}

theorem any_commits (h : Closing c size complete closing) :
    closing.any (Entry.commits c) = complete := by
  cases h <;> simp [Entry.commits, fetched]

theorem countP_rollsBack (h : Closing c size complete closing) :
    closing.countP (Entry.rollsBack c) = if complete then 0 else 1 := by
  cases h <;> simp [Entry.rollsBack, fetched]

theorem givenRows_eq_nil (h : Closing c size true closing) : givenRows closing = [] := by
  cases h with
  | complete x y => rfl

theorem closesAtEnd (h : Closing c size complete closing) : Entry.ClosesAtEnd c closing := by
  have hend : (fetched c size []).findsEnd c = true := decide_eq_true rfl
  cases h with
  | complete x y => exact .atEnd hend rfl (.cons rfl (.nil c))
  | givenUp z => exact .cons rfl (.nil c)
  | notFetched z => exact .cons rfl (.cons rfl (.nil c))
  | notRendered rows z => exact .cons rfl (.cons rfl (.nil c))
  | notClosed z => exact .atEnd hend rfl (.cons rfl (.nil c))
  | notCommitted x z => exact .atEnd hend rfl (.cons rfl (.cons rfl (.nil c)))

end Closing

namespace Course

variable {σ : Type} {e : CursorExport σ} {complete : Bool} {batches : List (List Row)}
  {calls : List Entry}

theorem any_commits (h : Course e c complete batches calls) :
    calls.any (Entry.commits c) = complete := by
  cases h with
  | read x y z hfilled hclosing =>
      have hfetched : (batches.map (fetched c e.batchSize)).any (Entry.commits c) = false := by
        simp [Entry.commits, fetched]
      simp only [List.any_cons, List.any_append, hfetched, hclosing.any_commits]
      rfl
  | _ => rfl

/-- A transaction that has begun is rolled back, once, unless it is committed. -/
theorem countP_rollsBack (h : Course e c complete batches calls)
    (hbegun : calls.any (Entry.begins c) = true) :
    calls.countP (Entry.rollsBack c) = if complete then 0 else 1 := by
  cases h with
  | notBegun => exact nomatch hbegun
  | beginFailed => exact nomatch hbegun
  | readOnlyFailed x z => simp [Entry.rollsBack]
  | declareFailed x y z => simp [Entry.rollsBack]
  | read x y z hfilled hclosing =>
      have hfetched : (batches.map (fetched c e.batchSize)).countP (Entry.rollsBack c) = 0 := by
        simp [Entry.rollsBack, fetched]
      simp only [List.countP_cons, List.countP_append, hfetched, hclosing.countP_rollsBack]
      simp [Entry.rollsBack]

theorem closesAtEnd (h : Course e c complete batches calls) : Entry.ClosesAtEnd c calls := by
  cases h with
  | notBegun => exact .nil c
  | beginFailed => exact .cons rfl (.nil c)
  | readOnlyFailed x z => exact .cons rfl (.cons rfl (.cons rfl (.nil c)))
  | declareFailed x y z => exact .cons rfl (.cons rfl (.cons rfl (.cons rfl (.nil c))))
  | read x y z hfilled hclosing =>
      refine .cons rfl (.cons rfl (.cons rfl (.append ?_ hclosing.closesAtEnd)))
      intro d hd
      obtain ⟨rows, -, rfl⟩ := List.mem_map.mp hd
      rfl

theorem opened_eq_nil (h : Course e c complete batches calls) : calls.filterMap Entry.opened? = [] := by
  cases h with
  | read x y z hfilled hclosing =>
      have hfetched : (batches.map (fetched c e.batchSize)).filterMap Entry.opened? = [] := by
        simp [Entry.opened?, fetched]
      have hlast : ∀ {complete closing}, Closing c e.batchSize complete closing →
          closing.filterMap Entry.opened? = [] := by
        intro complete closing hclosing
        cases hclosing <;> rfl
      simp only [List.filterMap_cons, List.filterMap_append, hfetched, hlast hclosing]
      rfl
  | _ => rfl

theorem givenRows_eq (h : Course e c true batches calls) : givenRows calls = batches.flatten := by
  cases h with
  | read x y z hfilled hclosing =>
      have hfetched : givenRows (batches.map (fetched c e.batchSize)) = batches.flatten := by
        rw [givenRows, List.flatMap_map]
        exact List.flatMap_id
      change givenRows (batches.map (fetched c e.batchSize) ++ _) = _
      rw [givenRows, List.flatMap_append]
      exact (congrArg₂ (· ++ ·) hfetched hclosing.givenRows_eq_nil).trans (List.append_nil _)

/-- The batches are the rows in order: all of them at the end of the cursor, and the first of them before. -/
theorem rows_of_deals {rows : List Row} (h : Course e c complete batches calls)
    (hdeals : Deals rows calls) : batches.flatten <+: rows ∧
      (complete = true → 1 ≤ e.batchSize → rows = batches.flatten) := by
  cases h with
  | read x y z hfilled hclosing =>
      rw [deals_of_silent rfl, deals_of_silent rfl, deals_of_silent rfl] at hdeals
      obtain ⟨rest, rfl, hrest⟩ := rest_of_deals hdeals
      refine ⟨List.prefix_append _ _, ?_⟩
      rintro rfl hsize
      rw [hclosing.rows_eq_nil hsize hrest, List.append_nil]
  | _ => exact ⟨List.nil_prefix, nofun⟩

end Course

/-! ## Completion -/

section Announcement

variable {σ : Type}

/-- What is done at the end of a complete delivery; only this can still fail then. -/
def announce (e : CursorExport (Journal σ)) (written : Nat) (d : Delivery) :
    Exchange (Journal σ) Delivery :=
  if d.ending = .complete then do
    match ← attempt (e.onComplete written) with
    | .ok () => return d
    | .error f => return ⟨d.chunks, .failed f⟩
  else return d

theorem runOn_announce_complete (e : CursorExport (Journal σ)) (written : Nat) (chunks : List String)
    (l : Link (Journal σ)) :
    runOn (e.announce written ⟨chunks, .complete⟩) l =
      match runOn (e.onComplete written) l with
      | (.error f, m) => (.ok ⟨chunks, .failed f⟩, m)
      | (.ok (), m) => (.ok ⟨chunks, .complete⟩, m) := by
  rw [announce, if_pos rfl, runOn_bind, runOn_attempt]
  rcases runOn (e.onComplete written) l with ⟨_ | _, m⟩ <;> rfl

theorem announce_after (e : CursorExport (Journal σ)) (written : Nat) (d : Delivery) (chunk : String)
    (l : Link (Journal σ)) :
    runOn (e.announce written d >>= fun d => pure (d.after chunk)) l =
      runOn (e.announce written (d.after chunk)) l := by
  rw [runOn_bind]
  unfold announce
  have hending : (d.after chunk).ending = d.ending := rfl
  rw [hending]
  by_cases hd : d.ending = .complete
  · rw [if_pos hd, if_pos hd, runOn_bind, runOn_bind]
    rcases runOn (attempt (e.onComplete written)) l with ⟨_ | ⟨_ | _⟩, m⟩ <;> rfl
  · rw [if_neg hd, if_neg hd]
    rfl

/-- An announcement that leaves a delivery complete has been heard. -/
theorem of_announce_complete (e : CursorExport (Journal σ)) {written : Nat} {d d' : Delivery}
    {m n : Link (Journal σ)} (h : runOn (e.announce written d) m = (.ok d', n))
    (hcomplete : d'.ending = .complete) : d = d' ∧ runOn (e.onComplete written) m = (.ok (), n) := by
  rcases d with ⟨chunks, ending⟩
  by_cases hending : ending = .complete
  · subst hending
    rw [runOn_announce_complete] at h
    rcases hrun : runOn (e.onComplete written) m with ⟨f | _, m'⟩
    · rw [hrun] at h
      cases h
      exact nomatch hcomplete
    · rw [hrun] at h
      cases h
      exact ⟨rfl, rfl⟩
  · rw [announce, if_neg hending] at h
    cases h
    exact absurd hcomplete hending

end Announcement

variable {σ : Type} [Server σ]

/-- A batch that was rendered adds as many records as it counts. -/
theorem records_of_batch {columns : List Value} {count : Nat} {chunk : String}
    {l m : Link (Journal σ)} (h : runOn (batch c size columns) l = (.ok (some (count, chunk)), m)) :
    ∀ tail, Csv.recordsFrom false (chunk.toList ++ tail) = Csv.recordsFrom false tail + count := by
  obtain ⟨p, -, hbatched⟩ := leaves_batch c size columns l
  rw [h] at hbatched
  cases hbatched with
  | rendered hrows hbody => exact Csv.recordsFrom_body hbody

theorem runOn_readBatch (e : CursorExport (Journal σ)) (c : Connection) (written : Nat)
    (l : Link (Journal σ)) :
    runOn (e.readBatch c written) l =
      match runOn (batch c e.batchSize e.columns) l with
      | (.error f, m) => (.error f, m)
      | (.ok (some (count, chunk)), m) =>
          (.ok (some chunk, .cursor e (.reading c (written + count))), m)
      | (.ok none, m) =>
          runOn (close c >>= fun _ => e.onComplete written >>= fun _ => pure (none, .finished)) m := by
  rw [readBatch_eq, runOn_bind]
  rcases runOn (batch c e.batchSize e.columns) l with ⟨_ | ⟨_ | _⟩, m⟩ <;> rfl

/-- The silent run goes through the same batches; the announcement is all that is missing at its end. -/
theorem runOn_receive_reading (e : CursorExport (Journal σ)) (c : Connection) :
    ∀ (patience written : Nat) (l : Link (Journal σ)),
      runOn (TextStream.receive patience (.cursor e (.reading c written))) l =
        runOn (TextStream.receive patience (.cursor e.silent (.reading c written)) >>= fun d =>
          e.announce (written + Csv.records d.text) d) l := by
  intro patience
  induction patience with
  | zero =>
      intro written l
      rw [runOn_bind, TextStream.runOn_receive_zero, TextStream.runOn_receive_zero]
      simp only [TextStream.close]
      rcases runOn (abandon c true) l with ⟨_ | _, m⟩ <;> rfl
  | succ patience ih =>
      intro written l
      rw [runOn_bind, TextStream.runOn_receive_succ, TextStream.runOn_receive_succ]
      simp only [TextStream.next, next, runOn_readBatch]
      have hsame : (batch c e.silent.batchSize e.silent.columns : Exchange (Journal σ) _) =
        batch c e.batchSize e.columns := rfl
      rw [hsame]
      rcases hbatch : runOn (batch c e.batchSize e.columns) l with ⟨f | ⟨_ | ⟨count, chunk⟩⟩, m⟩
      · rfl
      · simp only [runOn_bind, close, runOn_note]
        change _ = runOn (e.announce written ⟨[], .complete⟩) _
        rw [runOn_announce_complete]
        rcases runOn (e.onComplete written) _ with ⟨_ | _, n⟩ <;> rfl
      · dsimp only
        rw [runOn_bind, ih, runOn_bind, runOn_bind]
        rcases runOn (TextStream.receive patience (.cursor e.silent (.reading c (written + count)))) m
          with ⟨_ | d, n⟩
        · rfl
        · have hrecords := Delivery.records_after d (records_of_batch hbatch)
          dsimp only
          rw [← runOn_bind, announce_after, Nat.add_assoc, Nat.add_comm count, ← hrecords]
          rfl

theorem receive_headed_announces (e : CursorExport (Journal σ)) (c : Connection) (patience : Nat)
    (l : Link (Journal σ)) :
    runOn (TextStream.receive patience (.cursor e (.headed c))) l =
      runOn (TextStream.receive patience (.cursor e.silent (.headed c)) >>= fun d =>
        e.announce (Csv.records d.text) d) l := by
  rw [runOn_bind]
  cases patience with
  | zero => rfl
  | succ patience =>
      rw [runOn_receive_headed, runOn_receive_headed]
      have hsame : e.silent.openCursor c = e.openCursor c := rfl
      rw [hsame]
      rcases runOn (e.openCursor c) l with ⟨f | _, m⟩
      · rfl
      · dsimp only
        rw [runOn_receive_reading, runOn_bind]
        simp only [Nat.zero_add]

theorem runOn_next_waiting (e : CursorExport (Journal σ)) (l : Link (Journal σ)) :
    runOn (e.next .waiting) l =
      match runOn (connect e.site) l with
      | (.error f, m) => (.error f, m)
      | (.ok c, m) =>
          match Csv.header e.columns with
          | .ok header => (.ok (some header, .cursor e (.headed c)), m)
          | .error f => runOn (abandon c false >>= fun _ => throw f) m := by
  rw [next, runOn_bind]
  rcases runOn (connect e.site) l with ⟨f | c, m⟩
  · rfl
  · dsimp only
    cases Csv.header e.columns <;> rfl

/-- The announcement is made when all else is done. -/
theorem receive_announces (e : CursorExport (Journal σ)) (patience : Nat) (l : Link (Journal σ)) :
    runOn (TextStream.receive patience (.cursor e .waiting)) l =
      runOn (TextStream.receive patience (.cursor e.silent .waiting) >>= fun d =>
        e.announce d.dataLines d) l := by
  rw [runOn_bind]
  cases patience with
  | zero => rfl
  | succ patience =>
      rw [TextStream.runOn_receive_succ, TextStream.runOn_receive_succ]
      simp only [TextStream.next, runOn_next_waiting]
      have hsite : connect e.silent.site = (connect e.site : Exchange (Journal σ) _) := rfl
      have hcolumns : e.silent.columns = e.columns := rfl
      rw [hsite, hcolumns]
      rcases runOn (connect e.site) l with ⟨f | c, m⟩
      · rfl
      · dsimp only
        rcases hheader : Csv.header e.columns with f | header
        · rfl
        · dsimp only
          rw [runOn_bind, receive_headed_announces, runOn_bind, runOn_bind]
          rcases runOn (TextStream.receive patience (.cursor e.silent (.headed c))) m with ⟨_ | d, n⟩
          · rfl
          · have hrecords := Delivery.records_after d (Csv.recordsFrom_line hheader)
            have hlines : Csv.records d.text = (d.after header).dataLines := by
              rw [Delivery.dataLines, hrecords, Nat.add_sub_cancel]
            dsimp only
            rw [← runOn_bind, announce_after, hlines]
            rfl

/-! ## What holds of every export -/

/-- The order that a delivery and its footprint keep. -/
structure Orderly {σ : Type} (e : CursorExport σ) (d : Delivery) (p : Footprint) : Prop where
  closed : p.closed = p.calls.filterMap Entry.opened?
  single : p.closed.length ≤ 1
  committed : d.ending = .complete ↔ ∃ c ∈ p.closed, p.calls.any (Entry.commits c) = true
  rolledBack : ∀ c ∈ p.closed, p.calls.any (Entry.begins c) = true →
    p.calls.countP (Entry.rollsBack c) = if p.calls.any (Entry.commits c) then 0 else 1
  closesAtEnd : ∀ c ∈ p.closed, Entry.ClosesAtEnd c p.calls
  given : d.ending = .complete → Csv.sheet e.columns (givenRows p.calls) = .ok d.text
  wholeSheet : ∀ rows, Deals rows p.calls → 1 ≤ e.batchSize → d.ending = .complete →
    Csv.sheet e.columns rows = .ok d.text ∧ d.dataLines = rows.length
  partSheet : ∀ rows, Deals rows p.calls →
    d.text = "" ∨ ∃ n, Csv.sheet e.columns (rows.take n) = .ok d.text
  isPrefix : ∀ rows whole, Deals rows p.calls → Csv.sheet e.columns rows = .ok whole →
    d.text.toList <+: whole.toList

/-- A delivery without text says nothing of the rows. -/
theorem Orderly.ofEmpty {σ : Type} {e : CursorExport σ} {ending : Ending} {p : Footprint}
    (hending : ending ≠ .complete) (hclosed : p.closed = p.calls.filterMap Entry.opened?)
    (hsingle : p.closed.length ≤ 1)
    (hcalls : ∀ c, p.calls.any (Entry.begins c) = false ∧ p.calls.any (Entry.commits c) = false ∧
      Entry.ClosesAtEnd c p.calls) : Orderly e ⟨[], ending⟩ p where
  closed := hclosed
  single := hsingle
  committed := by
    refine ⟨fun h => absurd h hending, ?_⟩
    rintro ⟨c, -, hcommits⟩
    rw [(hcalls c).2.1] at hcommits
    exact nomatch hcommits
  rolledBack := by
    intro c _ hbegun
    rw [(hcalls c).1] at hbegun
    exact nomatch hbegun
  closesAtEnd := fun c _ => (hcalls c).2.2
  given := fun h => absurd h hending
  wholeSheet := fun _ _ _ h => absurd h hending
  partSheet := fun _ _ => .inl rfl
  isPrefix := fun _ _ _ _ => List.nil_prefix

theorem Orderly.ofCourse {σ : Type} {e : CursorExport σ} {x : List Row} {d : Delivery}
    {batches : List (List Row)} {calls : List Entry}
    (hcourse : Course e c (decide (d.ending = .complete)) batches calls)
    (hsheet : Csv.sheet e.columns batches.flatten = .ok d.text) :
    Orderly e d ⟨⟨.connect c, some x⟩ :: calls, [c]⟩ := by
  have hcommits : (⟨.connect c, some x⟩ :: calls).any (Entry.commits c) =
      decide (d.ending = .complete) := hcourse.any_commits
  have hrows : ∀ rows, Deals rows (⟨.connect c, some x⟩ :: calls) → batches.flatten <+: rows ∧
      (decide (d.ending = .complete) = true → 1 ≤ e.batchSize → rows = batches.flatten) :=
    fun rows hdeals => hcourse.rows_of_deals hdeals
  constructor
  · change [c] = c :: calls.filterMap Entry.opened?
    rw [hcourse.opened_eq_nil]
  · exact Nat.le_refl 1
  · constructor
    · intro hcomplete
      exact ⟨c, List.mem_singleton_self c, hcommits.trans (decide_eq_true hcomplete)⟩
    · rintro ⟨d, hd, hany⟩
      obtain rfl := List.mem_singleton.mp hd
      exact of_decide_eq_true (hcommits.symm.trans hany)
  · intro d hd hbegun
    obtain rfl := List.mem_singleton.mp hd
    rw [hcommits]
    exact hcourse.countP_rollsBack hbegun
  · intro d hd
    obtain rfl := List.mem_singleton.mp hd
    exact .cons rfl hcourse.closesAtEnd
  · intro hcomplete
    rw [decide_eq_true hcomplete] at hcourse
    change Csv.sheet e.columns (givenRows calls) = .ok d.text
    rw [hcourse.givenRows_eq]
    exact hsheet
  · intro rows hdeals hsize hcomplete
    obtain rfl := (hrows rows hdeals).2 (decide_eq_true hcomplete) hsize
    refine ⟨hsheet, ?_⟩
    rw [Delivery.dataLines, Csv.records_sheet hsheet, Nat.add_sub_cancel]
  · intro rows hdeals
    refine .inr ⟨batches.flatten.length, ?_⟩
    rw [← List.prefix_iff_eq_take.mp (hrows rows hdeals).1]
    exact hsheet
  · intro rows whole hdeals hwhole
    exact Csv.sheet_isPrefix (hrows rows hdeals).1 hsheet hwhole

theorem Exported.orderly {σ : Type} {e : CursorExport σ} {d : Delivery} {p : Footprint}
    (h : Exported e d p) : Orderly e d p := by
  cases h with
  | untouched => exact .ofEmpty nofun rfl (Nat.zero_le 1) fun c => ⟨rfl, rfl, .nil c⟩
  | notConnected c f => exact .ofEmpty nofun rfl (Nat.zero_le 1) fun c => ⟨rfl, rfl, .cons rfl (.nil c)⟩
  | notHeaded c x f => exact .ofEmpty nofun rfl (Nat.le_refl 1) fun c => ⟨rfl, rfl, .cons rfl (.nil c)⟩
  | headed c x hcourse hsheet => exact .ofCourse hcourse hsheet

theorem receive_exported (e : CursorExport (Journal σ)) (patience : Nat) (l : Link (Journal σ)) :
    ∃ d m p, runOn (TextStream.receive patience (.cursor e.silent .waiting)) l = (.ok d, m) ∧
      runOn (TextStream.receive patience (.cursor e .waiting)) l =
        runOn (e.announce d.dataLines d) m ∧
      p.Between l m ∧ (patience = 0 → p = {}) ∧ Exported e d p := by
  obtain ⟨p, hp, d, hd, hexported, huntouched⟩ := leaves_receive e patience l
  have hannounced := receive_announces e patience l
  rcases hrun : runOn (TextStream.receive patience (.cursor e.silent .waiting)) l with ⟨r, m⟩
  rw [hrun] at hp hd
  obtain rfl : r = .ok d := hd
  rw [runOn_bind, hrun] at hannounced
  exact ⟨d, m, p, rfl, hannounced, hp, huntouched, hexported⟩

/-- Whichever calls fail and whenever the receiver gives up, an export keeps its order, and then, if it is complete,
the number of rows that were delivered is announced.  An export that nobody asks for anything calls nothing. -/
theorem receive_orderly (e : CursorExport (Journal σ)) (patience : Nat) (l : Link (Journal σ)) :
    ∃ d m p, runOn (TextStream.receive patience (.cursor e.silent .waiting)) l = (.ok d, m) ∧
      runOn (TextStream.receive patience (.cursor e .waiting)) l =
        runOn (e.announce d.dataLines d) m ∧
      p.Between l m ∧ (patience = 0 → p = {}) ∧ Orderly e d p := by
  obtain ⟨d, m, p, hsilent, hannounced, hp, huntouched, hexported⟩ := e.receive_exported patience l
  exact ⟨d, m, p, hsilent, hannounced, hp, huntouched, hexported.orderly⟩

end CursorExport

end TableSteward

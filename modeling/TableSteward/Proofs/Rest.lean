import TableSteward.Proofs.Answer
import TableSteward.Proofs.ExportOrder
import TableSteward.Proofs.Settlement

/-!
# Databases at rest

A database is at rest while its contents stay as they are: whatever it answers, it answers from them, and a cursor
gives the rows of its query in order.  A full export that is complete is then the sheet of these rows.  `Still` is
such a database.
-/
set_option autoImplicit false

namespace TableSteward

open Exchange

namespace Contents

/-- The rows that the cursor has still to give, after one more call. -/
def advance (k : Contents) (left : List Row) : Entry → List Row
  | ⟨.execute _ (.declareCursor q), some _⟩ => k.rows q
  | ⟨.execute _ (.fetch size), some _⟩ => left.drop size.toNat
  | _ => left

/-- The rows that the cursor that was declared last has still to give. -/
def onCursor (k : Contents) (js : List Entry) : List Row := js.foldl k.advance []

/-- What was answered is what the database holds. -/
structure Tells (k : Contents) (js : List Entry) : Prop where
  answers : k.Answers js
  cursors : ∀ earlier c size rows later,
    js = earlier ++ ⟨.execute c (.fetch size), some rows⟩ :: later →
    rows = (k.onCursor earlier).take size.toNat

variable {k : Contents}

theorem onCursor_concat (js : List Entry) (e : Entry) :
    k.onCursor (js ++ [e]) = k.advance (k.onCursor js) e := by
  rw [onCursor, List.foldl_append]
  rfl

theorem Tells.of_append_left {js js' : List Entry} (h : k.Tells (js ++ js')) : k.Tells js := by
  refine ⟨h.answers.of_append_left, ?_⟩
  intro earlier c size rows later hsplit
  refine h.cursors earlier c size rows (later ++ js') ?_
  rw [hsplit, List.append_assoc]
  rfl

theorem Tells.concat {js : List Entry} {e : Entry} (h : k.Tells js)
    (hanswer : ∀ c s rows expected, e = ⟨.execute c s, some rows⟩ → k.answer? s = some expected →
      rows = expected)
    (hfetch : ∀ c size rows, e = ⟨.execute c (.fetch size), some rows⟩ →
      rows = (k.onCursor js).take size.toNat) : k.Tells (js ++ [e]) := by
  constructor
  · intro d hd
    rcases List.mem_append.mp hd with hd | hd
    · exact h.answers d hd
    · obtain rfl := List.mem_singleton.mp hd
      exact hanswer
  · intro earlier c size rows later hsplit
    rcases of_concat_split hsplit with ⟨rfl, rfl⟩ | ⟨front, hfront⟩
    · exact hfetch c size rows rfl
    · exact h.cursors earlier c size rows front hfront

theorem advance_dealt {e : Entry} {size : Nat} {rows : List Row} (h : e.dealt? = some (size, rows))
    (left : List Row) : k.advance left e = left.drop size ∧
      ∃ c n, e = ⟨.execute c (.fetch n), some rows⟩ ∧ n.toNat = size := by
  unfold Entry.dealt? at h
  split at h
  · cases h
    exact ⟨rfl, _, _, rfl, rfl⟩
  · exact nomatch h

theorem advance_silent {e : Entry} (hdealt : e.dealt? = none)
    (hdeclared : ∀ c q x, e ≠ ⟨.execute c (.declareCursor q), some x⟩) (left : List Row) :
    k.advance left e = left := by
  unfold advance
  split
  · exact absurd rfl (hdeclared _ _ _)
  · exact nomatch hdealt
  · rfl

/-- Until another cursor is declared, what is fetched is dealt out of the rows of this one. -/
theorem Tells.deals {later : List Entry}
    (hdeclared : ∀ e ∈ later, ∀ c q x, e ≠ ⟨.execute c (.declareCursor q), some x⟩) :
    ∀ {earlier : List Entry}, k.Tells (earlier ++ later) → Deals (k.onCursor earlier) later := by
  induction later with
  | nil => exact fun _ => trivial
  | cons e later ih =>
      intro earlier h
      have hrest : Deals (k.advance (k.onCursor earlier) e) later := by
        rw [← onCursor_concat]
        refine ih (fun d hd => hdeclared d (List.mem_cons_of_mem _ hd)) ?_
        rw [List.append_assoc]
        exact h
      cases hdealt : e.dealt? with
      | none =>
          rw [advance_silent hdealt (hdeclared e (List.mem_cons_self ..))] at hrest
          exact (deals_of_silent hdealt).mpr hrest
      | some dealt =>
          obtain ⟨size, rows⟩ := dealt
          obtain ⟨hadvance, c, n, hentry, hn⟩ := advance_dealt (k := k) hdealt (k.onCursor earlier)
          rw [hadvance] at hrest
          rw [Deals, hdealt]
          refine ⟨?_, hrest⟩
          subst hn
          exact h.cursors earlier c n rows later (by rw [hentry])

end Contents

/-- The text of a complete export is the sheet of the rows that the database holds. -/
theorem CursorExport.Exported.sheet_of_tells {σ : Type} {k : Contents} {e : CursorExport σ} {d : Delivery}
    {p : Footprint} {earlier : List Entry} (h : Exported e d p) (hcomplete : d.ending = .complete)
    (hsize : 1 ≤ e.batchSize) (htells : k.Tells (earlier ++ p.calls)) :
    Csv.sheet e.columns (k.rows e.query) = .ok d.text := by
  cases h with
  | untouched => exact nomatch hcomplete
  | notConnected c f => exact nomatch hcomplete
  | notHeaded c x f => exact nomatch hcomplete
  | @headed c x _ batches calls hcourse hsheet =>
      rw [decide_eq_true hcomplete] at hcourse
      cases hcourse with
      | @read y z w _ _ closing hfilled hclosing =>
          have hdeclared : ∀ e' ∈ batches.map (fetched c e.batchSize) ++ closing, ∀ c' q x',
              e' ≠ ⟨.execute c' (.declareCursor q), some x'⟩ := by
            intro e' he' c' q x' hsame
            rcases List.mem_append.mp he' with he' | he'
            · obtain ⟨rows, -, rfl⟩ := List.mem_map.mp he'
              exact nomatch hsame
            · cases hclosing with
              | complete a b => simp [fetched, hsame] at he'
          have hdeals : Deals (k.onCursor (earlier ++ [⟨.connect c, some x⟩, ⟨.begin c, some y⟩,
              ⟨.execute c .readOnly, some z⟩, ⟨.execute c (.declareCursor e.query), some w⟩]))
              (batches.map (fetched c e.batchSize) ++ closing) := by
            refine Contents.Tells.deals hdeclared ?_
            rw [List.append_assoc]
            exact htells
          have hcursor : k.onCursor (earlier ++ [⟨.connect c, some x⟩, ⟨.begin c, some y⟩,
              ⟨.execute c .readOnly, some z⟩, ⟨.execute c (.declareCursor e.query), some w⟩]) =
              k.rows e.query := by
            rw [Contents.onCursor, List.foldl_append]
            rfl
          rw [hcursor] at hdeals
          obtain ⟨rest, hrows, hrest⟩ := rest_of_deals hdeals
          rw [hclosing.rows_eq_nil hsize hrest, List.append_nil] at hrows
          rw [hrows]
          exact hsheet

theorem CursorExport.Exported.declared {σ : Type} {e : CursorExport σ} {d : Delivery} {p : Footprint}
    (h : Exported e d p) (hcomplete : d.ending = .complete) :
    ∃ c x, ⟨.execute c (.declareCursor e.query), some x⟩ ∈ p.calls := by
  cases h with
  | headed c x hcourse hsheet =>
      rw [decide_eq_true hcomplete] at hcourse
      cases hcourse with
      | read y z w hfilled hclosing => exact ⟨c, w, by simp⟩
  | _ => exact nomatch hcomplete

/-! ## Invariants of journals -/

section Invariants

variable {σ : Type} [Server σ]

/-- A server next to itself, with an invariant of its states and journals. -/
def Pairing.invariant (I : Journal σ → Prop) (hstep : ∀ j call, I j → I (Server.answer j call).2)
    (A : Account) (g : Gate) : Pairing (Journal σ) (Journal σ) A g where
  related s t := s = t ∧ I s
  agree := by
    rintro s _ ⟨rfl, hs⟩ call js -
    exact ⟨rel_refl (fun _ => rfl) _, rfl, hstep s call hs⟩
  probe := by
    rintro s _ ⟨rfl, hs⟩ c ref
    exact ⟨rel_refl (fun _ => Or.inl rfl) _, rfl, hstep s _ hs⟩
  listing := by
    rintro s _ ⟨rfl, hs⟩ c
    exact ⟨rel_refl (fun _ => Or.inl rfl) _, rfl, hstep s _ hs⟩

/-- What every single answer of a server preserves is preserved by every request. -/
theorem Desk.journal_invariant (d : Desk) (r : Requester) (q : Request) (l : Link σ)
    {I : Journal σ → Prop} (hstep : ∀ j call, I j → I (Server.answer j call).2)
    (hstart : I ⟨l.server, []⟩) : I ((d.answer r q).runOn l.journaled).2.server := by
  cases h : d.errand? r q with
  | some w =>
      have hkept := keeps_answer d r h (P := Pairing.invariant I hstep _ _) l.journaled.journaled
        l.journaled rfl (accounted_nil _) ⟨⟨rfl, hstart⟩, rfl, rfl, rfl⟩
      rw [← hkept.alike.server.1]
      exact hkept.alike.server.2
  | none =>
      have hkept := keeps_answer_without_errand d r h (P := Pairing.invariant I hstep Account.nothing _)
        l.journaled.journaled l.journaled rfl (accounted_nil _) ⟨⟨rfl, hstart⟩, rfl, rfl, rfl⟩
      rw [← hkept.alike.server.1]
      exact hkept.alike.server.2

end Invariants

/-! ## A database at rest -/

structure Still where
  contents : Contents
  cursor : List Row := []

namespace Still

def answer (s : Still) : Call → Option (List Row) × Still
  | .execute _ (.declareCursor q) => (some [], { s with cursor := s.contents.rows q })
  | .execute _ (.fetch size) =>
      (some (s.cursor.take size.toNat), { s with cursor := s.cursor.drop size.toNat })
  | .execute _ statement => (some ((s.contents.answer? statement).getD []), s)
  | _ => (some [], s)

instance : Server Still := ⟨answer⟩

/-- The journal tells of contents that the database has, and the cursor is where the journal leaves it. -/
structure Rests (k : Contents) (j : Journal Still) : Prop where
  contents : j.server.contents = k
  cursor : j.server.cursor = k.onCursor j.entries
  tells : k.Tells j.entries
  answered : ∀ e ∈ j.entries, e.answer ≠ none

variable {k : Contents}

theorem Rests.step {j : Journal Still} (h : Rests k j) (call : Call) : Rests k (Server.answer j call).2 := by
  obtain ⟨⟨contents, cursor⟩, js⟩ := j
  obtain ⟨rfl, hcursor, htells, hanswered⟩ := h
  obtain rfl : cursor = contents.onCursor js := hcursor
  have hsome : ∃ rows, (Server.answer (⟨contents, contents.onCursor js⟩ : Still) call).1 = some rows := by
    cases call with
    | execute c s => cases s <;> exact ⟨_, rfl⟩
    | _ => exact ⟨_, rfl⟩
  refine ⟨?_, ?_, htells.concat ?_ ?_, ?_⟩
  · cases call with
    | execute c s => cases s <;> rfl
    | _ => rfl
  · rw [Journal.answer_entries, Contents.onCursor_concat]
    cases call with
    | execute c s => cases s <;> rfl
    | _ => rfl
  · intro c s rows expected hentry hexpected
    obtain ⟨rfl, hrows⟩ := Entry.mk.inj hentry
    cases s with
    | tableExists _ | columns _ | primaryKey _ | count _ | page _ _ =>
        cases hexpected
        exact (Option.some.inj hrows).symm
    | _ => exact nomatch hexpected
  · intro c size rows hentry
    obtain ⟨rfl, hrows⟩ := Entry.mk.inj hentry
    exact (Option.some.inj hrows).symm
  · intro e he
    rcases List.mem_append.mp he with he | he
    · exact hanswered e he
    · obtain rfl := List.mem_singleton.mp he
      obtain ⟨rows, hrows⟩ := hsome
      intro hnone
      exact nomatch hrows.symm.trans hnone

/-- Whatever is asked of a database at rest, it tells its contents and fails no call. -/
theorem rests_journal (d : Desk) (r : Requester) (q : Request) (l : Link Still)
    (hcursor : l.server.cursor = []) :
    Rests l.server.contents ((d.answer r q).runOn l.journaled).2.server := by
  refine d.journal_invariant r q l (fun j call h => h.step call) ⟨rfl, hcursor, ?_, ?_⟩
  · exact ⟨fun e he => (List.not_mem_nil he).elim, fun earlier c size rows later h => by simp at h⟩
  · exact fun e he => (List.not_mem_nil he).elim

end Still

end TableSteward

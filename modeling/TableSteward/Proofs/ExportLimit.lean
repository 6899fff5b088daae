import TableSteward.Proofs.Answer
import TableSteward.Proofs.Fetching

/-!
# Limits on full exports

The limit of a role is compared with a count of the rows, and the rows are read from a cursor in a later
transaction.  The data lines of a full export are the rows that this cursor gives, so the limit holds for as long
as the cursor gives no more rows than were counted, and it is exceeded as soon as the cursor gives more rows than
it allows.
-/
set_option autoImplicit false

namespace TableSteward

open Exchange

namespace Policy

theorem maxExportRows_le (p : Policy) (role : Value) : p.maxExportRows role ≤ p.absoluteCeiling :=
  Int.min_le_right ..

theorem le_of_enforce {p : Policy} {role : Value} {total : Int} (h : p.enforce role total = .ok ()) :
    total ≤ p.maxExportRows role := by
  unfold enforce at h
  obtain ⟨_, -, h⟩ := Result.of_bind_ok h
  obtain ⟨_, -, h⟩ := Result.of_bind_ok h
  by_cases hlimit : p.maxExportRows role < total
  · rw [if_pos hlimit] at h
    exact nomatch h
  · exact Int.not_lt.mp hlimit

end Policy

namespace Desk

variable {σ : Type} [Server σ] (d : Desk) (r : Requester) (q : TableRequest)

/-- A full export that begins has been counted, and its stream has fetched nothing yet. -/
theorem opened_of_exportAll {l : Link σ} {download : Download (Journal σ)}
    (h : ((d.browser.exportAll r q).runOn l.journaled).1 = .ok download) :
    d.browser.Opened r q download ((d.browser.exportAll r q).runOn l.journaled).2.server.entries := by
  have hkept := d.browser.keeps_exportAll r q (P := Pairing.self σ _ _)
    l.journaled l rfl (accounted_nil _) ⟨rfl, rfl, rfl, rfl⟩
  obtain ⟨_, -, -, hopened⟩ := hkept.outcomes.of_ok h
  exact hopened

/-- The journal of a full export that was delivered falls in two parts.  The first has a count of the rows, which
is within the limit of the role; the second has the rows that were fetched, and the data lines are these, so the
limit holds just if no more rows than it allows were fetched. -/
theorem exportAll_delivers_fetched_rows (patience : Nat) (l : Link σ) (name : String)
    (delivery : Delivery)
    (h : ((d.answer r (.exportAll q patience)).runOn l).1 = .ok (.download name delivery)) :
    ∃ opening streaming query total,
      d.journal r (.exportAll q patience) l = opening ++ streaming ∧
      Counted opening q.database query total ∧
      total ≤ d.policy.maxExportRows r.user.role ∧
      d.policy.maxExportRows r.user.role ≤ d.policy.absoluteCeiling ∧
      delivery.dataLines ≤ fetchedRows streaming ∧
      ((∀ f, delivery.ending ≠ .failed f) → delivery.dataLines = fetchedRows streaming ∧
        ((delivery.dataLines : Int) ≤ d.policy.maxExportRows r.user.role ↔
          (fetchedRows streaming : Int) ≤ d.policy.maxExportRows r.user.role)) ∧
      ((fetchedRows streaming : Int) ≤ total →
        (delivery.dataLines : Int) ≤ d.policy.maxExportRows r.user.role) := by
  rw [← (d.answer_journaled r (.exportAll q patience) l).1] at h
  have hopened : ∀ download, ((d.browser.exportAll r q).runOn l.journaled).1 = .ok download →
      d.browser.Opened r q download ((d.browser.exportAll r q).runOn l.journaled).2.server.entries :=
    fun _ h => d.opened_of_exportAll r q h
  have hanswer : d.answer (σ := Journal σ) r (.exportAll q patience) =
      (d.browser.exportAll r q >>= fun download =>
        download.stream.receive patience >>= fun delivery =>
          pure (.download download.fileName delivery)) := rfl
  unfold journal
  rw [hanswer, runOn_bind] at h ⊢
  rcases hexport : (d.browser.exportAll r q).runOn l.journaled with ⟨outcome, m⟩
  rw [hexport] at h hopened
  cases outcome with
  | error f => cases h
  | ok download =>
      obtain ⟨⟨e, hstream, haudit⟩, query, total, hcounted, henforced⟩ := hopened download rfl
      have hquiet : ∀ written, Quiet (e.onComplete written) := by
        intro written
        obtain ⟨entry, hentry⟩ := haudit written
        rw [hentry]
        exact Audit.quiet_record entry
      simp only [hstream, runOn_bind] at h ⊢
      obtain ⟨streaming, hentries, hfetched⟩ := TextStream.fetches_receive_waiting hquiet patience m
      rcases hreceive : ((TextStream.cursor e .waiting).receive patience).runOn m with ⟨received, n⟩
      rw [hreceive] at h hentries hfetched
      cases received with
      | error f => exact nomatch h
      | ok arrived =>
          cases h
          obtain ⟨hle, heq⟩ := hfetched delivery rfl
          have hlimit := Policy.le_of_enforce henforced
          refine ⟨_, streaming, query, total, hentries, hcounted, hlimit,
            d.policy.maxExportRows_le _, hle, ?_, ?_⟩
          · intro hended
            rw [heq hended]
            exact ⟨rfl, Iff.rfl⟩
          · intro hfew
            change total ≤ d.policy.maxExportRows r.user.role at hlimit
            omega

end Desk

def Reply.delivery? : Result Reply → Option (String × Delivery)
  | .ok (.download name delivery) => some (name, delivery)
  | _ => none

theorem Reply.eq_of_delivery? {outcome : Result Reply} {name : String} {delivery : Delivery}
    (h : Reply.delivery? outcome = some (name, delivery)) :
    outcome = .ok (.download name delivery) := by
  cases outcome with
  | error f => exact nomatch h
  | ok reply =>
      cases reply with
      | download name' delivery' =>
          cases h
          rfl
      | tables _ | columns _ | page _ | check _ | payload _ => exact nomatch h

/-! ## A table that grows

Between the count and the cursor other sessions may insert rows.
-/

/-- A database with one table, `public.t`, into which two rows are inserted whenever a transaction commits. -/
structure GrowingTable where
  ids : List Int
  cursor : List Int

namespace GrowingTable

def answer (t : GrowingTable) : Call → Option (List Row) × GrowingTable
  | .execute _ (.tableExists _) => (some [[("table_name", .text "t")]], t)
  | .execute _ (.columns _) | .execute _ (.primaryKey _) => (some [[("column_name", .text "id")]], t)
  | .execute _ (.count _) => (some [[("count", .int t.ids.length)]], t)
  | .execute _ (.declareCursor _) => (some [], { t with cursor := t.ids })
  | .execute _ (.fetch size) =>
      (some ((t.cursor.take size.toNat).map fun id => [("id", .int id)]),
        { t with cursor := t.cursor.drop size.toNat })
  | .commit _ =>
      (some [], { t with ids := t.ids ++ [(t.ids.length : Int) + 1, (t.ids.length : Int) + 2] })
  | _ => (some [], t)

instance : Server GrowingTable := ⟨answer⟩

def link : Link GrowingTable := ⟨⟨[1], []⟩, 0, [], ⟨[("Prod", "postgresql://prod")], {}, []⟩⟩

/-- Analysts may export one row, and nobody may export more than two. -/
def desk : Desk where
  policy := ⟨[(.text "analyst", ⟨.text "analyst", .standard, 1, false⟩)], 1, 2⟩
  settings := {}
  blocks := {}
  pageSize := 50
  batchSize := 10
  timeout := .int 30000

def analyst : Requester := ⟨⟨"2", .text "a@example.com", .text "analyst", true⟩, [], .null⟩

def request : TableRequest := ⟨"Prod", "t", [], []⟩

theorem exportAll_outcome :
    ((desk.answer analyst (.exportAll request 10)).runOn link).1 =
      .ok (.download "t_export.csv" ⟨["id\n", "1\n2\n3\n"], .complete⟩) :=
  Reply.eq_of_delivery? (by decide +kernel)

theorem maxExportRows_eq : desk.policy.maxExportRows analyst.user.role = 1 := by decide +kernel

theorem dataLines_eq : Delivery.dataLines ⟨["id\n", "1\n2\n3\n"], .complete⟩ = 3 := by decide +kernel

/-- An export that was complete, with more data lines than the limit of the role and than the ceiling. -/
theorem exportAll_exceeds_limit :
    ∃ name delivery,
      ((desk.answer analyst (.exportAll request 10)).runOn link).1 = .ok (.download name delivery) ∧
      delivery.ending = .complete ∧
      desk.policy.maxExportRows analyst.user.role < (delivery.dataLines : Int) ∧
      desk.policy.absoluteCeiling < (delivery.dataLines : Int) := by
  refine ⟨_, _, exportAll_outcome, rfl, ?_, ?_⟩
  · rw [maxExportRows_eq, dataLines_eq]
    decide
  · rw [dataLines_eq]
    decide

/-- Three rows were fetched for these lines, after at most one had been counted. -/
theorem exportAll_fetches_more_than_counted :
    ∃ opening streaming query total,
      desk.journal analyst (.exportAll request 10) link = opening ++ streaming ∧
      Counted opening request.database query total ∧
      total ≤ 1 ∧ fetchedRows streaming = 3 := by
  obtain ⟨opening, streaming, query, total, hjournal, hcounted, hlimit, -, -, hfetched, -⟩ :=
    desk.exportAll_delivers_fetched_rows analyst request 10 link _ _ exportAll_outcome
  have hcomplete := (hfetched fun f => nofun).1
  rw [dataLines_eq] at hcomplete
  rw [maxExportRows_eq] at hlimit
  exact ⟨opening, streaming, query, total, hjournal, hcounted, hlimit, hcomplete.symm⟩

end GrowingTable

end TableSteward

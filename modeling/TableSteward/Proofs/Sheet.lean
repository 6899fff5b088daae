import TableSteward.Proofs.Exchange
import TableSteward.Proofs.Receiver

/-!
# Sheets

A sheet is the text of a table: the header, and then the record of each row in order.  The sheet of the first rows
is the beginning of the whole sheet.  A download of rows from memory delivers a sheet.
-/
set_option autoImplicit false

namespace TableSteward

namespace Row

/-- The value of a row under a column, if the column is a name. -/
def under (row : Row) (column : Value) : Value := (column.text?.bind row.get?).getD .null

theorem cells_eq (row : Row) (columns : List Value) :
    columns.mapM (Csv.cell row) =
      if columns.all Value.isKey then .ok (columns.map row.under) else .error .notAKey := by
  induction columns with
  | nil => rfl
  | cons column columns ih =>
      rw [List.mapM_cons, ih, List.all_cons]
      cases hkey : column.isKey with
      | false => simp [Csv.cell, hkey]; rfl
      | true => cases columns.all Value.isKey <;> simp [Csv.cell, hkey] <;> rfl

theorem cells_of_names (row : Row) (names : List String) :
    (names.map Value.text).mapM (Csv.cell row) =
      .ok (names.map fun name => (row.get? name).getD .null) := by
  have hkeys : (names.map Value.text).all Value.isKey = true := by
    rw [List.all_map, List.all_eq_true]
    exact fun _ _ => rfl
  rw [cells_eq, if_pos hkeys, List.map_map]
  rfl

end Row

namespace Csv

/-- The records of the rows, without a header. -/
def body (columns : List Value) (rows : List Row) : Result String := do
  let lines ← rows.mapM (rowLine columns)
  return String.join lines

def sheet (columns : List Value) (rows : List Row) : Result String := do
  let header ← header columns
  let body ← body columns rows
  return header ++ body

variable {columns : List Value} {rows : List Row}

theorem body_append (columns : List Value) (rows rows' : List Row) :
    body columns (rows ++ rows') = do
      let s ← body columns rows
      let s' ← body columns rows'
      return s ++ s' := by
  unfold body
  simp only [List.mapM_append, bind_assoc, pure_bind, String.join_append]

theorem body_of_append {rows' : List Row} {s : String} (h : body columns (rows ++ rows') = .ok s) :
    ∃ t u, body columns rows = .ok t ∧ body columns rows' = .ok u ∧ s = t ++ u := by
  rw [body_append] at h
  obtain ⟨t, ht, h⟩ := Result.of_bind_ok h
  obtain ⟨u, hu, h⟩ := Result.of_bind_ok h
  cases h
  exact ⟨t, u, ht, hu, rfl⟩

theorem sheet_of_body {h s : String} (hheader : header columns = .ok h)
    (hbody : body columns rows = .ok s) : sheet columns rows = .ok (h ++ s) := by
  unfold sheet
  rw [hheader, hbody]
  rfl

theorem of_sheet {s : String} (h : sheet columns rows = .ok s) :
    ∃ h b, header columns = .ok h ∧ body columns rows = .ok b ∧ s = h ++ b := by
  obtain ⟨h', hheader, h⟩ := Result.of_bind_ok h
  obtain ⟨b, hbody, h⟩ := Result.of_bind_ok h
  cases h
  exact ⟨h', b, hheader, hbody, rfl⟩

/-- Fewer rows make a shorter sheet, which the whole one begins with. -/
theorem sheet_isPrefix {rows' : List Row} {s whole : String} (hrows : rows' <+: rows)
    (h : sheet columns rows' = .ok s) (hwhole : sheet columns rows = .ok whole) :
    s.toList <+: whole.toList := by
  obtain ⟨rest, rfl⟩ := hrows
  obtain ⟨t, b, hheader, hbody, rfl⟩ := of_sheet h
  obtain ⟨t', b', hheader', hbody', rfl⟩ := of_sheet hwhole
  obtain rfl : t = t' := Except.ok.inj (hheader.symm.trans hheader')
  obtain ⟨u, v, hu, -, rfl⟩ := body_of_append hbody'
  obtain rfl : b = u := Except.ok.inj (hbody.symm.trans hu)
  rw [String.toList_append, String.toList_append, String.toList_append, ← List.append_assoc]
  exact List.prefix_append _ _

theorem recordsFrom_body {s : String} (h : body columns rows = .ok s) (rest : List Char) :
    recordsFrom false (s.toList ++ rest) = recordsFrom false rest + rows.length := by
  obtain ⟨lines, hlines, h⟩ := Result.of_bind_ok h
  cases h
  exact recordsFrom_join hlines rest

theorem records_sheet {s : String} (h : sheet columns rows = .ok s) :
    records s = rows.length + 1 := by
  obtain ⟨t, b, hheader, hbody, rfl⟩ := of_sheet h
  have hrows := recordsFrom_body hbody []
  rw [List.append_nil] at hrows
  unfold records
  rw [String.toList_append, recordsFrom_line hheader, hrows]
  exact congrArg (· + 1) (Nat.zero_add _)

end Csv

/-! ## Deliveries -/

namespace TextStream

open Exchange

variable {σ : Type} [Server σ]

theorem runOn_receive_zero (s : TextStream σ) (l : Link σ) :
    runOn (receive 0 s) l =
      match runOn s.close l with
      | (.error f, m) => (.error f, m)
      | (.ok (), m) => (.ok ⟨[], .givenUp⟩, m) := by
  rw [receive, runOn_bind]
  rcases runOn s.close l with ⟨_ | _, m⟩ <;> rfl

theorem runOn_receive_succ (patience : Nat) (s : TextStream σ) (l : Link σ) :
    runOn (receive (patience + 1) s) l =
      match runOn s.next l with
      | (.error f, m) => (.ok ⟨[], .failed f⟩, m)
      | (.ok (none, _), m) => (.ok ⟨[], .complete⟩, m)
      | (.ok (some chunk, rest), m) =>
          runOn (receive patience rest >>= fun d => pure (d.after chunk)) m := by
  change runOn (attempt s.next >>= _) l = _
  rw [runOn_bind, runOn_attempt]
  rcases runOn s.next l with ⟨_ | ⟨_ | chunk, rest⟩, m⟩ <;> rfl

theorem runOn_records_header {columns : List Value} {rows : List Row} {header : String}
    (h : Csv.header columns = .ok header) (l : Link σ) :
    runOn (next (records columns false rows)) l = (.ok (some header, records columns true rows), l) := by
  simp only [next, h]
  rfl

theorem runOn_records_row {columns : List Value} {row : Row} {rows : List Row} {line : String}
    (h : Csv.rowLine columns row = .ok line) (l : Link σ) :
    runOn (next (records columns true (row :: rows))) l =
      (.ok (some line, records columns true rows), l) := by
  simp only [next, h]
  rfl

theorem receive_rows {columns : List Value} {rows : List Row} {lines : List String}
    (h : List.Forall₂ (fun row line => Csv.rowLine columns row = .ok line) rows lines) :
    ∀ {patience : Nat} (l : Link σ), lines.length < patience →
      runOn (receive patience (records columns true rows)) l = (.ok ⟨lines, .complete⟩, l) := by
  induction h with
  | nil =>
      intro patience l hpatience
      cases patience with
      | zero => exact absurd hpatience (Nat.lt_irrefl _)
      | succ patience => rfl
  | @cons row line rows lines hline _ ih =>
      intro patience l hpatience
      cases patience with
      | zero => exact absurd hpatience (Nat.not_lt_zero _)
      | succ patience =>
          rw [runOn_receive_succ, runOn_records_row hline]
          dsimp only
          rw [runOn_bind, ih l (Nat.lt_of_succ_lt_succ hpatience)]
          rfl

/-- A receiver who is patient enough gets the header and then the records one by one. -/
theorem receive_records {columns : List Value} {rows : List Row} {header : String}
    {lines : List String} (hheader : Csv.header columns = .ok header)
    (hlines : rows.mapM (Csv.rowLine columns) = .ok lines) {patience : Nat}
    (hpatience : lines.length + 1 < patience) (l : Link σ) :
    runOn (receive patience (records columns false rows)) l =
      (.ok ⟨header :: lines, .complete⟩, l) := by
  cases patience with
  | zero => exact absurd hpatience (Nat.not_lt_zero _)
  | succ patience =>
      rw [runOn_receive_succ, runOn_records_header hheader]
      dsimp only
      have hrows := receive_rows (Result.forall₂_of_mapM_ok hlines) l (Nat.lt_of_succ_lt_succ hpatience)
      rw [runOn_bind, hrows]
      rfl

/-- A download of rows from memory asks nothing of anyone. -/
theorem runOn_receive_records (columns : List Value) :
    ∀ (patience : Nat) (headed : Bool) (rows : List Row) (l : Link σ),
      (runOn (receive patience (records columns headed rows)) l).2 = l := by
  intro patience
  induction patience with
  | zero => exact fun _ _ _ => rfl
  | succ patience ih =>
      have hlater : ∀ (chunk : String) (rows : List Row) (l : Link σ),
          (runOn (receive patience (records columns true rows) >>= fun d => pure (d.after chunk)) l).2 = l := by
        intro chunk rows l
        have hrest := ih true rows l
        rw [runOn_bind]
        rcases hrun : runOn (receive patience (records columns true rows)) l with ⟨_ | _, m⟩
        all_goals
          rw [hrun] at hrest
          exact hrest
      intro headed rows l
      rw [runOn_receive_succ]
      cases headed with
      | false =>
          cases hheader : Csv.header columns with
          | error f =>
              simp only [next, hheader]
              rfl
          | ok header =>
              rw [runOn_records_header hheader]
              exact hlater header rows l
      | true =>
          cases rows with
          | nil => rfl
          | cons row rest =>
              cases hline : Csv.rowLine columns row with
              | error f =>
                  simp only [next, hline]
                  rfl
              | ok line =>
                  rw [runOn_records_row hline]
                  exact hlater line rest l

end TextStream

end TableSteward

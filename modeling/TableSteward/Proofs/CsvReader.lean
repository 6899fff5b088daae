import TableSteward.Proofs.ExportLimit
import TableSteward.Proofs.ExportOrder
import TableSteward.Proofs.JsonLine

/-!
# Reading comma-separated text

A reader in the manner of RFC 4180: fields are separated by commas and records ended by line ends; a field in quotes
may hold anything, with each quote doubled, and a field without them holds no quote and no carriage return.  The
reader goes through a text once, character by character.  What it finds in a sheet is the header and one record for
each row, with the text of each cell.
-/
set_option autoImplicit false

namespace TableSteward

namespace CsvReader

/-- Where the reader stands: before a field, in one without quotes, in one with quotes, or after a quote in it. -/
inductive Place
  | start
  | plain
  | quoted
  | leaving
  deriving DecidableEq, Repr

structure State where
  place : Place := .start
  field : List Char := []
  fields : List String := []
  records : List (List String) := []
  deriving DecidableEq, Repr

namespace State

def take (st : State) (place : Place) (c : Char) : State :=
  { st with place := place, field := st.field ++ [c] }

def endField (st : State) : State := ⟨.start, [], st.fields ++ [String.ofList st.field], st.records⟩

def endRecord (st : State) : State :=
  ⟨.start, [], [], st.records ++ [st.fields ++ [String.ofList st.field]]⟩

def separate? (st : State) (c : Char) : Option State :=
  if c = ',' then some st.endField
  else if c = '\n' then some st.endRecord
  else none

def plain? (st : State) (c : Char) : Option State :=
  if Csv.isSpecial c then st.separate? c else some (st.take .plain c)

def step (st : State) (c : Char) : Option State :=
  match st.place with
  | .start => if c = '"' then some { st with place := .quoted } else st.plain? c
  | .plain => st.plain? c
  | .quoted => some (if c = '"' then { st with place := .leaving } else st.take .quoted c)
  | .leaving => if c = '"' then some (st.take .quoted c) else st.separate? c

def run (st : State) (cs : List Char) : Option State := cs.foldlM step st

/-- A text ends where a record ends. -/
def result? (st : State) : Option (List (List String)) :=
  if st.place = .start ∧ st.fields = [] then some st.records else none

end State

/-- The records of a text, if it is well-formed. -/
def read? (s : String) : Option (List (List String)) := do
  let st ← State.run {} s.toList
  st.result?

namespace State

theorem run_append (st : State) (cs ds : List Char) :
    st.run (cs ++ ds) = (st.run cs).bind fun st => st.run ds := List.foldlM_append

theorem run_cons {st st' : State} {c : Char} (h : st.step c = some st') (cs : List Char) :
    st.run (c :: cs) = st'.run cs := by
  rw [run, List.foldlM_cons, h]
  rfl

theorem run_of_append {st st' : State} {cs : List Char} (h : st.run cs = some st') (ds : List Char) :
    st.run (cs ++ ds) = st'.run ds := by
  rw [run_append, h]
  rfl

/-! ## Fields -/

theorem run_plain {cs : List Char} (hcs : ∀ c ∈ cs, Csv.isSpecial c = false) :
    ∀ st : State, st.place = .start ∨ st.place = .plain →
      ∃ place, (place = .start ∨ place = .plain) ∧
        st.run cs = some { st with place := place, field := st.field ++ cs } := by
  induction cs with
  | nil =>
      intro st hplace
      refine ⟨st.place, hplace, ?_⟩
      rw [List.append_nil]
      rfl
  | cons c cs ih =>
      intro st hplace
      have hc : Csv.isSpecial c = false := hcs c (List.mem_cons_self ..)
      have hquote : c ≠ '"' := by
        rintro rfl
        exact nomatch hc
      have hstep : st.step c = some (st.take .plain c) := by
        have hplain : st.plain? c = some (st.take .plain c) := by simp [plain?, hc]
        rcases hplace with h | h
        · simp [step, h, hquote, hplain]
        · simp [step, h, hplain]
      obtain ⟨place, hplace', hrun⟩ :=
        ih (fun d hd => hcs d (List.mem_cons_of_mem _ hd)) (st.take .plain c) (.inr rfl)
      refine ⟨place, hplace', ?_⟩
      rw [run_cons hstep, hrun]
      simp [take]

/-- A doubled quote is read as a quote. -/
theorem run_doubleQuotes (cs : List Char) :
    ∀ {st : State}, st.place = .quoted →
      st.run (Csv.doubleQuotes cs) = some { st with field := st.field ++ cs } := by
  induction cs with
  | nil =>
      intro st _
      rw [List.append_nil]
      rfl
  | cons c cs ih =>
      intro st hplace
      by_cases hc : c = '"'
      · subst hc
        have hleaving : st.step '"' = some { st with place := .leaving } := by
          simp [step, hplace]
        have hquoted : ({ st with place := .leaving } : State).step '"' =
            some (st.take .quoted '"') := rfl
        have hdoubled : Csv.doubleQuotes ('"' :: cs) = '"' :: '"' :: Csv.doubleQuotes cs := rfl
        rw [hdoubled, run_cons hleaving, run_cons hquoted, ih rfl]
        simp [take, hplace]
      · have hstep : st.step c = some (st.take .quoted c) := by
          simp [step, hplace, hc]
        have hsame : Csv.doubleQuotes (c :: cs) = c :: Csv.doubleQuotes cs := by
          simp [Csv.doubleQuotes, hc]
        rw [hsame, run_cons hstep, ih rfl]
        simp [take, hplace]

/-- After a field the reader is ready for a separator. -/
theorem run_quoteField (s : String) (fields : List String) (records : List (List String)) :
    ∃ place, place ≠ .quoted ∧
      run ⟨.start, [], fields, records⟩ (Csv.quoteField s).toList =
        some ⟨place, s.toList, fields, records⟩ := by
  unfold Csv.quoteField
  by_cases hspecial : s.toList.any Csv.isSpecial = true
  · rw [if_pos hspecial, String.toList_ofList]
    refine ⟨.leaving, by decide, ?_⟩
    have hopen : step ⟨.start, [], fields, records⟩ '"' = some ⟨.quoted, [], fields, records⟩ := rfl
    rw [List.cons_append, run_cons hopen, run_of_append (run_doubleQuotes s.toList rfl)]
    rfl
  · rw [if_neg hspecial]
    have hplain : ∀ c ∈ s.toList, Csv.isSpecial c = false := by
      intro c hc
      cases hcs : Csv.isSpecial c with
      | false => rfl
      | true => exact absurd (List.any_eq_true.mpr ⟨c, hc, hcs⟩) hspecial
    obtain ⟨place, hplace, hrun⟩ := run_plain hplain ⟨.start, [], fields, records⟩ (.inl rfl)
    refine ⟨place, ?_, hrun⟩
    rcases hplace with rfl | rfl <;> decide

theorem step_comma {st : State} (h : st.place ≠ .quoted) : st.step ',' = some st.endField := by
  rcases st with ⟨_ | _ | _ | _, field, fields, records⟩
  · rfl
  · rfl
  · exact absurd rfl h
  · rfl

theorem step_lineEnd {st : State} (h : st.place ≠ .quoted) : st.step '\n' = some st.endRecord := by
  rcases st with ⟨_ | _ | _ | _, field, fields, records⟩
  · rfl
  · rfl
  · exact absurd rfl h
  · rfl

theorem texts_of_fields {vs : List Value} {fields : List String}
    (h : List.Forall₂ (fun v field => Csv.field v = .ok field) vs fields) :
    ∃ texts, List.Forall₂ (fun v text => Csv.cellText v = .ok text) vs texts ∧
      fields = texts.map Csv.quoteField := by
  induction h with
  | nil => exact ⟨[], .nil, rfl⟩
  | cons hfield _ ih =>
      obtain ⟨text, htext, hquoted⟩ := Result.of_bind_ok hfield
      cases hquoted
      obtain ⟨texts, htexts, rfl⟩ := ih
      exact ⟨text :: texts, .cons htext htexts, rfl⟩

/-! ## Records -/

/-- The fields of a record are read as they are; one that is empty is still a field. -/
theorem run_fields {texts : List String} (htexts : texts ≠ []) :
    ∀ (fields : List String) (records : List (List String)) (rest : List Char),
      run ⟨.start, [], fields, records⟩
          ((",".intercalate (texts.map Csv.quoteField)).toList ++ '\n' :: rest) =
        run ⟨.start, [], [], records ++ [fields ++ texts]⟩ rest := by
  induction texts with
  | nil => exact absurd rfl htexts
  | cons s texts ih =>
      intro fields records rest
      obtain ⟨place, hplace, hrun⟩ := run_quoteField s fields records
      cases texts with
      | nil =>
          rw [List.map_singleton, String.intercalate_singleton, run_of_append hrun,
            run_cons (step_lineEnd hplace)]
          simp [endRecord]
      | cons t texts =>
          have hcomma : step ⟨place, s.toList, fields, records⟩ ',' =
              some ⟨.start, [], fields ++ [s], records⟩ := by
            rw [step_comma hplace]
            simp [endField]
          have ih := ih (List.cons_ne_nil _ _) (fields ++ [s]) records rest
          rw [List.map_cons] at ih
          have hseparator : ",".toList = [','] := rfl
          rw [List.map_cons, List.map_cons, String.intercalate_cons_cons, String.toList_append,
            String.toList_append, List.append_assoc, List.append_assoc, run_of_append hrun, hseparator,
            List.singleton_append, run_cons hcomma, ih, List.append_assoc]
          rfl

/-- One line of cells is one record with their texts. -/
theorem run_line {vs : List Value} {s : String} (hvs : vs ≠ []) (h : Csv.line vs = .ok s) :
    ∃ texts, List.Forall₂ (fun v text => Csv.cellText v = .ok text) vs texts ∧
      ∀ records rest, run ⟨.start, [], [], records⟩ (s.toList ++ rest) =
        run ⟨.start, [], [], records ++ [texts]⟩ rest := by
  obtain ⟨fields, hfields, h⟩ := Result.of_bind_ok h
  cases h
  obtain ⟨texts, htexts, rfl⟩ := texts_of_fields (Result.forall₂_of_mapM_ok hfields)
  refine ⟨texts, htexts, ?_⟩
  intro records rest
  have hne : texts ≠ [] := by
    rintro rfl
    cases htexts
    exact hvs rfl
  rw [String.toList_append, List.append_assoc]
  exact run_fields hne [] records rest

theorem run_rows {columns : List Value} (hcolumns : columns ≠ []) {rows : List Row}
    {lines : List String} (h : List.Forall₂ (fun row line => Csv.rowLine columns row = .ok line) rows lines) :
    ∃ found, List.Forall₂ (fun row texts => ∃ cells, columns.mapM (Csv.cell row) = .ok cells ∧
        List.Forall₂ (fun v text => Csv.cellText v = .ok text) cells texts) rows found ∧
      ∀ records, run ⟨.start, [], [], records⟩ (String.join lines).toList =
        some ⟨.start, [], [], records ++ found⟩ := by
  induction h with
  | nil =>
      refine ⟨[], .nil, ?_⟩
      intro records
      rw [List.append_nil]
      rfl
  | @cons row line rows lines hline _ ih =>
      obtain ⟨cells, hcells, hline⟩ := Result.of_bind_ok hline
      have hne : cells ≠ [] := by
        rintro rfl
        cases Result.forall₂_of_mapM_ok hcells
        exact hcolumns rfl
      obtain ⟨texts, htexts, hrun⟩ := run_line hne hline
      obtain ⟨found, hfound, hrest⟩ := ih
      refine ⟨texts :: found, .cons ⟨cells, hcells, htexts⟩ hfound, ?_⟩
      intro records
      rw [String.join_cons, String.toList_append, hrun, hrest, List.append_assoc]
      rfl

end State

/-! ## Cells -/

/-- The values whose text in a cell is not that of the plain value. -/
def hasOwnText : Value → Bool
  | .null | .bool _ | .list _ | .dict _ => true
  | _ => false

/-- What a cell is to read: a document for a list or a dictionary, and the text of the plain value otherwise. -/
inductive Renders : Value → String → Prop
  | null : Renders .null ""
  | bool (b : Bool) : Renders (.bool b) (if b then "true" else "false")
  | list {items : List Value} {s : String} :
      Json.compact (Value.list items).texted = some s → Renders (.list items) s
  | dict {entries : Entries Value} {s : String} :
      Json.compact (Value.dict entries).texted = some s → Renders (.dict entries) s
  | plain {v p : Value} : hasOwnText v = false → v.plain? = some p → Renders v p.display

theorem cellText_of_plain {v : Value} (h : hasOwnText v = false) :
    Csv.cellText v = v.plain?.elim (.error .unreadableNumber) fun p => .ok p.display := by
  cases v with
  | null | bool _ | list _ | dict _ => exact nomatch h
  | decimal d => cases hd : d.toBinary64? <;> simp [Csv.cellText, Value.plain?, hd]
  | _ => rfl

theorem renders_iff {v : Value} {s : String} : Renders v s ↔ Csv.cellText v = .ok s := by
  constructor
  · intro h
    cases h with
    | null => rfl
    | bool b => rfl
    | list h => simp [Csv.cellText, Value.lineText, h]
    | dict h => simp [Csv.cellText, Value.lineText, h]
    | plain hown hplain =>
        rw [cellText_of_plain hown, hplain]
        rfl
  · intro h
    cases hown : hasOwnText v with
    | false =>
        rw [cellText_of_plain hown] at h
        cases hplain : v.plain? with
        | none =>
            rw [hplain] at h
            cases h
        | some p =>
            rw [hplain] at h
            cases h
            exact .plain hown hplain
    | true =>
        cases v with
        | null => cases h; exact .null
        | bool b => cases h; exact .bool b
        | list items => cases h; exact .list (Json.compact_lineText _)
        | dict entries => cases h; exact .dict (Json.compact_lineText _)
        | _ => cases hown

/-! ## Sheets -/

/-- A record of a row: in each column the text of the cell, which is null if the row lacks the column. -/
def Recorded (names : List String) (row : Row) (fields : List String) : Prop :=
  List.Forall₂ (fun name text => Renders ((row.get? name).getD .null) text) names fields

/-- The text is read as the names and then one record for each row. -/
def Recovers (names : List String) (rows : List Row) (s : String) : Prop :=
  ∃ records, read? s = some (names :: records) ∧ List.Forall₂ (Recorded names) rows records

theorem texts_of_names {names texts : List String}
    (h : List.Forall₂ (fun v text => Csv.cellText v = .ok text) (names.map Value.text) texts) :
    texts = names := by
  induction names generalizing texts with
  | nil => cases h; rfl
  | cons name names ih =>
      cases h with
      | cons hname hnames =>
          cases hname
          rw [ih hnames]
          rfl

theorem recorded_of_cells {names : List String} {row : Row} {cells : List Value} {fields : List String}
    (hcells : (names.map Value.text).mapM (Csv.cell row) = .ok cells)
    (hfields : List.Forall₂ (fun v text => Csv.cellText v = .ok text) cells fields) :
    Recorded names row fields := by
  rw [Row.cells_of_names] at hcells
  cases hcells
  exact (List.forall₂_map_left_iff.mp hfields).imp fun _ _ h => renders_iff.mpr h

theorem recovers_sheet {names : List String} (hnames : names ≠ []) {rows : List Row} {s : String}
    (h : Csv.sheet (names.map Value.text) rows = .ok s) : Recovers names rows s := by
  obtain ⟨header, body, hheader, hbody, rfl⟩ := Csv.of_sheet h
  obtain ⟨lines, hlines, hbody⟩ := Result.of_bind_ok hbody
  cases hbody
  have hcolumns : names.map Value.text ≠ [] := by simpa using hnames
  obtain ⟨texts, htexts, hrun⟩ := State.run_line hcolumns hheader
  obtain rfl := texts_of_names htexts
  obtain ⟨found, hfound, hrest⟩ := State.run_rows hcolumns (Result.forall₂_of_mapM_ok hlines)
  refine ⟨found, ?_, hfound.imp fun row fields ⟨cells, hcells, hfields⟩ =>
    recorded_of_cells hcells hfields⟩
  have hread : State.run {} (header ++ String.join lines).toList =
      some ⟨.start, [], [], texts :: found⟩ := by
    rw [String.toList_append]
    exact (hrun [] _).trans (hrest [texts])
  rw [read?, hread]
  rfl

/-! ## Deliveries -/

open Exchange

variable {σ : Type} [Server σ]

theorem line_of_texts {vs : List Value} (h : ∀ v ∈ vs, ∃ text, Csv.cellText v = .ok text) :
    ∃ s, Csv.line vs = .ok s := by
  have hfields : ∃ fields, vs.mapM Csv.field = .ok fields := by
    refine Result.mapM_ok_of_forall fun v hv => ?_
    obtain ⟨text, htext⟩ := h v hv
    refine ⟨Csv.quoteField text, ?_⟩
    rw [Csv.field, htext]
    rfl
  obtain ⟨fields, hfields⟩ := hfields
  refine ⟨",".intercalate fields ++ "\n", ?_⟩
  rw [Csv.line, hfields]
  rfl

theorem header_of_names (names : List String) : ∃ s, Csv.header (names.map Value.text) = .ok s := by
  refine line_of_texts ?_
  intro v hv
  obtain ⟨name, -, rfl⟩ := List.mem_map.mp hv
  exact ⟨name, rfl⟩

theorem rowLine_of_renders {names : List String} {row : Row}
    (h : ∀ name ∈ names, ∃ text, Renders ((row.get? name).getD .null) text) :
    ∃ s, Csv.rowLine (names.map Value.text) row = .ok s := by
  have hline : ∃ s, Csv.line (names.map fun name => (row.get? name).getD .null) = .ok s := by
    refine line_of_texts ?_
    intro v hv
    obtain ⟨name, hname, rfl⟩ := List.mem_map.mp hv
    obtain ⟨text, htext⟩ := h name hname
    exact ⟨text, renders_iff.mp htext⟩
  obtain ⟨s, hs⟩ := hline
  refine ⟨s, ?_⟩
  rw [Csv.rowLine, Row.cells_of_names]
  exact hs

/-- A download is read as the names of its columns and one record for each row: for rows from memory whenever their
cells have texts, and for a cursor whenever the download is complete, in batches of any size. -/
theorem recovers_deliveries (names : List String) (hnames : names ≠ []) :
    (∀ rows : List Row,
      (∀ row ∈ rows, ∀ name ∈ names, ∃ text, Renders ((row.get? name).getD .null) text) →
      ∀ (patience : Nat) (l : Link σ), rows.length + 1 < patience →
        ∃ d, runOn (TextStream.receive patience (.records (names.map Value.text) false rows)) l =
            (.ok d, l) ∧
          d.ending = .complete ∧ Recovers names rows d.text) ∧
    (∀ e : CursorExport (Journal σ), e.columns = names.map Value.text →
      ∀ (patience : Nat) (l n : Link (Journal σ)) (d : Delivery),
        runOn (TextStream.receive patience (.cursor e .waiting)) l = (.ok d, n) →
        d.ending = .complete →
        ∃ (m : Link (Journal σ)) (p : Footprint), p.Between l m ∧
          runOn (e.onComplete d.dataLines) m = (.ok (), n) ∧
          Recovers names (givenRows p.calls) d.text) := by
  constructor
  · intro rows hrows patience l hpatience
    obtain ⟨header, hheader⟩ := header_of_names names
    obtain ⟨lines, hlines⟩ := Result.mapM_ok_of_forall fun row hrow => rowLine_of_renders (hrows row hrow)
    have hlength := (Result.forall₂_of_mapM_ok hlines).length_eq
    refine ⟨_, TextStream.receive_records hheader hlines (by omega) l, rfl, ?_⟩
    refine recovers_sheet hnames ?_
    rw [Csv.sheet, hheader, Csv.body, hlines]
    exact congrArg Except.ok (String.join_cons ..).symm
  · intro e hcolumns patience l n d hrun hcomplete
    obtain ⟨d', m, p, -, hannounced, hp, -, hexported⟩ := e.receive_exported patience l
    rw [hrun] at hannounced
    obtain ⟨rfl, hannounce⟩ := e.of_announce_complete hannounced.symm hcomplete
    refine ⟨m, p, hp, hannounce, recovers_sheet hnames ?_⟩
    rw [← hcolumns]
    exact hexported.orderly.given hcomplete

/-- A cell with a comma, quotes and a line end, and a row without that column. -/
theorem recovers_quoted_cells :
    ∃ d, runOn (TextStream.receive 4 (.records (["id", "note"].map Value.text) false
        [[("id", .int 1), ("note", .text "a, \"b\"\nc")], [("id", .int 2)]])) GrowingTable.link =
          (.ok d, GrowingTable.link) ∧
      d.ending = .complete ∧
      Recovers ["id", "note"] [[("id", .int 1), ("note", .text "a, \"b\"\nc")], [("id", .int 2)]]
        d.text := by
  refine (recovers_deliveries ["id", "note"] (List.cons_ne_nil _ _)).1 _ ?_ 4 _ (by decide)
  intro row hrow name hname
  simp only [List.mem_cons, List.not_mem_nil, or_false] at hrow hname
  rcases hrow with rfl | rfl <;> rcases hname with rfl | rfl
  · exact ⟨_, .plain rfl rfl⟩
  · exact ⟨_, .plain rfl rfl⟩
  · exact ⟨_, .plain rfl rfl⟩
  · exact ⟨_, .null⟩

example :
    read? "id,note\n1,\"a, \"\"b\"\"\nc\"\n2,\n" =
      some [["id", "note"], ["1", "a, \"b\"\nc"], ["2", ""]] := by
  decide

end CsvReader

end TableSteward

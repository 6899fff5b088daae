import TableSteward.Proofs.CsvReader
import TableSteward.Proofs.PageCount
import TableSteward.Proofs.Settlement

/-!
# Pages and full exports

A page shows plain values and a full export the values of the rows themselves, but their cells read the same.  The
pages cut the rows into slices of one size, so that the lines of all the pages, one after the other, are the lines of
the full export.
-/
set_option autoImplicit false

namespace TableSteward

/-! ## Plain rows -/

theorem Csv.cellText_plain {v p : Value} (h : v.plain? = some p) : cellText p = cellText v := by
  cases v with
  | decimal d =>
      obtain ⟨x, hx, rfl⟩ := Option.map_eq_some_iff.mp h
      simp [cellText, Value.plain?, hx]
  | _ =>
      cases h
      rfl

theorem Csv.plain_of_cellText {v : Value} {s : String} (h : cellText v = .ok s) :
    ∃ p, v.plain? = some p := by
  cases v with
  | decimal d =>
      cases hd : d.toBinary64? with
      | some x => exact ⟨.real x, by simp [Value.plain?, hd]⟩
      | none => simp [cellText, Value.plain?, hd] at h
  | _ => exact ⟨_, rfl⟩

namespace Row

/-- A value and its plain form stand at the same places. -/
theorem get_plain {row row' : Row} (h : row.plain = .ok row') (name : String) :
    (row.get? name = none ∧ row'.get? name = none) ∨
      ∃ v p, row.get? name = some v ∧ v.plain? = some p ∧ row'.get? name = some p := by
  induction row generalizing row' with
  | nil =>
      cases h
      exact .inl ⟨rfl, rfl⟩
  | cons entry row ih =>
      obtain ⟨column, v⟩ := entry
      unfold plain at h
      rw [List.mapM_cons] at h
      obtain ⟨entry', hentry, h⟩ := Result.of_bind_ok h
      obtain ⟨others, hothers, h⟩ := Result.of_bind_ok h
      cases h
      cases hplain : v.plain? with
      | none =>
          dsimp only at hentry
          rw [hplain] at hentry
          exact nomatch hentry
      | some p =>
          dsimp only at hentry
          rw [hplain] at hentry
          cases hentry
          unfold Entries.get?
          by_cases hname : name = column
          · subst hname
            rw [List.lookup_cons_self, List.lookup_cons_self]
            exact .inr ⟨v, p, rfl, hplain, rfl⟩
          · have hskip : (name == column) = false := beq_false_of_ne hname
            rw [List.lookup_cons, hskip, List.lookup_cons, hskip]
            exact ih hothers

theorem cellText_under {row row' : Row} (h : row.plain = .ok row') (column : Value) :
    Csv.cellText (row'.under column) = Csv.cellText (row.under column) := by
  unfold under
  cases column.text? with
  | none => rfl
  | some name =>
      change Csv.cellText ((row'.get? name).getD .null) = Csv.cellText ((row.get? name).getD .null)
      rcases get_plain h name with ⟨hnone, hnone'⟩ | ⟨v, p, hv, hplain, hp⟩
      · rw [hnone, hnone']
      · rw [hv, hp]
        exact Csv.cellText_plain hplain

/-- The record of a row is that of its plain form. -/
theorem rowLine_plain {row row' : Row} (h : row.plain = .ok row') (columns : List Value) :
    Csv.rowLine columns row' = Csv.rowLine columns row := by
  have hfields : ∀ columns : List Value,
      (columns.map row'.under).mapM Csv.field = (columns.map row.under).mapM Csv.field := by
    intro columns
    induction columns with
    | nil => rfl
    | cons column columns ih =>
        have hfield : Csv.field (row'.under column) = Csv.field (row.under column) := by
          rw [Csv.field, Csv.field, cellText_under h]
        rw [List.map_cons, List.map_cons, List.mapM_cons, List.mapM_cons, hfield, ih]
  unfold Csv.rowLine
  rw [cells_eq, cells_eq]
  cases columns.all Value.isKey with
  | false => rfl
  | true =>
      change Csv.line _ = Csv.line _
      unfold Csv.line
      rw [hfields]

/-- A value that has no plain form, which is a signalling NaN, stands under one of the columns. -/
def Fits (row : Row) (columns : List Value) : Prop :=
  ∀ name v, (name, v) ∈ row → v.plain? = none → .text name ∈ columns ∧ row.get? name = some v

theorem fits_of_all_plain {row : Row} (h : row.all (fun entry => entry.2.plain?.isSome) = true)
    (columns : List Value) : row.Fits columns := by
  intro name v hmem hnone
  have hsome := List.all_eq_true.mp h (name, v) hmem
  rw [hnone] at hsome
  exact nomatch hsome

/-- The values under the columns of a row that has a record all have plain forms. -/
theorem plain_under {columns : List Value} {row : Row} {line : String}
    (h : Csv.rowLine columns row = .ok line) {column : Value} (hcolumn : column ∈ columns) :
    ∃ p, (row.under column).plain? = some p := by
  obtain ⟨cells, hcells, hline⟩ := Result.of_bind_ok h
  obtain ⟨fields, hfields, -⟩ := Result.of_bind_ok hline
  rw [cells_eq] at hcells
  split at hcells
  · cases hcells
    obtain ⟨field, -, hfield⟩ := exists_of_mem_left (Result.forall₂_of_mapM_ok hfields) _
      (List.mem_map_of_mem hcolumn)
    obtain ⟨text, htext, -⟩ := Result.of_bind_ok hfield
    exact Csv.plain_of_cellText htext
  · exact nomatch hcells

/-- A row that has a record has a plain form. -/
theorem plain_of_rowLine {columns : List Value} {row : Row} {line : String}
    (h : Csv.rowLine columns row = .ok line) (hfits : row.Fits columns) : ∃ row', row.plain = .ok row' := by
  refine Result.mapM_ok_of_forall ?_
  rintro ⟨name, v⟩ hmem
  cases hplain : v.plain? with
  | some p =>
      refine ⟨(name, p), ?_⟩
      dsimp only
      rw [hplain]
  | none =>
      obtain ⟨hcolumn, hget⟩ := hfits name v hmem hplain
      have hunder : row.under (.text name) = v := by
        change (row.get? name).getD .null = v
        rw [hget]
        rfl
      obtain ⟨p, hp⟩ := plain_under h hcolumn
      rw [hunder] at hp
      exact nomatch hplain.symm.trans hp

/-- Rows that have records have plain forms, with the same records. -/
theorem plain_lines {columns : List Value} {rows : List Row} {lines : List String}
    (h : rows.mapM (Csv.rowLine columns) = .ok lines) (hfits : ∀ row ∈ rows, row.Fits columns) :
    ∃ rows', rows.mapM plain = .ok rows' ∧ rows'.mapM (Csv.rowLine columns) = .ok lines := by
  induction rows generalizing lines with
  | nil => exact ⟨[], rfl, h⟩
  | cons row rows ih =>
      rw [List.mapM_cons] at h
      obtain ⟨line, hline, h⟩ := Result.of_bind_ok h
      obtain ⟨others, hothers, h⟩ := Result.of_bind_ok h
      cases h
      obtain ⟨row', hrow'⟩ := plain_of_rowLine hline (hfits row (List.mem_cons_self ..))
      obtain ⟨rows', hrows', hothers'⟩ := ih hothers fun r hr => hfits r (List.mem_cons_of_mem _ hr)
      refine ⟨row' :: rows', ?_, ?_⟩
      · rw [List.mapM_cons, hrow', hrows']
        rfl
      · rw [List.mapM_cons, rowLine_plain hrow', hline, hothers']
        rfl

end Row

/-! ## Slices -/

theorem Result.mapM_slice {α β : Type} {f : α → Result β} {xs : List α} {ys : List β}
    (h : xs.mapM f = .ok ys) (start size : Nat) :
    ((xs.drop start).take size).mapM f = .ok ((ys.drop start).take size) :=
  mapM_of_forall₂ (List.forall₂_take size (List.forall₂_drop start (forall₂_of_mapM_ok h)))

theorem Window.slice_page (size start : Int) (rows : List Row) :
    (Window.page size start).slice rows = (rows.drop start.toNat).take size.toNat := by
  by_cases hstart : start = 0
  · subst hstart
    rfl
  · unfold Window.page
    rw [if_neg hstart]
    rfl

namespace Page

/-- The first pages that items make, with so many items on each. -/
def cut {α : Type} (size pages : Nat) (items : List α) : List (List α) :=
  (List.range pages).map fun i => (items.drop (i * size)).take size

section Cut

variable {α : Type} {size pages : Nat} {items : List α}

theorem length_cut (size pages : Nat) (items : List α) : (cut size pages items).length = pages := by
  rw [cut, List.length_map, List.length_range]

theorem flatten_cut (size pages : Nat) (items : List α) :
    (cut size pages items).flatten = items.take (pages * size) := by
  induction pages with
  | zero => rw [Nat.zero_mul, List.take_zero]; rfl
  | succ pages ih =>
      have hcut : cut size (pages + 1) items =
          cut size pages items ++ [(items.drop (pages * size)).take size] := by
        rw [cut, List.range_succ, List.map_append]
        rfl
      rw [hcut, List.flatten_append, ih, List.flatten_singleton, Nat.succ_mul, List.take_add]

/-- Pages that have room for all items hold each of them once, in order. -/
theorem flatten_cut_eq (h : items.length ≤ pages * size) : (cut size pages items).flatten = items := by
  rw [flatten_cut, List.take_of_length_le h]

theorem of_getElem_cut {i : Nat} {page : List α} (h : (cut size pages items)[i]? = some page) :
    i < pages ∧ page = (items.drop (i * size)).take size := by
  rw [cut, List.getElem?_map] at h
  obtain ⟨j, hj, rfl⟩ := Option.map_eq_some_iff.mp h
  obtain ⟨hi, rfl⟩ := List.getElem?_eq_some_iff.mp hj
  rw [List.length_range] at hi
  rw [List.getElem_range]
  exact ⟨hi, rfl⟩

end Cut

theorem le_count {n s : Nat} (hs : 0 < s) : n ≤ max 1 ((n + s - 1) / s) * s := by
  have hmax : (n + s - 1) / s * s ≤ max 1 ((n + s - 1) / s) * s :=
    Nat.mul_le_mul_right s (Nat.le_max_right ..)
  by_cases hn : n = 0
  · omega
  · exact (ceil_bounds hs hn rfl).2.1.trans hmax

end Page

/-- A page of a query shows a slice of its rows, in their plain form, and these have the same records. -/
theorem Contents.page_eq {k : Contents} {q : Query} {columns : List Value} {lines : List String}
    {i size pages : Nat} (hpages : Page.count (.int (k.rows q).length) (.int size) = .ok pages)
    (hi : i < pages) (hlines : (k.rows q).mapM (Csv.rowLine columns) = .ok lines)
    (hfits : ∀ row ∈ k.rows q, Row.Fits row columns) :
    ∃ page, k.page q (.int ((i : Int) + 1)) size = .ok page ∧
      page.rows.mapM (Csv.rowLine columns) = .ok ((lines.drop (i * size)).take size) := by
  have hstart : (((i : Int) + 1 - 1) * size).toNat = i * size := by
    rw [Int.add_sub_cancel]
    exact Int.toNat_natCast (i * size)
  have hslice : (Window.page size (((i : Int) + 1 - 1) * size)).slice (k.rows q) =
      ((k.rows q).drop (i * size)).take size := by
    rw [Window.slice_page, hstart, Int.toNat_natCast]
  have hfits' : ∀ row ∈ ((k.rows q).drop (i * size)).take size, Row.Fits row columns :=
    fun row hrow => hfits row (List.mem_of_mem_drop (List.mem_of_mem_take hrow))
  obtain ⟨rows, hplain, hrows⟩ := Row.plain_lines (Result.mapM_slice hlines (i * size) size) hfits'
  refine ⟨⟨rows, (k.rows q).length, (i : Int) + 1, size, pages⟩, ?_, hrows⟩
  unfold page
  rw [hpages, Result.ok_bind, Page.clamp_eq hi, Result.ok_bind, hslice, hplain]
  rfl

end TableSteward

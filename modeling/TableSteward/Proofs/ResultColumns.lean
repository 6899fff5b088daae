import TableSteward.Proofs.JoinAcceptance
import TableSteward.Proofs.JoinedRows
import TableSteward.Proofs.KeyedEntries

/-!
# Columns of a result

A column of a result has a name: that of its column, with the token of its table before it unless that is the main
table.  The name has to be an identifier as well, and so it may be too long where the name of the column is not; and as
the token and an underscore may begin the name of any column, a column of the main table may have the name that a joined
column gets.
-/
set_option autoImplicit false

namespace TableSteward

/-! ## References -/

namespace Text

theorem splitOn_of_not_mem {sep : Char} {cs : List Char} (h : sep ∉ cs) : splitOn sep cs = [cs] := by
  induction cs with
  | nil => rfl
  | cons c rest ih =>
      rw [List.mem_cons, not_or] at h
      have hc : (c == sep) = false := beq_eq_false_iff_ne.mpr (Ne.symm h.1)
      simp [splitOn, hc, ih h.2]

theorem splitOn_append {sep : Char} {cs : List Char} (h : sep ∉ cs) (rest : List Char) :
    splitOn sep (cs ++ sep :: rest) = cs :: splitOn sep rest := by
  induction cs with
  | nil => simp [splitOn]
  | cons c cs ih =>
      rw [List.mem_cons, not_or] at h
      have hc : (c == sep) = false := beq_eq_false_iff_ne.mpr (Ne.symm h.1)
      simp [splitOn, hc, ih h.2]

/-- A text that is put together from two with a dot between them comes apart again. -/
theorem splitOn_dotted {s t : String} (hs : '.' ∉ s.toList) (ht : '.' ∉ t.toList) :
    splitOn '.' (s ++ "." ++ t).toList = [s.toList, t.toList] := by
  rw [String.append_assoc, String.toList_append, String.toList_append, show ".".toList = ['.'] from rfl,
    List.singleton_append, splitOn_append hs, splitOn_of_not_mem ht]

end Text

/-! ## Names of result columns -/

/-- The name of the column in a result row. -/
def ColumnExpr.rowName (e : ColumnExpr) : String :=
  match e.slot with
  | none | some .main => e.column.name
  | some slot => slot.token ++ "_" ++ e.column.name

namespace ColumnExpr

theorem rowName_main (i : Identifier) : rowName ⟨some .main, i⟩ = i.name := rfl

theorem rowName_joined {slot : Slot} (h : slot ≠ .main) (i : Identifier) :
    rowName ⟨some slot, i⟩ = slot.token ++ "_" ++ i.name := by
  cases slot with
  | main => exact absurd rfl h
  | joined => rfl
  | subjoined => rfl

end ColumnExpr

theorem Name.isWord_append {s t : List Char} (hs : isWord s = true) (ht : t.all isPart = true) :
    isWord (s ++ t) = true := by
  cases s with
  | nil => cases hs
  | cons c rest =>
      rw [isWord, Bool.and_eq_true] at hs
      rw [List.cons_append, isWord, List.all_append, hs.1, hs.2, ht]
      rfl

theorem Name.all_isPart_of_isWord {s : List Char} (h : isWord s = true) : s.all isPart = true := by
  cases s with
  | nil => cases h
  | cons c rest =>
      rw [isWord, Bool.and_eq_true] at h
      rw [List.all_cons, h.2, isPart, h.1]
      rfl

namespace Identifier

variable (i : Identifier)

theorem isWord_name : Name.isWord i.name.toList = true := by
  have h := i.isIdentifier
  rw [Name.isIdentifier, Bool.and_eq_true] at h
  exact h.2

theorem length_name_le : i.name.length ≤ Name.longest := by
  have h := i.isIdentifier
  rw [Name.isIdentifier, Bool.and_eq_true] at h
  exact of_decide_eq_true h.1

theorem ofText_eq_of_isWord (role : String) {s : String} (h : Name.isWord s.toList = true) :
    (∃ i, ofText role s = .ok i ∧ i.name = s ∧ s.length ≤ Name.longest) ∨
      (ofText role s = refuse (.invalidIdentifier role s) ∧ Name.longest < s.length) := by
  by_cases hlength : s.length ≤ Name.longest
  · have hs : Name.isIdentifier s = true := by
      rw [Name.isIdentifier, h, Bool.and_true]
      exact decide_eq_true hlength
    exact .inl ⟨⟨s, hs⟩, by rw [ofText, ofText?, dif_pos hs], rfl, hlength⟩
  · have hs : ¬ Name.isIdentifier s = true := by
      rw [Name.isIdentifier, h, Bool.and_true]
      exact fun hshort => hlength (of_decide_eq_true hshort)
    exact .inr ⟨by rw [ofText, ofText?, dif_neg hs], Nat.lt_of_not_le hlength⟩

theorem dot_not_mem_name (i : Identifier) : '.' ∉ i.name.toList := by
  intro hdot
  have hpart := List.all_eq_true.mp (Name.all_isPart_of_isWord i.isWord_name) '.' hdot
  exact absurd hpart (by decide)

end Identifier

theorem ColumnExpr.isWord_rowName (e : ColumnExpr) : Name.isWord e.rowName.toList = true := by
  have hcolumn := e.column.isWord_name
  have hparts := Name.all_isPart_of_isWord hcolumn
  unfold rowName
  split
  · exact hcolumn
  · exact hcolumn
  · rename_i slot _ _
    have htoken : Name.isWord (slot.token ++ "_").toList = true := by cases slot <;> decide
    rw [String.toList_append]
    exact Name.isWord_append htoken hparts

namespace JoinPlan

variable {p : JoinPlan} {reference : String} {e : ColumnExpr}

theorem split_token {t : PlannedTable} (ht : p.table? t.slot = some t) (i : Identifier) :
    p.split (t.slot.token ++ "." ++ i.name) = .ok (t, i.name) := by
  have htoken : '.' ∉ t.slot.token.toList := by cases t.slot <;> decide
  have hslot : Slot.ofToken? t.slot.token = some t.slot := by cases t.slot <;> rfl
  have hnonempty : (t.slot.token ++ "." ++ i.name).isEmpty = false := by
    cases t.slot <;> simp [Slot.token, ← Bool.not_eq_true, String.append_eq_empty_iff]
  rw [split, if_neg (by rw [hnonempty]; decide), Text.splitOn_dotted htoken i.dot_not_mem_name]
  simp only [List.map_cons, List.map_nil, String.ofList_toList, hslot, ht]

/-- Whatever column a table has can be named by a request. -/
theorem resolve_token {t : PlannedTable} (ht : p.table? t.slot = some t) {i : Identifier}
    (hi : i.isAmong t.columns = true) :
    p.resolve (t.slot.token ++ "." ++ i.name) = .ok ⟨some t.slot, i⟩ := by
  rw [resolve, split_token ht i, Result.ok_bind]
  simp only [Identifier.knownColumn, Identifier.ofText_name, Result.ok_bind, hi, if_true]
  rfl

theorem nameIn_eq (t : PlannedTable) (i : Identifier) : nameIn t i.name = ColumnExpr.rowName ⟨some t.slot, i⟩ := by
  unfold nameIn ColumnExpr.rowName
  cases t.slot <;> rfl

theorem outputName_of_resolve (h : p.resolve reference = .ok e) : p.outputName reference = .ok e.rowName := by
  obtain ⟨t, name, hsplit, hslot, rfl, -⟩ := knows_of_resolve h
  obtain ⟨slot, column⟩ := e
  obtain rfl : slot = some t.slot := hslot
  rw [outputName, hsplit, Result.ok_bind]
  exact congrArg Except.ok (nameIn_eq t column)

end JoinPlan

/-! ## Which columns can be selected -/

/-- The name that the database gives to the item. -/
def SelectItem.label (i : SelectItem) : String :=
  match i.name with
  | some name => name.name
  | none => i.column.column.name

/-- The item is the column, under the name of a result column if it is not of the main table. -/
structure SelectItem.Shows (i : SelectItem) (e : ColumnExpr) : Prop where
  column : i.column = e
  label : i.label = e.rowName
  sql : i.sql = if e.slot = some .main then e.sql else e.sql ++ " AS \"" ++ e.rowName ++ "\""

namespace JoinPlan

variable {p : JoinPlan} {reference : String} {e : ColumnExpr}

theorem select_of_main {t : PlannedTable} {name : String} (h : p.resolve reference = .ok e)
    (hsplit : p.split reference = .ok (t, name)) (hmain : t.slot = .main) :
    p.select reference = .ok ⟨e, none⟩ := by
  simp only [select, h, hsplit, Result.ok_bind, hmain]
  rfl

theorem select_of_joined {t : PlannedTable} {name : String} (h : p.resolve reference = .ok e)
    (hsplit : p.split reference = .ok (t, name)) (hmain : t.slot ≠ .main) :
    p.select reference =
      Identifier.ofText Identifier.columnRole (nameIn t name) >>= fun shown => .ok ⟨e, some shown⟩ := by
  simp only [select, h, hsplit, Result.ok_bind]
  rfl

theorem select_of_resolve (h : p.resolve reference = .ok e) :
    (∃ i : SelectItem, p.select reference = .ok i ∧ i.Shows e ∧ e.rowName.length ≤ Name.longest) ∨
      (p.select reference = refuse (.invalidIdentifier Identifier.columnRole e.rowName) ∧
        Name.longest < e.rowName.length) := by
  obtain ⟨t, name, hsplit, hslot, rfl, -⟩ := knows_of_resolve h
  have hrowName : nameIn t e.column.name = e.rowName := by
    rw [nameIn_eq, ← hslot]
  by_cases hmain : t.slot = .main
  · have hslot : e.slot = some .main := by rw [hslot, hmain]
    have hshown : e.rowName = e.column.name := by rw [ColumnExpr.rowName, hslot]
    refine .inl ⟨⟨e, none⟩, select_of_main h hsplit hmain, ⟨rfl, hshown.symm, (if_pos hslot).symm⟩, ?_⟩
    rw [hshown]
    exact e.column.length_name_le
  · have hslot : e.slot ≠ some .main := fun hsame => hmain (Option.some.inj (hslot.symm.trans hsame))
    rw [select_of_joined h hsplit hmain, hrowName]
    rcases Identifier.ofText_eq_of_isWord Identifier.columnRole e.isWord_rowName with
      ⟨shown, hshown, hsame, hlength⟩ | ⟨hrefused, hlength⟩
    · refine .inl ⟨⟨e, some shown⟩, by rw [hshown, Result.ok_bind], ⟨rfl, hsame, ?_⟩, hlength⟩
      rw [if_neg hslot, ← hsame]
      simp only [SelectItem.sql, Identifier.sql, String.append_assoc]
      rfl
    · exact .inr ⟨by rw [hrefused]; rfl, hlength⟩

theorem select_error_of_resolve {fault : Fault} (h : p.resolve reference = .error fault) :
    p.select reference = .error fault := by
  rw [select, h]
  rfl

variable (p : JoinPlan) (reference : String)

/-- A column that can be resolved can be selected unless its name in the result has more than 128 characters, and is
then shown as it is resolved, under that name if it is not of the main table. -/
theorem select_iff_resolve_short :
    ((∃ i, p.select reference = .ok i) ↔ ∃ e name, p.resolve reference = .ok e ∧
      p.outputName reference = .ok name ∧ name.length ≤ 128) ∧
    (∀ i, p.select reference = .ok i → ∃ e name, p.resolve reference = .ok e ∧
      p.outputName reference = .ok name ∧ i.column = e ∧
      i.sql = if e.slot = some .main then e.sql else e.sql ++ " AS \"" ++ name ++ "\"") ∧
    (∀ fault, p.select reference = .error fault ↔ p.resolve reference = .error fault ∨
      ∃ e name, p.resolve reference = .ok e ∧ p.outputName reference = .ok name ∧ 128 < name.length ∧
        fault = .refused (.invalidIdentifier "column" name)) := by
  cases hresolve : p.resolve reference with
  | error fault =>
      have hselect := select_error_of_resolve hresolve
      simp [hselect]
  | ok e =>
      have hname := outputName_of_resolve hresolve
      rcases select_of_resolve hresolve with ⟨i, hselect, hshows, hlength⟩ | ⟨hselect, hlength⟩
      · have hshort : e.rowName.length ≤ 128 := hlength
        refine ⟨?_, ?_, ?_⟩
        · simpa [hselect, hname] using hshort
        · intro i' hi'
          obtain rfl := Except.ok.inj (hselect.symm.trans hi')
          exact ⟨e, e.rowName, rfl, hname, hshows.column, hshows.sql⟩
        · simp [hselect, hname, Nat.not_lt.mpr hshort]
      · have hlong : 128 < e.rowName.length := hlength
        refine ⟨?_, ?_, ?_⟩
        · simpa [hselect, hname, refuse] using hlong
        · simp [hselect, refuse]
        · intro fault
          simp [hselect, hname, hlong, refuse, eq_comm, Identifier.columnRole]

end JoinPlan

namespace Parcels

def longName : String := String.ofList (List.replicate 122 'c')

theorem length_longName : longName.length = 122 := by
  unfold longName
  rw [String.length_ofList, List.length_replicate]

theorem isIdentifier_longName : Name.isIdentifier longName = true := by
  have hword : Name.isWord longName.toList = true := by
    unfold longName
    rw [String.toList_ofList]
    decide
  rw [Name.isIdentifier, length_longName, hword]
  rfl

def long : Identifier := ⟨longName, isIdentifier_longName⟩

theorem length_name_long : long.name.length = 122 := length_longName

def orders : PlannedTable :=
  ⟨.main, ⟨TableRef.defaultSchema, ⟨"orders", by decide⟩⟩, [.text "id", .text "joined_id"]⟩

def lines : PlannedTable :=
  ⟨.joined, ⟨TableRef.defaultSchema, ⟨"lines", by decide⟩⟩, [.text "order_id", .text "id", .text long.name]⟩

def authority : Authority where
  gate _ name := TableRef.ofText name
  catalog _ _ := .ok lines.columns

def join : JoinSpec := .mk "lines" ["id", "order_id"] "left" none

def plan : JoinPlan :=
  ⟨orders, [⟨.left, ⟨some .main, ⟨"id", by decide⟩⟩, ⟨some .joined, ⟨"order_id", by decide⟩⟩, lines⟩]⟩

theorem plan_eq : authority.plan orders.ref orders.columns (some join) =
    (.ok plan, [.gate "lines", .catalog lines.ref]) := by rfl

/-- The long column can be resolved, but not with the token of its table before it. -/
theorem long_column_not_selected :
    authority.plan orders.ref orders.columns (some join) = (.ok plan, [.gate "lines", .catalog lines.ref]) ∧
      plan.resolve (Slot.joined.token ++ "." ++ long.name) = .ok ⟨some .joined, long⟩ ∧
      plan.select (Slot.joined.token ++ "." ++ long.name) =
        refuse (.invalidIdentifier "column" (Slot.joined.token ++ "_" ++ long.name)) := by
  have hknown : long.isAmong lines.columns = true :=
    List.any_eq_true.mpr ⟨.text long.name, by simp [lines], by simp [Value.text?]⟩
  have hresolve : plan.resolve (Slot.joined.token ++ "." ++ long.name) = .ok ⟨some .joined, long⟩ :=
    JoinPlan.resolve_token (t := lines) rfl hknown
  refine ⟨plan_eq, hresolve, ?_⟩
  have hrowName : ColumnExpr.rowName ⟨some .joined, long⟩ = Slot.joined.token ++ "_" ++ long.name :=
    ColumnExpr.rowName_joined (by decide) long
  have hselect := JoinPlan.select_of_resolve hresolve
  rw [hrowName] at hselect
  rcases hselect with ⟨i, -, -, hlength⟩ | ⟨hrefused, -⟩
  · rw [String.length_append, String.length_append, length_name_long] at hlength
    exact absurd hlength (by decide)
  · exact hrefused

/-- The other columns of the lines can be selected. -/
theorem select_iff_resolve_short_joined :
    plan.resolve "joined.id" = .ok ⟨some .joined, ⟨"id", by decide⟩⟩ ∧
      ∃ i, plan.select "joined.id" = .ok i ∧ i.sql = "t2.\"id\" AS \"joined_id\"" := by
  have hresolve : plan.resolve "joined.id" = .ok ⟨some .joined, ⟨"id", by decide⟩⟩ := rfl
  have hname : plan.outputName "joined.id" = .ok "joined_id" := rfl
  obtain ⟨hselected, hshown, -⟩ := plan.select_iff_resolve_short "joined.id"
  obtain ⟨i, hi⟩ := hselected.mpr ⟨_, _, hresolve, hname, by decide⟩
  obtain ⟨e, name, he, hname', -, hsql⟩ := hshown i hi
  obtain rfl := Except.ok.inj (hresolve.symm.trans he)
  obtain rfl := Except.ok.inj (hname.symm.trans hname')
  exact ⟨hresolve, i, hi, hsql.trans (by decide)⟩

end Parcels

/-! ## Columns with one name -/

theorem Slot.token_append_inj {slot slot' : Slot} {s t : String} (hslot : slot ≠ .main) (hslot' : slot' ≠ .main)
    (h : slot.token ++ "_" ++ s = slot'.token ++ "_" ++ t) : slot = slot' ∧ s = t := by
  cases slot with
  | main => exact absurd rfl hslot
  | joined =>
      cases slot' with
      | main => exact absurd rfl hslot'
      | joined => exact ⟨rfl, (String.append_right_inj _).mp h⟩
      | subjoined => simp [token, ← String.toList_inj] at h
  | subjoined =>
      cases slot' with
      | main => exact absurd rfl hslot'
      | joined => simp [token, ← String.toList_inj] at h
      | subjoined => exact ⟨rfl, (String.append_right_inj _).mp h⟩

namespace ColumnExpr

/-- A column of the main table that is called what the result calls a column of another table. -/
def NamedAfter (e e' : ColumnExpr) : Prop :=
  e.slot = some .main ∧ ∃ slot, slot ≠ .main ∧ e'.slot = some slot ∧
    e.column.name = slot.token ++ "_" ++ e'.column.name

theorem namedAfter_main_iff {i i' : Identifier} {slot : Slot} (h : slot ≠ .main) :
    NamedAfter ⟨some .main, i⟩ ⟨some slot, i'⟩ ↔ i.name = slot.token ++ "_" ++ i'.name := by
  constructor
  · rintro ⟨-, slot', -, hslot, hname⟩
    obtain rfl := Option.some.inj hslot
    exact hname
  · intro hname
    exact ⟨rfl, slot, h, rfl, hname⟩

theorem not_namedAfter_of_joined {i : Identifier} {slot : Slot} {e : ColumnExpr} (h : slot ≠ .main) :
    ¬ NamedAfter ⟨some slot, i⟩ e := by
  rintro ⟨hslot, -⟩
  exact h (Option.some.inj hslot)

theorem not_namedAfter_main {i : Identifier} {e : ColumnExpr} : ¬ NamedAfter e ⟨some .main, i⟩ := by
  rintro ⟨-, slot, h, hslot, -⟩
  exact h (Option.some.inj hslot).symm

/-- Two columns have one name in the result only if one is of the main table and is called like that. -/
theorem rowName_eq_iff {e e' : ColumnExpr} {slot slot' : Slot} (he : e.slot = some slot)
    (he' : e'.slot = some slot') (h : e ≠ e') :
    e.rowName = e'.rowName ↔ e.NamedAfter e' ∨ e'.NamedAfter e := by
  obtain ⟨_, i⟩ := e
  obtain rfl : _ = some slot := he
  obtain ⟨_, i'⟩ := e'
  obtain rfl : _ = some slot' := he'
  by_cases hmain : slot = .main
  · subst hmain
    by_cases hmain' : slot' = .main
    · subst hmain'
      have hname : i.name ≠ i'.name := fun hsame => h (by rw [Identifier.eq_of_name hsame])
      simp [rowName_main, hname, not_namedAfter_main]
    · simp [rowName_main, rowName_joined hmain', namedAfter_main_iff hmain', not_namedAfter_main]
  · by_cases hmain' : slot' = .main
    · subst hmain'
      simp [rowName_main, rowName_joined hmain, namedAfter_main_iff hmain, not_namedAfter_main, eq_comm]
    · simp only [rowName_joined hmain, rowName_joined hmain', not_namedAfter_of_joined hmain,
        not_namedAfter_of_joined hmain', or_self, iff_false]
      intro hsame
      obtain ⟨rfl, hname⟩ := Slot.token_append_inj hmain hmain' hsame
      exact h (by rw [Identifier.eq_of_name hname])

end ColumnExpr

/-! ## Rows of a result -/

/-- The row of a result, as a dictionary: of several columns with one name only the last has its value in it. -/
def Combination.row (m : Combination) (items : List SelectItem) : Entries Value :=
  Entries.ofPairs (items.map fun i => (i.label, m.cell i.column))

namespace SelectItem

variable {items : List SelectItem}

/-- Items under the names that their columns have in the result. -/
def Named (items : List SelectItem) : Prop :=
  ∀ i ∈ items, i.label = i.column.rowName ∧ ∃ slot, i.column.slot = some slot

/-- No column of the items is called like another in the result. -/
def Apart (items : List SelectItem) : Prop :=
  ∀ i ∈ items, ∀ j ∈ items, ¬ i.column.NamedAfter j.column

theorem Named.column_eq (h : Named items) (hapart : Apart items) {i j : SelectItem} (hi : i ∈ items)
    (hj : j ∈ items) (hlabel : i.label = j.label) : i.column = j.column := by
  obtain ⟨hi', slot, hslot⟩ := h i hi
  obtain ⟨hj', slot', hslot'⟩ := h j hj
  rw [hi', hj'] at hlabel
  by_contra hne
  rcases (ColumnExpr.rowName_eq_iff hslot hslot' hne).mp hlabel with hafter | hafter
  · exact hapart i hi j hj hafter
  · exact hapart j hj i hi hafter

/-- Something in the main table and nothing in the others: a row in which only one of two such columns has a value. -/
def loneMain (column : String) : Combination :=
  fun slot => if slot = .main then some ⟨0, [(column, .int 0)]⟩ else none

theorem Named.get?_row_iff (h : Named items) :
    (∀ m : Combination, ∀ i ∈ items, (m.row items).get? i.label = some (m.cell i.column)) ↔ Apart items := by
  constructor
  · intro hrow i hi j hj hafter
    obtain ⟨hi', slot, hslot⟩ := h i hi
    obtain ⟨hj', slot', hslot'⟩ := h j hj
    have hne : i.column ≠ j.column := by
      intro hsame
      rw [hsame] at hafter
      obtain ⟨hmain, slot, hjoined, hslot, -⟩ := hafter
      exact hjoined (Option.some.inj (hslot.symm.trans hmain))
    have hlabel : i.label = j.label := by
      rw [hi', hj']
      exact (ColumnExpr.rowName_eq_iff hslot hslot' hne).mpr (.inl hafter)
    obtain ⟨hmain, other, hjoined, hother, -⟩ := hafter
    have hcell : (loneMain i.column.column.name).cell i.column = .int 0 := by
      simp [Combination.cell, hmain, loneMain, StoredRow.cell, Entries.get?_cons]
    have hcell' : (loneMain i.column.column.name).cell j.column = .null := by
      simp [Combination.cell, hother, loneMain, hjoined]
    have hvalue := hrow (loneMain i.column.column.name) i hi
    rw [hlabel, hrow _ j hj, hcell, hcell'] at hvalue
    cases hvalue
  · intro hapart m i hi
    apply Entries.get?_ofPairs_of_agree
    · exact List.mem_map_of_mem hi
    · intro v hv
      obtain ⟨j, hj, hpair⟩ := List.mem_map.mp hv
      obtain ⟨hlabel, rfl⟩ := Prod.mk.inj hpair
      rw [h.column_eq hapart hj hi hlabel]

end SelectItem

namespace JoinPlan

variable {p : JoinPlan} {reference : String}

theorem exists_slot_of_resolve {e : ColumnExpr} (h : p.resolve reference = .ok e) : ∃ slot, e.slot = some slot := by
  obtain ⟨t, -, -, hslot, -⟩ := knows_of_resolve h
  exact ⟨t.slot, hslot⟩

theorem shows_of_select {i : SelectItem} (h : p.select reference = .ok i) :
    p.resolve reference = .ok i.column ∧ i.Shows i.column := by
  cases hresolve : p.resolve reference with
  | error fault =>
      rw [select_error_of_resolve hresolve] at h
      cases h
  | ok e =>
      rcases select_of_resolve hresolve with ⟨i', hi', hshows, -⟩ | ⟨hrefused, -⟩
      · obtain rfl := Except.ok.inj (hi'.symm.trans h)
        obtain rfl := hshows.column
        exact ⟨rfl, hshows⟩
      · rw [hrefused] at h
        cases h

theorem named_of_select {references : List String} {items : List SelectItem}
    (h : references.mapM p.select = .ok items) : SelectItem.Named items := by
  intro i hi
  obtain ⟨reference, -, hselect⟩ := Result.origin_of_mapM_ok h i hi
  obtain ⟨hresolve, hshows⟩ := shows_of_select hselect
  exact ⟨hshows.label, exists_slot_of_resolve hresolve⟩

variable (p : JoinPlan)

/-- Different columns have different names in the result unless one of them is of the main table and is called like
the other, with the token of its table.  A row has the value of every column that was selected just if no column is
called like another. -/
theorem rows_complete_iff_named_apart :
    (∀ r r' e e', p.resolve r = .ok e → p.resolve r' = .ok e' → e.sql ≠ e'.sql →
      ∃ name name', p.outputName r = .ok name ∧ p.outputName r' = .ok name' ∧
        (name = name' ↔ e.NamedAfter e' ∨ e'.NamedAfter e)) ∧
    (∀ references items, references.mapM p.select = .ok items →
      List.Forall₂ (fun r i => p.resolve r = .ok i.column ∧ p.outputName r = .ok i.label) references items ∧
      ((∀ m : Combination, ∀ i ∈ items, (m.row items).get? i.label = some (m.cell i.column)) ↔
        ∀ i ∈ items, ∀ j ∈ items, ¬ i.column.NamedAfter j.column)) := by
  refine ⟨?_, ?_⟩
  · intro r r' e e' hr hr' hsql
    obtain ⟨slot, hslot⟩ := exists_slot_of_resolve hr
    obtain ⟨slot', hslot'⟩ := exists_slot_of_resolve hr'
    have hne : e ≠ e' := fun hsame => hsql (congrArg ColumnExpr.sql hsame)
    exact ⟨e.rowName, e'.rowName, outputName_of_resolve hr, outputName_of_resolve hr',
      ColumnExpr.rowName_eq_iff hslot hslot' hne⟩
  · intro references items hitems
    refine ⟨(Result.forall₂_of_mapM_ok hitems).imp ?_, (named_of_select hitems).get?_row_iff⟩
    intro r i hselect
    obtain ⟨hresolve, hshows⟩ := shows_of_select hselect
    exact ⟨hresolve, by rw [outputName_of_resolve hresolve, hshows.label]⟩

end JoinPlan

namespace Parcels

def orderId : SelectItem := ⟨⟨some .main, ⟨"id", by decide⟩⟩, none⟩

def orderJoinedId : SelectItem := ⟨⟨some .main, ⟨"joined_id", by decide⟩⟩, none⟩

def lineId : SelectItem := ⟨⟨some .joined, ⟨"id", by decide⟩⟩, some ⟨"joined_id", by decide⟩⟩

/-- Orders have a column that is called like one of their lines, and rows have one value for both of them. -/
theorem names_of_orders_and_lines_clash :
    authority.plan orders.ref orders.columns (some join) = (.ok plan, [.gate "lines", .catalog lines.ref]) ∧
      plan.resolve "joined_id" = .ok orderJoinedId.column ∧ plan.resolve "joined.id" = .ok lineId.column ∧
      orderJoinedId.column.sql ≠ lineId.column.sql ∧ plan.outputName "joined_id" = plan.outputName "joined.id" ∧
      ["joined_id", "joined.id"].mapM plan.select = .ok [orderJoinedId, lineId] ∧
      ∀ m : Combination, m.row [orderJoinedId, lineId] = [("joined_id", m.cell lineId.column)] := by
  have hresolve : plan.resolve "joined_id" = .ok orderJoinedId.column := by rfl
  have hresolve' : plan.resolve "joined.id" = .ok lineId.column := by rfl
  have hsql : orderJoinedId.column.sql ≠ lineId.column.sql := by decide
  have hnames : plan.outputName "joined_id" = plan.outputName "joined.id" := by
    rw [JoinPlan.outputName_of_resolve hresolve, JoinPlan.outputName_of_resolve hresolve']
    rfl
  have hitems : ["joined_id", "joined.id"].mapM plan.select = .ok [orderJoinedId, lineId] := by rfl
  have hrow : ∀ m : Combination, m.row [orderJoinedId, lineId] = [("joined_id", m.cell lineId.column)] := by
    intro m
    rfl
  exact ⟨plan_eq, hresolve, hresolve', hsql, hnames, hitems, hrow⟩

/-- The ids of orders and lines have names of their own, and rows have the values of both. -/
theorem rows_complete_of_ids :
    plan.outputName "id" ≠ plan.outputName "joined.id" ∧
      ["id", "joined.id"].mapM plan.select = .ok [orderId, lineId] ∧
      ∀ m : Combination, (m.row [orderId, lineId]).get? "joined_id" = some (m.cell lineId.column) := by
  have hitems : ["id", "joined.id"].mapM plan.select = .ok [orderId, lineId] := rfl
  obtain ⟨hnames, hrows⟩ := plan.rows_complete_iff_named_apart
  have hapart : SelectItem.Apart [orderId, lineId] := by
    intro i hi j hj
    simp only [List.mem_cons, List.not_mem_nil, or_false] at hi hj
    rcases hi with rfl | rfl
    · rcases hj with rfl | rfl
      · exact ColumnExpr.not_namedAfter_main
      · exact mt (ColumnExpr.namedAfter_main_iff (by decide)).mp (by decide)
    · exact ColumnExpr.not_namedAfter_of_joined (by decide)
  refine ⟨?_, hitems, ?_⟩
  · obtain ⟨name, name', hname, hname', hsame⟩ :=
      hnames "id" "joined.id" orderId.column lineId.column rfl rfl (by decide)
    rw [hname, hname']
    intro h
    rcases hsame.mp (Except.ok.inj h) with hafter | hafter
    · exact hapart orderId (by simp) lineId (by simp) hafter
    · exact hapart lineId (by simp) orderId (by simp) hafter
  · intro m
    exact (hrows _ _ hitems).2.mpr hapart m lineId (by simp)

end Parcels

end TableSteward

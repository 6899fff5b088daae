import TableSteward.Proofs.ResultColumns

/-!
# Terms of an order

The terms of an order are the expressions that a request sorts by and then the tie-breakers, each where it occurs first
and with the direction that it has there.  Leaving out what occurs again never leaves a column out altogether, so that
the primary key of a single table tells all its rows apart in whatever order they are wanted.
-/
set_option autoImplicit false

namespace TableSteward

/-! ## First occurrences -/

theorem eraseDups_map {α β : Type} [DecidableEq α] [DecidableEq β] {f : α → β} (hf : Function.Injective f) :
    ∀ xs : List α, (xs.map f).eraseDups = xs.eraseDups.map f
  | [] => rfl
  | x :: rest => by
      have hrest : (rest.map f).filter (fun b => !b == f x) = (rest.filter fun a => !a == x).map f := by
        rw [List.filter_map]
        congr 2
        funext a
        simp [hf.eq_iff]
      rw [List.map_cons, List.eraseDups_cons, List.eraseDups_cons, List.map_cons, hrest, eraseDups_map hf]
termination_by xs => xs.length
decreasing_by exact Nat.lt_succ_of_le (List.length_filter_le ..)

theorem nodup_eraseDups {α : Type} [DecidableEq α] : ∀ xs : List α, xs.eraseDups.Nodup
  | [] => List.nodup_nil
  | x :: rest => by
      rw [List.eraseDups_cons, List.nodup_cons, List.mem_eraseDups]
      exact ⟨by simp, nodup_eraseDups _⟩
termination_by xs => xs.length
decreasing_by exact Nat.lt_succ_of_le (List.length_filter_le ..)

namespace OrderTerm

/-- The keys that are kept are the first occurrences of those not in use before. -/
theorem map_key_distinctFrom (terms : List OrderTerm) :
    ∀ used : List OrderKey, (distinctFrom used terms).map key = ((terms.map key).removeAll used).eraseDups := by
  induction terms with
  | nil => exact fun _ => rfl
  | cons t rest ih =>
      intro used
      rw [distinctFrom, List.map_cons, List.cons_removeAll]
      by_cases ht : used.contains t.key = true
      · rw [if_pos ht, ih, if_neg (by simpa using ht)]
      · have hrest : ((rest.map key).removeAll used).filter (fun k => !k == t.key) =
            (rest.map key).removeAll (t.key :: used) := by
          rw [List.removeAll, List.removeAll, List.filter_filter]
          congr 1
          funext k
          simp [Bool.beq_eq_decide_eq]
        rw [if_neg ht, List.map_cons, ih, if_pos (by simpa using ht), List.eraseDups_cons, hrest]

theorem map_key_distinct (terms : List OrderTerm) : (distinct terms).map key = (terms.map key).eraseDups := by
  rw [distinct, map_key_distinctFrom]
  simp [List.removeAll]

theorem find?_of_mem_distinctFrom {t : OrderTerm} {terms : List OrderTerm} :
    ∀ {used : List OrderKey}, t ∈ distinctFrom used terms →
      t.key ∉ used ∧ terms.find? (fun s => s.key == t.key) = some t := by
  induction terms with
  | nil => simp [distinctFrom]
  | cons s rest ih =>
      intro used ht
      rw [distinctFrom] at ht
      by_cases hs : used.contains s.key = true
      · rw [if_pos hs] at ht
        obtain ⟨hfresh, hfirst⟩ := ih ht
        have hne : (s.key == t.key) = false := by
          apply beq_false_of_ne
          intro hsame
          exact hfresh (hsame ▸ List.contains_iff_mem.mp hs)
        exact ⟨hfresh, by rw [List.find?_cons, hne]; exact hfirst⟩
      · rw [if_neg hs] at ht
        rcases List.mem_cons.mp ht with rfl | ht
        · exact ⟨mt List.contains_iff_mem.mpr hs, by simp⟩
        · obtain ⟨hfresh, hfirst⟩ := ih ht
          rw [List.mem_cons, not_or] at hfresh
          have hne : (s.key == t.key) = false := beq_false_of_ne (Ne.symm hfresh.1)
          exact ⟨hfresh.2, by rw [List.find?_cons, hne]; exact hfirst⟩

/-- Of the terms with one key the first is kept. -/
theorem find?_of_mem_distinct {t : OrderTerm} {terms : List OrderTerm} (h : t ∈ distinct terms) :
    terms.find? (fun s => s.key == t.key) = some t := (find?_of_mem_distinctFrom h).2

end OrderTerm

/-! ## Expressions and their texts -/

theorem Identifier.sql_injective : Function.Injective Identifier.sql := by
  intro i j h
  rw [Identifier.sql, Identifier.sql, String.append_left_inj, String.append_right_inj] at h
  exact Identifier.eq_of_name h

theorem ColumnExpr.sql_injective : Function.Injective ColumnExpr.sql := by
  rintro ⟨slot, i⟩ ⟨slot', j⟩ h
  obtain rfl : slot = slot' := by
    by_contra hne
    rw [ColumnExpr.sql, ColumnExpr.sql, ← String.toList_inj] at h
    rcases slot with _ | _ | _ | _ <;> rcases slot' with _ | _ | _ | _ <;>
      simp [Identifier.sql, Slot.tableAlias] at hne h
  have hcolumn : i.sql = j.sql := by
    cases slot with
    | none => exact h
    | some slot => exact (String.append_right_inj _).mp h
  rw [Identifier.sql_injective hcolumn]

theorem OrderKey.sql_injective : Function.Injective OrderKey.sql := by
  have hrow : ∀ (e : ColumnExpr) (slot : Slot), e.sql ≠ slot.tableAlias ++ ".ctid" := by
    rintro ⟨slot', i⟩ slot h
    rw [ColumnExpr.sql, ← String.toList_inj] at h
    rcases slot' with _ | _ | _ | _ <;> rcases slot with _ | _ | _ <;>
      simp [Identifier.sql, Slot.tableAlias] at h
  intro k k' h
  cases k with
  | column e =>
      cases k' with
      | column e' => exact congrArg OrderKey.column (ColumnExpr.sql_injective h)
      | rowId slot => exact absurd h (hrow e slot)
  | rowId slot =>
      cases k' with
      | column e => exact absurd h.symm (hrow e slot)
      | rowId slot' =>
          have halias : slot.tableAlias = slot'.tableAlias := (String.append_left_inj _).mp h
          cases slot <;> cases slot' <;> first | rfl | exact absurd halias (by decide)

/-! ## References -/

namespace JoinPlan

variable (p : JoinPlan)

/-- The reference names this column of the table in this place. -/
def Denotes (reference : String) (slot : Slot) (column : String) : Prop :=
  ∃ t, p.split reference = .ok (t, column) ∧ t.slot = slot

variable {p}

theorem eq_of_denotes {reference column : String} {slot : Slot} {e : ColumnExpr} (h : p.resolve reference = .ok e)
    (hdenotes : p.Denotes reference slot column) : e.slot = some slot ∧ e.column.name = column := by
  obtain ⟨t, hsplit, rfl⟩ := hdenotes
  obtain ⟨t', name, hsplit', hslot, hname, -⟩ := knows_of_resolve h
  rw [hsplit] at hsplit'
  cases hsplit'
  exact ⟨hslot, hname⟩

/-- References have one expression just if they denote one column. -/
theorem sql_eq_iff_of_denotes {r r' column column' : String} {slot slot' : Slot} {e e' : ColumnExpr}
    (h : p.resolve r = .ok e) (h' : p.resolve r' = .ok e') (hdenotes : p.Denotes r slot column)
    (hdenotes' : p.Denotes r' slot' column') : e.sql = e'.sql ↔ slot = slot' ∧ column = column' := by
  obtain ⟨hslot, rfl⟩ := eq_of_denotes h hdenotes
  obtain ⟨hslot', rfl⟩ := eq_of_denotes h' hdenotes'
  rw [ColumnExpr.sql_injective.eq_iff]
  constructor
  · rintro rfl
    exact ⟨Option.some.inj (hslot.symm.trans hslot'), rfl⟩
  · rintro ⟨rfl, hname⟩
    obtain ⟨_, i⟩ := e
    obtain ⟨_, j⟩ := e'
    obtain rfl : _ = some slot := hslot
    obtain rfl : _ = some slot := hslot'
    exact congrArg (ColumnExpr.mk (some slot)) (Identifier.eq_of_name hname)

/-- A column of the main table may be named with the token of its table or without it. -/
theorem resolve_main (hmain : p.main.slot = .main) {column : String} (hcolumn : column ≠ "")
    (hdot : '.' ∉ column.toList) : p.resolve ("main." ++ column) = p.resolve column := by
  have hempty : column.isEmpty = false := by simpa [← Bool.not_eq_true] using hcolumn
  have htoken : ("main." ++ column).isEmpty = false := by
    simp [← Bool.not_eq_true, String.append_eq_empty_iff]
  have hpieces : Text.splitOn '.' ("main." ++ column).toList = ["main".toList, column.toList] := by
    rw [show "main." = "main" ++ "." from rfl]
    exact Text.splitOn_dotted (by decide) hdot
  have htable : p.table? .main = some p.main := by simp [table?, tables, hmain]
  have hsplit : p.split ("main." ++ column) = p.split column := by
    rw [split, split, if_neg (by simp [htoken]), if_neg (by simp [hempty]), hpieces, Text.splitOn_of_not_mem hdot]
    simp only [List.map_cons, List.map_nil, String.ofList_toList, show Slot.ofToken? "main" = some .main from rfl,
      htable]
  rw [resolve, resolve, hsplit]

end JoinPlan

/-! ## The terms of a request -/

section Request

variable {p : JoinPlan} {sort : List SortSpec} {ties : List OrderKey} {exprs : List ColumnExpr}
  {terms : List OrderTerm}

/-- The first item of a request that sorts by an expression. -/
def SortSpec.FirstBy (p : JoinPlan) (sort : List SortSpec) (e : ColumnExpr) (s : SortSpec) : Prop :=
  ∃ before after, sort = before ++ s :: after ∧ p.resolve s.column = .ok e ∧
    ∀ b ∈ before, p.resolve b.column ≠ .ok e

/-- The direction of a term is that of the first item that sorts by it, or upwards for a tie-breaker that no item
sorts by. -/
def OrderTerm.Directed (p : JoinPlan) (sort : List SortSpec) (ties : List OrderKey) (t : OrderTerm) : Prop :=
  (∃ e s, SortSpec.FirstBy p sort e s ∧ t.key = .column e ∧ (t.descending = true ↔ Text.lower s.direction = "desc")) ∨
    ((∀ s ∈ sort, ∀ e, p.resolve s.column = .ok e → t.key ≠ .column e) ∧ t.key ∈ ties ∧ t.descending = false)

theorem SortSpec.FirstBy.cons {e : ColumnExpr} {s b : SortSpec} (h : FirstBy p sort e s)
    (hb : p.resolve b.column ≠ .ok e) : FirstBy p (b :: sort) e s := by
  obtain ⟨before, after, rfl, hs, hbefore⟩ := h
  exact ⟨b :: before, after, rfl, hs, List.forall_mem_cons.mpr ⟨hb, hbefore⟩⟩

namespace OrderTerm

/-- The terms of the items that a request sorts by. -/
def sorted (sort : List SortSpec) (exprs : List ColumnExpr) : List OrderTerm :=
  List.zipWith (fun s e => ⟨.column e, isDescending s.direction⟩) sort exprs

theorem orderTerms_eq (h : List.Forall₂ (fun s e => p.resolve s.column = .ok e) sort exprs) :
    orderTerms sort p.resolve ties = .ok (distinct (sorted sort exprs ++ ties.map fun k => ⟨k, false⟩)) := by
  have hterms : sort.mapM (ofSort p.resolve) = .ok (sorted sort exprs) := by
    induction h with
    | nil => rfl
    | cons he _ ih =>
        rw [List.mapM_cons, ih, ofSort, he]
        rfl
  rw [orderTerms, hterms]
  rfl

theorem map_key_sorted (h : List.Forall₂ (fun s e => p.resolve s.column = .ok e) sort exprs) :
    (sorted sort exprs).map key = exprs.map OrderKey.column := by
  induction h with
  | nil => rfl
  | cons _ _ ih =>
      rw [List.map_cons, ← ih]
      rfl

/-- What is found first among the items of a request, and then among the tie-breakers. -/
theorem directed_of_find? (h : List.Forall₂ (fun s e => p.resolve s.column = .ok e) sort exprs) {t : OrderTerm}
    (ht : (sorted sort exprs ++ ties.map fun k => OrderTerm.mk k false).find? (fun s => s.key == t.key) = some t) :
    t.Directed p sort ties := by
  induction h with
  | nil =>
      obtain ⟨k, hk, rfl⟩ := List.mem_map.mp (List.mem_of_find?_eq_some ht)
      exact .inr ⟨by simp, hk, rfl⟩
  | @cons s e sort exprs he _ ih =>
      have hsorted : sorted (s :: sort) (e :: exprs) =
          ⟨.column e, isDescending s.direction⟩ :: sorted sort exprs := rfl
      rw [hsorted, List.cons_append, List.find?_cons] at ht
      by_cases hkey : OrderKey.column e = t.key
      · rw [beq_iff_eq.mpr hkey] at ht
        obtain rfl := Option.some.inj ht
        refine .inl ⟨e, s, ⟨[], sort, rfl, he, by simp⟩, rfl, ?_⟩
        simp [isDescending]
      · rw [beq_false_of_ne hkey] at ht
        have hother : ∀ e', t.key = .column e' → p.resolve s.column ≠ .ok e' := by
          rintro e' hkey' hs
          rw [he] at hs
          exact hkey (hkey'.symm ▸ congrArg OrderKey.column (Except.ok.inj hs))
        rcases ih ht with ⟨e', s', hfirst, hkey', hdirection⟩ | ⟨hnone, htie, hdirection⟩
        · exact .inl ⟨e', s', hfirst.cons (hother e' hkey'), hkey', hdirection⟩
        · refine .inr ⟨List.forall_mem_cons.mpr ⟨?_, hnone⟩, htie, hdirection⟩
          exact fun e' hs hkey' => hother e' hkey' hs

end OrderTerm

end Request

/-! ## Single tables -/

namespace Storage

variable {st : Storage} {p : JoinPlan}

theorem wellFormed_of_single (hmain : p.main.slot = .main) (hsingle : p.hops = []) : p.WellFormed :=
  ⟨hmain, by rw [hsingle]; trivial⟩

theorem main_injective_of_single (hmain : p.main.slot = .main) (hsingle : p.hops = []) {m m' : Combination}
    (hm : m ∈ st.combinations p) (hm' : m' ∈ st.combinations p) (h : m .main = m' .main) : m = m' :=
  lone_combinations (wellFormed_of_single hmain hsingle) (by simp [hsingle]) m hm m' hm' h

/-- An order with the primary key in it puts one of two rows before the other. -/
theorem compareRows_single {sort : List SortSpec} {key : List Value} {ties : List OrderKey} {terms : List OrderTerm}
    (hmain : p.main.slot = .main) (hsingle : p.hops = []) (hkeyed : st.Keyed p.main.ref key)
    (hties : JoinPlan.defaultOrder key = .ok ties) (hterms : orderTerms sort p.resolve ties = .ok terms)
    {m m' : Combination} (hm : m ∈ st.combinations p) (hm' : m' ∈ st.combinations p) (hne : m ≠ m') :
    (st.compareRows terms m m' = .lt ∧ st.compareRows terms m' m = .gt) ∨
      (st.compareRows terms m m' = .gt ∧ st.compareRows terms m' m = .lt) := by
  have hapart : st.compareRows terms m m' ≠ .eq := by
    intro htie
    have htie := (compareRows_eq_iff_main (wellFormed_of_single hmain hsingle) hkeyed hties hterms hm hm').mp htie
    exact hne (main_injective_of_single hmain hsingle hm hm' htie.1)
  have hswap : st.compareRows terms m' m = (st.compareRows terms m m').swap := Std.OrientedCmp.eq_swap
  cases hcompare : st.compareRows terms m m' with
  | lt => exact .inl ⟨rfl, by rw [hswap, hcompare]; rfl⟩
  | eq => exact absurd hcompare hapart
  | gt => exact .inr ⟨rfl, by rw [hswap, hcompare]; rfl⟩

end Storage

namespace JoinPlan

/-- The order of a query consists of the expressions that the request sorts by, followed by the tie-breakers, each at
its first occurrence and in the direction of that.  References have one expression just if they denote one column, with
the token of the main table or without it.  So the primary key of a single table puts its rows in a strict order,
whatever the request sorts by. -/
theorem order_by_first_occurrences (p : JoinPlan) (sort : List SortSpec) (ties : List OrderKey)
    (hsort : ∀ s ∈ sort, ∃ e, p.resolve s.column = .ok e) :
    ∃ exprs terms, List.Forall₂ (fun s e => p.resolve s.column = .ok e) sort exprs ∧
      orderTerms sort p.resolve ties = .ok terms ∧
      orderSql terms = ", ".intercalate (terms.map fun t => t.key.sql ++ if t.descending then " DESC" else " ASC") ∧
      terms.map (·.key.sql) = (exprs.map ColumnExpr.sql ++ ties.map OrderKey.sql).eraseDups ∧
      (terms.map (·.key.sql)).Nodup ∧
      (∀ t ∈ terms, t.Directed p sort ties) ∧
      (∀ r r' slot slot' column column' e e', p.resolve r = .ok e → p.resolve r' = .ok e' →
        p.Denotes r slot column → p.Denotes r' slot' column' → (e.sql = e'.sql ↔ slot = slot' ∧ column = column')) ∧
      (p.main.slot = .main → ∀ column, column ≠ "" → '.' ∉ column.toList →
        p.resolve ("main." ++ column) = p.resolve column) ∧
      ∀ (st : Storage) (key : List Value), p.main.slot = .main → p.hops = [] → st.Keyed p.main.ref key →
        defaultOrder key = .ok ties → ∀ m ∈ st.combinations p, ∀ m' ∈ st.combinations p, m ≠ m' →
          (st.compareRows terms m m' = .lt ∧ st.compareRows terms m' m = .gt) ∨
            (st.compareRows terms m m' = .gt ∧ st.compareRows terms m' m = .lt) := by
  obtain ⟨exprs, hexprs⟩ := Result.mapM_ok_of_forall hsort
  have hresolved := Result.forall₂_of_mapM_ok hexprs
  have hterms : orderTerms sort p.resolve ties = .ok _ := OrderTerm.orderTerms_eq hresolved
  have hkeys : (OrderTerm.distinct (OrderTerm.sorted sort exprs ++ ties.map fun k => ⟨k, false⟩)).map (·.key.sql) =
      (exprs.map ColumnExpr.sql ++ ties.map OrderKey.sql).eraseDups := by
    have hall : (OrderTerm.sorted sort exprs ++ ties.map fun k => OrderTerm.mk k false).map OrderTerm.key =
        exprs.map OrderKey.column ++ ties := by
      rw [List.map_append, OrderTerm.map_key_sorted hresolved, List.map_map]
      exact congrArg (_ ++ ·) (List.map_id ties)
    have htexts : exprs.map ColumnExpr.sql ++ ties.map OrderKey.sql =
        (exprs.map OrderKey.column ++ ties).map OrderKey.sql := by
      rw [List.map_append, List.map_map]
      rfl
    rw [htexts, eraseDups_map OrderKey.sql_injective, ← hall, ← OrderTerm.map_key_distinct, List.map_map]
    rfl
  refine ⟨exprs, _, hresolved, hterms, rfl, hkeys, ?_, ?_, ?_, ?_, ?_⟩
  · rw [hkeys]
    exact nodup_eraseDups _
  · intro t ht
    exact OrderTerm.directed_of_find? hresolved (OrderTerm.find?_of_mem_distinct ht)
  · intro r r' slot slot' column column' e e' h h' hdenotes hdenotes'
    exact sql_eq_iff_of_denotes h h' hdenotes hdenotes'
  · exact fun hmain column hcolumn hdot => resolve_main hmain hcolumn hdot
  · intro st key hmain hsingle hkeyed hties m hm m' hm' hne
    exact Storage.compareRows_single hmain hsingle hkeyed hties hterms hm hm' hne

end JoinPlan

namespace Parcels

/-- The orders alone, by their id in either way of naming it and then by another column. -/
theorem order_by_first_occurrences_of_ids :
    (∀ s ∈ [SortSpec.mk "main.id" "DESC", ⟨"id", "asc"⟩, ⟨"joined_id", "upwards"⟩],
      ∃ e, JoinPlan.resolve ⟨orders, []⟩ s.column = .ok e) ∧
    ∃ ties terms, JoinPlan.defaultOrder [.text "id"] = .ok ties ∧
      orderTerms [⟨"main.id", "DESC"⟩, ⟨"id", "asc"⟩, ⟨"joined_id", "upwards"⟩] (JoinPlan.resolve ⟨orders, []⟩) ties =
        .ok terms ∧
      terms.map (·.key.sql) = ["t1.\"id\"", "t1.\"joined_id\""] ∧
      ∀ st : Storage, st.Keyed orders.ref [.text "id"] → ∀ m ∈ st.combinations ⟨orders, []⟩,
        ∀ m' ∈ st.combinations ⟨orders, []⟩, m ≠ m' → st.compareRows terms m m' ≠ .eq := by
  have hsort : ∀ s ∈ [SortSpec.mk "main.id" "DESC", ⟨"id", "asc"⟩, ⟨"joined_id", "upwards"⟩],
      ∃ e, JoinPlan.resolve ⟨orders, []⟩ s.column = .ok e := by
    intro s hs
    simp only [List.mem_cons, List.not_mem_nil, or_false] at hs
    rcases hs with rfl | rfl | rfl <;> exact ⟨_, rfl⟩
  have hties : JoinPlan.defaultOrder [.text "id"] = .ok [.column orderId.column] := rfl
  obtain ⟨exprs, terms, hexprs, hterms, -, hkeys, -, -, -, -, hstrict⟩ :=
    JoinPlan.order_by_first_occurrences ⟨orders, []⟩ _ [.column orderId.column] hsort
  refine ⟨hsort, _, terms, hties, hterms, ?_, ?_⟩
  · obtain rfl : exprs = [orderId.column, orderId.column, orderJoinedId.column] :=
      Except.ok.inj ((Result.mapM_of_forall₂ hexprs).symm.trans rfl)
    rw [hkeys]
    decide
  · intro st hkeyed m hm m' hm' hne htie
    rcases hstrict st [.text "id"] rfl rfl hkeyed hties m hm m' hm' hne with ⟨hless, -⟩ | ⟨hmore, -⟩
    · exact nomatch hless.symm.trans htie
    · exact nomatch hmore.symm.trans htie

end Parcels

end TableSteward

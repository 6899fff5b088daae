import Mathlib.Data.List.Forall2
import Mathlib.Data.List.Nodup
import Mathlib.Data.List.Perm.Basic
import Mathlib.Logic.Function.Basic
import TableSteward.Proofs.Plan

/-!
# Joined rows and their order

What the source and the order of a query mean over the rows that a database stores.  The source of a plan is the list
of all combinations of a main row with the rows that the joins put next to it, and the terms of an order compare two
of them.  The primary key of the main table tells main rows apart, and nothing in an order tells two combinations of
one main row apart but the columns that the request sorts by.
-/
set_option autoImplicit false

namespace TableSteward

open Std (TransCmp TransOrd OrientedCmp ReflCmp)

/-! ## Stored rows -/

structure StoredRow where
  place : Nat
  cells : Entries Value

def StoredRow.cell (row : StoredRow) (column : String) : Value := (row.cells.get? column).getD .null

/-- The rows of every table, at places of their own, and the order of values. -/
structure Storage where
  rows : TableRef → List StoredRow
  order : Value → Value → Ordering
  trans : TransCmp order
  placed : ∀ t, ((rows t).map StoredRow.place).Nodup

namespace Storage

variable (st : Storage)

instance : TransCmp st.order := st.trans

/-- The equality of a join condition: nothing equals null. -/
def equal (a b : Value) : Bool := !a.isNull && !b.isNull && st.order a b == .eq

/-- No two rows of the table have all these columns in common, and none of the columns is ever null. -/
structure Keyed (t : TableRef) (key : List Value) : Prop where
  notNull : ∀ row ∈ st.rows t, ∀ name, .text name ∈ key → (row.cell name).isNull = false
  unique : ∀ row ∈ st.rows t, ∀ row' ∈ st.rows t,
    (∀ name, .text name ∈ key → st.equal (row.cell name) (row'.cell name) = true) → key ≠ [] → row = row'

/-- No two rows of the table have the column in common. -/
def Unique (t : TableRef) (column : String) : Prop :=
  ∀ row ∈ st.rows t, ∀ row' ∈ st.rows t, st.equal (row.cell column) (row'.cell column) = true → row = row'

variable {st}

theorem equal_iff {a b : Value} :
    st.equal a b = true ↔ a.isNull = false ∧ b.isNull = false ∧ st.order a b = .eq := by
  simp [equal, and_assoc]

theorem equal_of_equal {a b c : Value} (hb : st.equal a b = true) (hc : st.equal a c = true) :
    st.equal b c = true := by
  obtain ⟨-, hb', hab⟩ := equal_iff.mp hb
  obtain ⟨-, hc', hac⟩ := equal_iff.mp hc
  exact equal_iff.mpr ⟨hb', hc', TransCmp.eq_trans (OrientedCmp.eq_symm hab) hac⟩

theorem eq_of_place {t : TableRef} {row row' : StoredRow} (h : row ∈ st.rows t) (h' : row' ∈ st.rows t)
    (hplace : row.place = row'.place) : row = row' :=
  List.inj_on_of_nodup_map (st.placed t) h h' hplace

end Storage

/-! ## The source of a query -/

/-- A row of the source of a query: a row of each table in the chain, or none after a left join without a match. -/
abbrev Combination := Slot → Option StoredRow

def Combination.cell (m : Combination) (e : ColumnExpr) : Value :=
  ((e.slot.bind m).map fun row => row.cell e.column.name).getD .null

namespace Storage

variable (st : Storage)

def matching (h : PlannedHop) (m : Combination) : List StoredRow :=
  (st.rows h.table.ref).filter fun row => st.equal (m.cell h.source) (row.cell h.target.column.name)

def extend (h : PlannedHop) (m : Combination) : List Combination :=
  match h.kind, st.matching h m with
  | .left, [] => [m]
  | _, found => found.map fun row => Function.update m h.table.slot (some row)

/-- The combinations that come of some after a number of joins. -/
def joined : List PlannedHop → List Combination → List Combination
  | [], ms => ms
  | h :: rest, ms => joined rest (ms.flatMap (st.extend h))

def combinations (p : JoinPlan) : List Combination :=
  st.joined p.hops ((st.rows p.main.ref).map fun row => Function.update (fun _ => none) p.main.slot (some row))

variable {st}

theorem of_mem_extend {h : PlannedHop} {m m' : Combination} (hm : m' ∈ st.extend h m) :
    (m' = m ∧ st.matching h m = []) ∨
      ∃ row ∈ st.matching h m, m' = Function.update m h.table.slot (some row) := by
  unfold extend at hm
  split at hm
  · rename_i hnone
    exact .inl ⟨List.mem_singleton.mp hm, hnone⟩
  · obtain ⟨row, hrow, rfl⟩ := List.mem_map.mp hm
    exact .inr ⟨row, hrow, rfl⟩

theorem main_of_mem_extend {h : PlannedHop} (hslot : h.table.slot ≠ .main) {m m' : Combination}
    (hm : m' ∈ st.extend h m) : m' .main = m .main := by
  rcases of_mem_extend hm with ⟨rfl, -⟩ | ⟨row, -, rfl⟩
  · rfl
  · exact Function.update_of_ne hslot.symm _ _

/-- A join on a unique column finds one row at most. -/
theorem extend_unique {h : PlannedHop} (hunique : st.Unique h.table.ref h.target.column.name)
    {m m₁ m₂ : Combination} (hm₁ : m₁ ∈ st.extend h m) (hm₂ : m₂ ∈ st.extend h m) : m₁ = m₂ := by
  rcases of_mem_extend hm₁ with ⟨rfl, hnone⟩ | ⟨row₁, hrow₁, rfl⟩
  · rcases of_mem_extend hm₂ with ⟨rfl, -⟩ | ⟨row₂, hrow₂, -⟩
    · rfl
    · simp [hnone] at hrow₂
  · rcases of_mem_extend hm₂ with ⟨-, hnone⟩ | ⟨row₂, hrow₂, rfl⟩
    · simp [hnone] at hrow₁
    · simp only [matching, List.mem_filter] at hrow₁ hrow₂
      rw [hunique row₁ hrow₁.1 row₂ hrow₂.1 (equal_of_equal hrow₁.2 hrow₂.2)]

end Storage

/-! ### Main rows -/

theorem Hop.target_ne_main (hop : Hop) : hop.target ≠ .main := by cases hop <;> decide

theorem ChainFrom.slot_ne_main :
    ∀ {hops : List PlannedHop} {left : PlannedTable} {places : List Hop}, ChainFrom left places hops →
      ∀ h ∈ hops, h.table.slot ≠ .main := by
  intro hops
  induction hops with
  | nil => simp
  | cons h rest ih =>
      intro left places hchain
      cases places with
      | nil => exact hchain.elim
      | cons hop places =>
          obtain ⟨hleads, hrest⟩ := hchain
          simp only [List.mem_cons, forall_eq_or_imp]
          exact ⟨hleads.slot ▸ hop.target_ne_main, ih hrest⟩

/-- The combinations have main rows, out of this table. -/
def Storage.Rooted (st : Storage) (t : TableRef) (ms : List Combination) : Prop :=
  ∀ m ∈ ms, ∃ row ∈ st.rows t, m .main = some row

/-- No main row occurs in two combinations. -/
def Combination.Lone (ms : List Combination) : Prop :=
  ∀ m ∈ ms, ∀ m' ∈ ms, m .main = m' .main → m = m'

namespace Storage

variable {st : Storage}

theorem Rooted.extend {t : TableRef} {ms : List Combination} (hms : st.Rooted t ms) {h : PlannedHop}
    (hslot : h.table.slot ≠ .main) : st.Rooted t (ms.flatMap (st.extend h)) := by
  intro m hm
  obtain ⟨m₀, hm₀, hm⟩ := List.mem_flatMap.mp hm
  rw [main_of_mem_extend hslot hm]
  exact hms m₀ hm₀

theorem Rooted.joined {t : TableRef} {hops : List PlannedHop} (hslots : ∀ h ∈ hops, h.table.slot ≠ .main) :
    ∀ {ms : List Combination}, st.Rooted t ms → st.Rooted t (st.joined hops ms) := by
  induction hops with
  | nil => exact id
  | cons h rest ih =>
      intro ms hms
      simp only [List.mem_cons, forall_eq_or_imp] at hslots
      exact ih hslots.2 (hms.extend hslots.1)

theorem lone_extend {ms : List Combination} (hms : Combination.Lone ms) {h : PlannedHop}
    (hslot : h.table.slot ≠ .main) (hunique : st.Unique h.table.ref h.target.column.name) :
    Combination.Lone (ms.flatMap (st.extend h)) := by
  intro m hm m' hm' hmain
  obtain ⟨m₀, hm₀, hm⟩ := List.mem_flatMap.mp hm
  obtain ⟨m₀', hm₀', hm'⟩ := List.mem_flatMap.mp hm'
  rw [main_of_mem_extend hslot hm, main_of_mem_extend hslot hm'] at hmain
  obtain rfl := hms m₀ hm₀ m₀' hm₀' hmain
  exact extend_unique hunique hm hm'

theorem lone_joined {hops : List PlannedHop} (hslots : ∀ h ∈ hops, h.table.slot ≠ .main)
    (hunique : ∀ h ∈ hops, st.Unique h.table.ref h.target.column.name) :
    ∀ {ms : List Combination}, Combination.Lone ms → Combination.Lone (st.joined hops ms) := by
  induction hops with
  | nil => exact id
  | cons h rest ih =>
      intro ms hms
      simp only [List.mem_cons, forall_eq_or_imp] at hslots hunique
      exact ih hslots.2 hunique.2 (lone_extend hms hslots.1 hunique.1)

theorem rooted_combinations {p : JoinPlan} (hp : p.WellFormed) :
    st.Rooted p.main.ref (st.combinations p) := by
  apply Rooted.joined hp.chain.slot_ne_main
  intro m hm
  obtain ⟨row, hrow, rfl⟩ := List.mem_map.mp hm
  exact ⟨row, hrow, by simp [hp.main]⟩

theorem lone_combinations {p : JoinPlan} (hp : p.WellFormed)
    (hunique : ∀ h ∈ p.hops, st.Unique h.table.ref h.target.column.name) :
    Combination.Lone (st.combinations p) := by
  apply lone_joined hp.chain.slot_ne_main hunique
  intro m hm m' hm' hmain
  obtain ⟨row, -, rfl⟩ := List.mem_map.mp hm
  obtain ⟨row', -, rfl⟩ := List.mem_map.mp hm'
  obtain rfl : row = row' := by simpa [hp.main] using hmain
  rfl

end Storage

/-! ## The order of a query -/

namespace Storage

variable (st : Storage)

def compareKey : OrderKey → Combination → Combination → Ordering
  | .column e, m, m' => st.order (m.cell e) (m'.cell e)
  | .rowId slot, m, m' => compare ((m slot).map StoredRow.place) ((m' slot).map StoredRow.place)

def compareTerm (t : OrderTerm) (m m' : Combination) : Ordering :=
  if t.descending then st.compareKey t.key m' m else st.compareKey t.key m m'

/-- The first term that tells the combinations apart decides. -/
def compareRows : List OrderTerm → Combination → Combination → Ordering
  | [] => fun _ _ => .eq
  | t :: rest => compareLex (st.compareTerm t) (compareRows rest)

instance (k : OrderKey) : TransCmp (st.compareKey k) := by
  cases k with
  | column e =>
      let values : Ord Value := ⟨st.order⟩
      have : TransOrd Value := st.trans
      exact inferInstanceAs (TransCmp (compareOn fun m : Combination => m.cell e))
  | rowId slot =>
      exact inferInstanceAs (TransCmp (compareOn fun m : Combination => (m slot).map StoredRow.place))

instance (t : OrderTerm) : TransCmp (st.compareTerm t) := by
  have hreversed : TransCmp fun m m' => st.compareKey t.key m' m := TransCmp.opposite
  unfold compareTerm
  cases t.descending with
  | true => exact hreversed
  | false => exact inferInstanceAs (TransCmp (st.compareKey t.key))

instance (terms : List OrderTerm) : TransCmp (st.compareRows terms) := by
  induction terms with
  | nil => exact { eq_swap := rfl, isLE_trans := fun _ _ => rfl }
  | cons t rest ih => exact inferInstanceAs (TransCmp (compareLex (st.compareTerm t) (st.compareRows rest)))

variable {st} {m m' : Combination}

theorem compareTerm_eq_iff {t : OrderTerm} :
    st.compareTerm t m m' = .eq ↔ st.compareKey t.key m m' = .eq := by
  have hsymm : st.compareKey t.key m' m = .eq ↔ st.compareKey t.key m m' = .eq :=
    ⟨OrientedCmp.eq_symm, OrientedCmp.eq_symm⟩
  unfold compareTerm
  cases t.descending with
  | true => exact hsymm
  | false => exact Iff.rfl

theorem compareRows_eq_iff {terms : List OrderTerm} :
    st.compareRows terms m m' = .eq ↔ ∀ t ∈ terms, st.compareKey t.key m m' = .eq := by
  induction terms with
  | nil => simp [compareRows]
  | cons t rest ih =>
      simp only [compareRows, compareLex, Ordering.then_eq_eq, List.mem_cons, forall_eq_or_imp]
      rw [ih, compareTerm_eq_iff]

end Storage

/-! ### The terms of a query -/

/-- A key that occurs again is left out, but it occurs. -/
theorem OrderTerm.forall_key_distinctFrom {P : OrderKey → Prop} {terms : List OrderTerm} :
    ∀ {used : List OrderKey}, (∀ k ∈ used, P k) →
      ((∀ t ∈ distinctFrom used terms, P t.key) ↔ ∀ t ∈ terms, P t.key) := by
  induction terms with
  | nil => simp [distinctFrom]
  | cons s rest ih =>
      intro used hused
      simp only [distinctFrom, List.mem_cons, forall_eq_or_imp]
      by_cases hs : used.contains s.key = true
      · have hkey : P s.key := hused _ (List.contains_iff_mem.mp hs)
        rw [if_pos hs, ih hused]
        simp [hkey]
      · rw [if_neg hs]
        simp only [List.mem_cons, forall_eq_or_imp]
        apply and_congr_right
        intro hkey
        apply ih
        simpa [hkey] using hused

theorem OrderTerm.forall_key_distinct {P : OrderKey → Prop} {terms : List OrderTerm} :
    (∀ t ∈ distinct terms, P t.key) ↔ ∀ t ∈ terms, P t.key := forall_key_distinctFrom (by simp)

namespace Storage

variable {st : Storage} {m m' : Combination}

theorem compareKey_ofSort {resolve : Resolver} {s : SortSpec} {t : OrderTerm}
    (h : OrderTerm.ofSort resolve s = .ok t) :
    st.compareKey t.key m m' = .eq ↔
      ∃ e, resolve s.column = .ok e ∧ st.order (m.cell e) (m'.cell e) = .eq := by
  unfold OrderTerm.ofSort at h
  obtain ⟨e, he, h⟩ := Result.of_bind_ok h
  cases h
  simp [he, compareKey]

theorem forall_compareKey_ofSort {resolve : Resolver} {sort : List SortSpec} {terms : List OrderTerm}
    (h : List.Forall₂ (fun s t => OrderTerm.ofSort resolve s = .ok t) sort terms) :
    (∀ t ∈ terms, st.compareKey t.key m m' = .eq) ↔
      ∀ s ∈ sort, ∃ e, resolve s.column = .ok e ∧ st.order (m.cell e) (m'.cell e) = .eq := by
  induction h with
  | nil => simp
  | cons ht _ ih => simp only [List.mem_cons, forall_eq_or_imp, compareKey_ofSort ht, ih]

/-- Rows tie when they agree in the columns that the request sorts by and in the tie-breakers. -/
theorem compareRows_orderTerms {sort : List SortSpec} {p : JoinPlan} {ties : List OrderKey}
    {terms : List OrderTerm} (h : orderTerms sort p.resolve ties = .ok terms) :
    st.compareRows terms m m' = .eq ↔
      (∀ s ∈ sort, ∃ e, p.resolve s.column = .ok e ∧ st.order (m.cell e) (m'.cell e) = .eq) ∧
        ∀ k ∈ ties, st.compareKey k m m' = .eq := by
  unfold orderTerms at h
  obtain ⟨sorted, hsorted, h⟩ := Result.of_bind_ok h
  cases h
  rw [compareRows_eq_iff, OrderTerm.forall_key_distinct (P := fun k => st.compareKey k m m' = .eq),
    ← forall_compareKey_ofSort (Result.forall₂_of_mapM_ok hsorted)]
  simp [or_imp, forall_and]

end Storage

/-! ### Tie-breakers -/

namespace JoinPlan

variable {key : List Value} {ties : List OrderKey}

/-- Every tie-breaker is about the row of the main table. -/
theorem main_of_defaultOrder (h : defaultOrder key = .ok ties) :
    ∀ k ∈ ties, k = .rowId .main ∨ ∃ c, k = .column ⟨some .main, c⟩ := by
  cases key with
  | nil =>
      cases h
      simp
  | cons v rest =>
      intro k hk
      obtain ⟨_, -, hk⟩ := Result.origin_of_mapM_ok h k hk
      obtain ⟨c, -, hk⟩ := Result.of_bind_ok hk
      cases hk
      exact .inr ⟨c, rfl⟩

/-- Every column of the primary key is among the tie-breakers. -/
theorem column_of_defaultOrder (h : defaultOrder key = .ok ties) {name : String} (hname : .text name ∈ key) :
    ∃ c : Identifier, c.name = name ∧ .column ⟨some .main, c⟩ ∈ ties := by
  cases key with
  | nil => simp at hname
  | cons v rest =>
      obtain ⟨k, hk, hkey⟩ := exists_of_mem_left (Result.forall₂_of_mapM_ok h) _ hname
      obtain ⟨c, hc, hkey⟩ := Result.of_bind_ok hkey
      cases hkey
      exact ⟨c, Identifier.name_of_ofText hc, hk⟩

end JoinPlan

namespace Storage

variable {st : Storage} {m m' : Combination}

/-- The tie-breakers tell main rows apart, and they tell nothing else apart. -/
theorem compareKey_defaultOrder {t : TableRef} {key : List Value} {ties : List OrderKey}
    (hkeyed : st.Keyed t key) (hties : JoinPlan.defaultOrder key = .ok ties) {row row' : StoredRow}
    (hrow : row ∈ st.rows t) (hrow' : row' ∈ st.rows t) (hm : m .main = some row) (hm' : m' .main = some row') :
    (∀ k ∈ ties, st.compareKey k m m' = .eq) ↔ row = row' := by
  constructor
  · intro hall
    by_cases hkey : key = []
    · subst hkey
      cases hties
      apply eq_of_place hrow hrow'
      simpa [compareKey, hm, hm'] using hall
    · apply hkeyed.unique row hrow row' hrow' _ hkey
      intro name hname
      obtain ⟨c, rfl, hc⟩ := JoinPlan.column_of_defaultOrder hties hname
      have hsame := hall _ hc
      simp only [compareKey, Combination.cell, Option.bind_some, hm, hm', Option.map_some, Option.getD_some] at hsame
      exact equal_iff.mpr ⟨hkeyed.notNull row hrow _ hname, hkeyed.notNull row' hrow' _ hname, hsame⟩
  · rintro rfl k hk
    rcases JoinPlan.main_of_defaultOrder hties k hk with rfl | ⟨c, rfl⟩
    · simp [compareKey, hm, hm']
    · have hself : st.order (row.cell c.name) (row.cell c.name) = .eq := ReflCmp.compare_self
      simpa [compareKey, Combination.cell, hm, hm'] using hself

/-- Two result rows tie under the order of a query just if they have the same main row and agree in the columns that
the request sorts by. -/
theorem compareRows_eq_iff_main {sort : List SortSpec} {p : JoinPlan} {key : List Value} {ties : List OrderKey}
    {terms : List OrderTerm} (hp : p.WellFormed) (hkeyed : st.Keyed p.main.ref key)
    (hties : JoinPlan.defaultOrder key = .ok ties) (hterms : orderTerms sort p.resolve ties = .ok terms)
    (hm : m ∈ st.combinations p) (hm' : m' ∈ st.combinations p) :
    st.compareRows terms m m' = .eq ↔ m .main = m' .main ∧
      ∀ s ∈ sort, ∃ e, p.resolve s.column = .ok e ∧ st.order (m.cell e) (m'.cell e) = .eq := by
  obtain ⟨row, hrow, hmain⟩ := rooted_combinations hp m hm
  obtain ⟨row', hrow', hmain'⟩ := rooted_combinations hp m' hm'
  rw [compareRows_orderTerms hterms, compareKey_defaultOrder hkeyed hties hrow hrow' hmain hmain', hmain, hmain',
    Option.some_inj, and_comm]

end Storage

/-! ## Sorted rows -/

/-- Two sorted arrangements of the same items tie item by item. -/
theorem forall₂_of_sorted {α : Type} {cmp : α → α → Ordering} [TransCmp cmp] {xs ys : List α} (hperm : xs.Perm ys)
    (hxs : xs.Pairwise fun a b => (cmp a b).isLE = true) (hys : ys.Pairwise fun a b => (cmp a b).isLE = true) :
    List.Forall₂ (fun a b => cmp a b = .eq) xs ys := by
  -- Items that tie are made equal, so that the order of their classes is antisymmetric.
  let tied : Setoid α := ⟨fun a b => cmp a b = .eq, fun _ => ReflCmp.compare_self, OrientedCmp.eq_symm,
    TransCmp.eq_trans⟩
  let before : Quotient tied → Quotient tied → Prop :=
    Quotient.lift₂ (fun a b => (cmp a b).isLE = true) fun a b a' b' ha hb => by
      rw [TransCmp.congr_left ha, TransCmp.congr_right hb]
  have hantisymm : ∀ u v : Quotient tied, before u v → before v u → u = v := by
    intro u v
    induction u, v using Quotient.inductionOn₂
    exact fun hab hba => Quotient.sound (OrientedCmp.isLE_antisymm hab hba)
  have hclasses : xs.map (Quotient.mk tied) = ys.map (Quotient.mk tied) := by
    apply List.Perm.eq_of_pairwise fun u v _ _ => hantisymm u v
    · exact List.pairwise_map.mpr hxs
    · exact List.pairwise_map.mpr hys
    · exact hperm.map _
  rw [← List.forall₂_eq_eq_eq, List.forall₂_map_left_iff, List.forall₂_map_right_iff] at hclasses
  exact hclasses.imp fun _ _ h => Quotient.exact h

theorem map_eq_of_forall₂ {α β : Type} {R : α → α → Prop} {f : α → β} {xs ys : List α} (h : List.Forall₂ R xs ys)
    (hf : ∀ x ∈ xs, ∀ y ∈ ys, R x y → f x = f y) : xs.map f = ys.map f := by
  induction h with
  | nil => rfl
  | cons hxy _ ih =>
      simp only [List.mem_cons, forall_eq_or_imp] at hf
      rw [List.map_cons, List.map_cons, hf.1.1 hxy, ih fun x hx => (hf.2 x hx).2]

namespace Storage

variable {st : Storage} {terms : List OrderTerm} {rows xs ys : List Combination}

/-- The rows in one of the orders that the terms allow: those that tie may stand in any order. -/
structure Arranges (st : Storage) (terms : List OrderTerm) (rows sorted : List Combination) : Prop where
  perm : sorted.Perm rows
  ascending : sorted.Pairwise fun m m' => (st.compareRows terms m m').isLE = true

/-- What is the same for rows that tie is the same in every arrangement. -/
theorem Arranges.map_eq {β : Type} {f : Combination → β} (hxs : st.Arranges terms rows xs)
    (hys : st.Arranges terms rows ys)
    (hties : ∀ m ∈ rows, ∀ m' ∈ rows, st.compareRows terms m m' = .eq → f m = f m') : xs.map f = ys.map f := by
  have htied := forall₂_of_sorted (hxs.perm.trans hys.perm.symm) hxs.ascending hys.ascending
  apply map_eq_of_forall₂ htied
  intro m hm m' hm'
  exact hties m (hxs.perm.mem_iff.mp hm) m' (hys.perm.mem_iff.mp hm')

end Storage

end TableSteward

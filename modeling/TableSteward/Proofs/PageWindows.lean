import Mathlib.Data.Rat.Floor
import TableSteward.Proofs.PagedExport

/-!
# Windows of pages

The windows of the pages cut the rows of a query into stretches of one size, in order, so that each row is on one page
and no page is empty unless there are no rows.  Whatever page is asked for, the fetch selects the rows of one of these
windows, and reports the number of its page.
-/
set_option autoImplicit false

namespace TableSteward

/-! ## Rows of a window -/

/-- The numbers of the rows that a window shows, out of so many rows. -/
def Window.numbers (w : Window) (n : Nat) : List Nat :=
  let rest := (List.range n).drop (w.offset.getD 0).toNat
  w.limit.elim rest fun size => rest.take size.toNat

namespace Page

/-- The window of a page; the pages are counted from zero. -/
def window (size i : Nat) : Window := Window.page size ((i : Int) * size)

theorem slice_window (size i : Nat) (rows : List Row) :
    (window size i).slice rows = (rows.drop (i * size)).take size := by
  rw [window, Window.slice_page, ← Int.natCast_mul, Int.toNat_natCast, Int.toNat_natCast]

theorem offset_window (size i : Nat) : ((window size i).offset.getD 0).toNat = i * size := by
  rw [window, Window.page, ← Int.natCast_mul]
  dsimp only
  split_ifs with hstart
  · exact (Int.ofNat_eq_zero.mp hstart).symm
  · exact Int.toNat_natCast _

theorem numbers_window (size i n : Nat) :
    (window size i).numbers n = ((List.range n).drop (i * size)).take size := by
  rw [Window.numbers, offset_window]
  rfl

theorem parts_window {size : Nat} (hsize : 1 ≤ size) (i : Nat) :
    (window size i).parts = ("LIMIT " ++ toString size) :: if i = 0 then [] else ["OFFSET " ++ toString (i * size)] := by
  have hstart : (i : Int) * size = 0 ↔ i = 0 := by
    rw [mul_eq_zero, Int.natCast_eq_zero, Int.natCast_eq_zero]
    omega
  rw [window, Window.page, Window.parts]
  simp only [hstart]
  split_ifs with hi
  · rfl
  · rw [← Int.natCast_mul]
    rfl

section Windows

variable {n size pages : Nat}

/-- Windows with room for all rows show every row once, and in order. -/
theorem flatMap_numbers (hroom : n ≤ pages * size) :
    (List.range pages).flatMap (fun i => (window size i).numbers n) = List.range n := by
  have hcut : (fun i => (window size i).numbers n) = fun i => ((List.range n).drop (i * size)).take size :=
    funext fun i => numbers_window size i n
  rw [hcut, List.flatMap_def]
  exact flatten_cut_eq (by rwa [List.length_range])

theorem flatMap_slice {rows : List Row} (hroom : rows.length ≤ pages * size) :
    (List.range pages).flatMap (fun i => (window size i).slice rows) = rows := by
  have hcut : (fun i => (window size i).slice rows) = fun i => (rows.drop (i * size)).take size :=
    funext fun i => slice_window size i rows
  rw [hcut, List.flatMap_def]
  exact flatten_cut_eq hroom

theorem disjoint_numbers {i j : Nat} (hij : i ≠ j) :
    ((window size i).numbers n).Disjoint ((window size j).numbers n) := by
  intro row hi hj
  rw [numbers_window] at hi hj
  obtain ⟨a, ha, hrow⟩ := List.mem_iff_getElem.mp hi
  obtain ⟨b, hb, hrow'⟩ := List.mem_iff_getElem.mp hj
  simp only [List.getElem_take, List.getElem_drop, List.getElem_range] at hrow hrow'
  rw [List.length_take] at ha hb
  rcases Nat.lt_or_gt_of_ne hij with hless | hless
  · have hnext : (i + 1) * size ≤ j * size := Nat.mul_le_mul_right size hless
    rw [Nat.succ_mul] at hnext
    omega
  · have hnext : (j + 1) * size ≤ i * size := Nat.mul_le_mul_right size hless
    rw [Nat.succ_mul] at hnext
    omega

theorem numbers_ne_nil {i : Nat} (hsize : 1 ≤ size) (hi : i * size < n) : (window size i).numbers n ≠ [] := by
  rw [numbers_window, ← List.length_pos_iff, List.length_take, List.length_drop, List.length_range]
  omega

end Windows

/-! ## The page that is shown -/

/-- The page that is asked for is shown if there is one; the first if none is asked for or one before it, and the last
if one after it is asked for. -/
structure Answers (page : Value) (pages i : Nat) : Prop where
  exists_page : i < pages
  within : ∀ k : Int, page.toInteger = .ok k → 1 ≤ k → k ≤ pages → k = i + 1
  before : ∀ k : Int, page.toInteger = .ok k → k < 1 → i = 0
  after : ∀ k : Int, page.toInteger = .ok k → pages < k → i + 1 = pages
  unreadable : ∀ f, page.toInteger = .error f → i = 0

/-- Numbers and texts have a page, whatever they say. -/
theorem clamp_answers {page : Value} (hpage : (∃ k, page = .int k) ∨ ∃ t, page = .text t) {pages : Nat}
    (hpages : 1 ≤ pages) : ∃ i, Answers page pages i ∧ clamp page pages = .ok ((i : Int) + 1) := by
  cases hread : page.toInteger with
  | ok k =>
      have hclamp : clamp page pages = .ok (min (max 1 k) (max 1 (pages : Int))) := by
        rw [clamp, hread]
      refine ⟨(min (max 1 k) (max 1 (pages : Int)) - 1).toNat, ⟨by omega, ?_, ?_, ?_, ?_⟩, ?_⟩
      · intro k' hk'
        cases hread.symm.trans hk'
        omega
      · intro k' hk'
        cases hread.symm.trans hk'
        omega
      · intro k' hk'
        cases hread.symm.trans hk'
        omega
      · intro f hf
        cases hread.symm.trans hf
      · rw [hclamp]
        congr 1
        omega
  | error f =>
      have hf : f = .unreadableNumber := by
        rcases hpage with ⟨k, rfl⟩ | ⟨t, rfl⟩
        · cases hread
        · change Value.readInteger t = .error f at hread
          unfold Value.readInteger at hread
          split at hread
          · cases hread
          · exact (Except.error.inj hread).symm
      subst hf
      have hclamp : clamp page pages = .ok (min (max 1 1) (max 1 (pages : Int))) := by
        rw [clamp, hread]
      refine ⟨0, ⟨hpages, ?_, ?_, ?_, fun _ _ => rfl⟩, ?_⟩
      · intro k hk
        cases hread.symm.trans hk
      · exact fun _ _ _ => rfl
      · intro k hk
        cases hread.symm.trans hk
      · rw [hclamp]
        congr 1
        omega

open Exchange

variable {σ : Type} [Server σ]

/-- What a fetch does after its count: it selects the rows of a window and reports the number of its page. -/
def selectWindow (c : Connection) (q : Query) (total : Int) (size pages i : Nat) : Exchange σ Page := do
  let rows ← execute c (.page q (window size i))
  let rows ← lift (rows.mapM Row.plain)
  return ⟨rows, total, (i : Int) + 1, size, pages⟩

theorem fetch_eq_selectWindow {c : Connection} {q : Query} {page : Value} {n size pages i : Nat} {l l' : Link σ}
    (hcount : runOn (countRows c q) l = (.ok (n : Int), l')) (hpages : count (.int n) (.int size) = .ok (pages : Int))
    (hclamp : clamp page pages = .ok ((i : Int) + 1)) :
    runOn (fetch c q page size) l = runOn (selectWindow c q n size pages i) l' := by
  have hstart : ((i : Int) + 1 - 1) * size = i * size := by rw [Int.add_sub_cancel]
  have hlift : ∀ k : Int, (lift (.ok k) : Exchange σ Int) = pure k := fun _ => rfl
  rw [fetch, runOn_bind, hcount]
  dsimp only
  rw [hpages, hlift, pure_bind, hclamp, hlift, pure_bind, hstart]
  rfl

theorem pages_eq_ceil {n size : Nat} (hsize : 1 ≤ size) :
    ((max 1 ((n + size - 1) / size) : Nat) : Int) = max 1 ⌈(n : ℚ) / size⌉ := by
  have hceil : ⌈((n : Int) : ℚ) / (size : Nat)⌉ = -(-(n : Int) / size) := Rat.ceil_intCast_div_natCast n size
  rw [Int.cast_natCast] at hceil
  rw [hceil, Nat.cast_max, Nat.cast_one]
  by_cases hn : n = 0
  · subst hn
    rw [Nat.div_eq_of_lt (by omega)]
    simp
  · obtain ⟨hlow, hhigh, hpositive⟩ := ceil_bounds hsize hn rfl
    generalize (n + size - 1) / size = k at hlow hhigh hpositive
    have hlow : ((k : Int) - 1) * size < n := by
      rw [← Nat.cast_one, ← Nat.cast_sub hpositive]
      exact_mod_cast hlow
    rw [Binary64.ceil_eq (by omega) hlow (by exact_mod_cast hhigh)]

/-- The pages of a result partition its rows.  Their number, though it is computed with a rounded quotient, is the exact
quotient rounded up, and at least one; their windows show all rows, in order and each on one page, and no page is empty
unless there are no rows.  A fetch selects the rows of one of these windows and reports the number of its page: of the
page that is asked for, or of the first or the last. -/
theorem windows_partition (σ : Type) [Server σ] (n size : Nat) (hfew : n ≤ 2 ^ 53) (hsize : 1 ≤ size) :
    ∃ pages : Nat, (pages : Int) = max 1 ⌈(n : ℚ) / size⌉ ∧ count (.int n) (.int size) = .ok (pages : Int) ∧
      (List.range pages).flatMap (fun i => (window size i).numbers n) = List.range n ∧
      (∀ i < pages, ∀ j < pages, i ≠ j → ((window size i).numbers n).Disjoint ((window size j).numbers n)) ∧
      (0 < n → ∀ i < pages, (window size i).numbers n ≠ []) ∧
      (∀ rows : List Row, rows.length = n → (List.range pages).flatMap (fun i => (window size i).slice rows) = rows) ∧
      (∀ i < pages, (window size i).parts =
        ("LIMIT " ++ toString size) :: if i = 0 then [] else ["OFFSET " ++ toString (i * size)]) ∧
      ∀ page : Value, ((∃ k, page = .int k) ∨ ∃ t, page = .text t) → ∃ i, Answers page pages i ∧
        ∀ (c : Connection) (q : Query) (l l' : Link σ), runOn (countRows c q) l = (.ok (n : Int), l') →
          runOn (fetch c q page size) l = runOn (selectWindow c q n size pages i) l' := by
  have hcount := count_of_le hsize hfew
  have hroom := le_count (n := n) hsize
  have hnumber := pages_eq_ceil (n := n) hsize
  have hlast : 0 < n → (max 1 ((n + size - 1) / size) - 1) * size < n := by
    intro hn
    obtain ⟨hlow, -, hpositive⟩ := ceil_bounds hsize (Nat.pos_iff_ne_zero.mp hn) rfl
    rwa [max_eq_right hpositive]
  have hpositive : 1 ≤ max 1 ((n + size - 1) / size) := Nat.le_max_left ..
  generalize max 1 ((n + size - 1) / size) = pages at hroom hnumber hlast hpositive
  have hpages : count (.int n) (.int size) = .ok (pages : Int) := by
    rw [hcount, hnumber, ← pages_eq_ceil hsize, Nat.cast_max, Nat.cast_one]
  refine ⟨pages, hnumber, hpages, flatMap_numbers hroom, ?_, ?_, ?_, ?_, ?_⟩
  · exact fun i _ j _ hij => disjoint_numbers hij
  · intro hn i hi
    apply numbers_ne_nil hsize
    calc i * size ≤ (pages - 1) * size := Nat.mul_le_mul_right size (by omega)
      _ < n := hlast hn
  · rintro rows rfl
    exact flatMap_slice hroom
  · exact fun i _ => parts_window hsize i
  · intro page hpage
    obtain ⟨i, hanswers, hclamp⟩ := clamp_answers hpage hpositive
    exact ⟨i, hanswers, fun c q l l' hcounted => fetch_eq_selectWindow hcounted hpages hclamp⟩

end Page

namespace Ledger

def query : Query := .given { source := "\"public\".\"t\" AS t1" }

/-- Of a table of three rows, two on a page, the last page is shown for any page beyond it. -/
theorem windows_partition_of_three :
    (3 ≤ 2 ^ 53 ∧ 1 ≤ 2) ∧ Page.count (.int (3 : Nat)) (.int (2 : Nat)) = .ok 2 ∧
      (Page.window 2 0).numbers 3 = [0, 1] ∧ (Page.window 2 1).numbers 3 = [2] ∧
      ∀ c : Connection, ∃ l' : Link Still, (Page.countRows c query).runOn link = (.ok 3, l') ∧
        (Page.fetch c query (.text "7") (2 : Nat)).runOn link =
          (Page.selectWindow c query 3 2 2 1).runOn l' := by
  obtain ⟨pages, -, hcount, -, -, -, -, -, hfetch⟩ :=
    Page.windows_partition Still 3 2 (by decide) (by decide)
  have hpages : Page.count (.int (3 : Nat)) (.int (2 : Nat)) = .ok 2 := by decide +kernel
  obtain rfl : pages = 2 := by
    have hsame := Except.ok.inj (hcount.symm.trans hpages)
    exact_mod_cast hsame
  obtain ⟨i, hanswers, hrun⟩ := hfetch (.text "7") (.inr ⟨"7", rfl⟩)
  have hlast : i + 1 = 2 := hanswers.after 7 rfl (by decide)
  obtain rfl : i = 1 := by omega
  refine ⟨by decide, hpages, by decide, by decide, ?_⟩
  intro c
  have hcounted : ∃ l' : Link Still, (Page.countRows c query).runOn link = (.ok ((3 : Nat) : Int), l') :=
    ⟨_, rfl⟩
  obtain ⟨l', hl'⟩ := hcounted
  exact ⟨l', hl', hrun c _ link l' hl'⟩

end Ledger

end TableSteward

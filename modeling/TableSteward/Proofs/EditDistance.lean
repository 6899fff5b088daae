import Mathlib.Order.Bounds.Basic
import TableSteward.Name.Suggestion
import TableSteward.Proofs.PageCount

/-!
# The edit distance

An edit inserts, deletes or substitutes one character of a word, and a script of edits turns one word into another.
`editCost` tells from the first characters of two words how long a script has to be: there is one of that length and
none shorter.  Scripts can be run backwards, one behind the other, and on the words read from behind, and the laws of a
distance are those of scripts.

The rows that `distance` computes hold the costs between all beginnings of the two words.  A beginning grows at its
last character where `editCost` goes by the first, so the rows are about the words read from behind.  The similarity of
two names takes their distance in proportion to the length of the longer one, which it never exceeds: that keeps the
similarity between zero and one, whatever is rounded on the way.
-/
set_option autoImplicit false

namespace TableSteward

namespace Name

variable {α : Type}

/-! ## Edits -/

/-- A change of one character.  Places are counted from the front of the word. -/
inductive Edit (α : Type)
  | insertion (place : Nat) (c : α)
  | deletion (place : Nat)
  | substitution (place : Nat) (c : α)
  deriving DecidableEq, Repr

namespace Edit

/-- The word after the edit, if the word before it has such a place. -/
def on? : Edit α → List α → Option (List α)
  | insertion place c, word => if place ≤ word.length then some (word.insertIdx place c) else none
  | deletion place, word => if place < word.length then some (word.eraseIdx place) else none
  | substitution place c, word => if place < word.length then some (word.set place c) else none

/-- The word after all edits of a script, each of them made on what the one before it leaves. -/
def allOn? (script : List (Edit α)) (word : List α) : Option (List α) :=
  script.foldlM (fun word edit => edit.on? word) word

@[simp] theorem on?_insertion (front back : List α) (c : α) :
    (insertion front.length c).on? (front ++ back) = some (front ++ c :: back) := by
  have hinsert : (front ++ back).insertIdx front.length c = front ++ c :: back := by
    induction front with
    | nil => rfl
    | cons d front ih => exact congrArg (d :: ·) ih
  rw [on?, if_pos (by simp), hinsert]

@[simp] theorem on?_deletion (front back : List α) (a : α) :
    (deletion front.length).on? (front ++ a :: back) = some (front ++ back) := by
  rw [on?, if_pos (by simp), List.eraseIdx_append_of_length_le (Nat.le_refl _), Nat.sub_self,
    List.eraseIdx_cons_zero]

@[simp] theorem on?_substitution (front back : List α) (a c : α) :
    (substitution front.length c).on? (front ++ a :: back) = some (front ++ c :: back) := by
  rw [on?, if_pos (by simp), List.set_append_right _ _ (Nat.le_refl _), Nat.sub_self, List.set_cons_zero]

end Edit

/-- At one place, a character gives way to another, or only one of the two is there. -/
def Edited (as bs : List α) : Prop :=
  ∃ (front back : List α) (old new : Option α), (old.isSome ∨ new.isSome) ∧
    as = front ++ old.toList ++ back ∧ bs = front ++ new.toList ++ back

theorem exists_front {place : Nat} {word : List α} (h : place ≤ word.length) :
    ∃ front back, word = front ++ back ∧ place = front.length :=
  ⟨word.take place, word.drop place, (List.take_append_drop place word).symm, (List.length_take_of_le h).symm⟩

theorem exists_front_of_lt {place : Nat} {word : List α} (h : place < word.length) :
    ∃ front a back, word = front ++ a :: back ∧ place = front.length := by
  obtain ⟨front, back, rfl, rfl⟩ := exists_front h.le
  cases back with
  | nil => simp at h
  | cons a back => exact ⟨front, a, back, rfl, rfl⟩

theorem edited_of_on? {edit : Edit α} {as bs : List α} (h : edit.on? as = some bs) : Edited as bs := by
  cases edit with
  | insertion place c =>
      have hplace : place ≤ as.length := (Option.ite_none_right_eq_some.mp h).1
      obtain ⟨front, back, rfl, rfl⟩ := exists_front hplace
      rw [Edit.on?_insertion] at h
      cases h
      exact ⟨front, back, none, some c, .inr rfl, by simp, by simp⟩
  | deletion place =>
      have hplace : place < as.length := (Option.ite_none_right_eq_some.mp h).1
      obtain ⟨front, a, back, rfl, rfl⟩ := exists_front_of_lt hplace
      rw [Edit.on?_deletion] at h
      cases h
      exact ⟨front, back, some a, none, .inl rfl, by simp, by simp⟩
  | substitution place c =>
      have hplace : place < as.length := (Option.ite_none_right_eq_some.mp h).1
      obtain ⟨front, a, back, rfl, rfl⟩ := exists_front_of_lt hplace
      rw [Edit.on?_substitution] at h
      cases h
      exact ⟨front, back, some a, some c, .inl rfl, by simp, by simp⟩

theorem Edited.exists_edit {as bs : List α} (h : Edited as bs) : ∃ edit : Edit α, edit.on? as = some bs := by
  obtain ⟨front, back, old, new, hany, rfl, rfl⟩ := h
  cases old with
  | none =>
      cases new with
      | none => simp at hany
      | some c => exact ⟨.insertion front.length c, by simp⟩
  | some a =>
      cases new with
      | none => exact ⟨.deletion front.length, by simp⟩
      | some c => exact ⟨.substitution front.length c, by simp⟩

namespace Edited

theorem insert (c : α) (word : List α) : Edited word (c :: word) := ⟨[], word, none, some c, .inr rfl, rfl, rfl⟩

theorem substitute (a b : α) (word : List α) : Edited (a :: word) (b :: word) :=
  ⟨[], word, some a, some b, .inl rfl, rfl, rfl⟩

theorem symm {as bs : List α} (h : Edited as bs) : Edited bs as := by
  obtain ⟨front, back, old, new, hany, has, hbs⟩ := h
  exact ⟨front, back, new, old, hany.symm, hbs, has⟩

theorem cons (c : α) {as bs : List α} (h : Edited as bs) : Edited (c :: as) (c :: bs) := by
  obtain ⟨front, back, old, new, hany, rfl, rfl⟩ := h
  exact ⟨c :: front, back, old, new, hany, rfl, rfl⟩

theorem reverse {as bs : List α} (h : Edited as bs) : Edited as.reverse bs.reverse := by
  have hturned : ∀ c : Option α, c.toList.reverse = c.toList := fun c => by cases c <;> rfl
  obtain ⟨front, back, old, new, hany, rfl, rfl⟩ := h
  exact ⟨back.reverse, front.reverse, old, new, hany, by simp [hturned], by simp [hturned]⟩

theorem length_le {as bs : List α} (h : Edited as bs) : as.length ≤ bs.length + 1 := by
  obtain ⟨front, back, old, new, -, rfl, rfl⟩ := h
  have hold := old.length_toList_le
  simp only [List.length_append]
  omega

end Edited

/-! ## Scripts -/

/-- Some script of `n` edits turns the one word into the other. -/
def TurnsBy (n : Nat) (as bs : List α) : Prop :=
  ∃ script : List (Edit α), script.length = n ∧ Edit.allOn? script as = some bs

namespace TurnsBy

theorem zero_iff {as bs : List α} : TurnsBy 0 as bs ↔ as = bs := by
  simp [TurnsBy, Edit.allOn?]

theorem succ_iff {n : Nat} {as cs : List α} :
    TurnsBy (n + 1) as cs ↔ ∃ bs, Edited as bs ∧ TurnsBy n bs cs := by
  constructor
  · rintro ⟨script, hlength, happly⟩
    obtain ⟨edit, rest, rfl⟩ := List.exists_cons_of_length_eq_add_one hlength
    obtain ⟨bs, hedit, hrest⟩ := Option.bind_eq_some_iff.mp happly
    exact ⟨bs, edited_of_on? hedit, rest, Nat.succ.inj hlength, hrest⟩
  · rintro ⟨bs, hedited, rest, hlength, hrest⟩
    obtain ⟨edit, hedit⟩ := hedited.exists_edit
    exact ⟨edit :: rest, congrArg (· + 1) hlength, Option.bind_eq_some_iff.mpr ⟨bs, hedit, hrest⟩⟩

theorem of_edited {as bs : List α} (h : Edited as bs) : TurnsBy 1 as bs :=
  succ_iff.mpr ⟨bs, h, zero_iff.mpr rfl⟩

theorem trans {m n : Nat} {as bs cs : List α} (hleft : TurnsBy m as bs) (hright : TurnsBy n bs cs) :
    TurnsBy (m + n) as cs := by
  induction m generalizing as with
  | zero =>
      obtain rfl := zero_iff.mp hleft
      rwa [Nat.zero_add]
  | succ m ih =>
      obtain ⟨mid, hedited, hrest⟩ := succ_iff.mp hleft
      rw [Nat.add_right_comm]
      exact succ_iff.mpr ⟨mid, hedited, ih hrest⟩

theorem symm {n : Nat} {as bs : List α} (h : TurnsBy n as bs) : TurnsBy n bs as := by
  induction n generalizing as with
  | zero => exact zero_iff.mpr (zero_iff.mp h).symm
  | succ n ih =>
      obtain ⟨mid, hedited, hrest⟩ := succ_iff.mp h
      exact (ih hrest).trans (of_edited hedited.symm)

/-- A script goes through on other words if each of its edits does. -/
theorem map {f : List α → List α} (hf : ∀ {as bs : List α}, Edited as bs → Edited (f as) (f bs)) {n : Nat}
    {as bs : List α} (h : TurnsBy n as bs) : TurnsBy n (f as) (f bs) := by
  induction n generalizing as with
  | zero => exact zero_iff.mpr (congrArg f (zero_iff.mp h))
  | succ n ih =>
      obtain ⟨mid, hedited, hrest⟩ := succ_iff.mp h
      exact succ_iff.mpr ⟨f mid, hf hedited, ih hrest⟩

theorem cons (c : α) {n : Nat} {as bs : List α} (h : TurnsBy n as bs) : TurnsBy n (c :: as) (c :: bs) :=
  h.map (f := (c :: ·)) (Edited.cons c)

theorem reverse_iff {n : Nat} {as bs : List α} : TurnsBy n as.reverse bs.reverse ↔ TurnsBy n as bs := by
  refine ⟨fun h => ?_, fun h => h.map Edited.reverse⟩
  simpa only [List.reverse_reverse] using h.map Edited.reverse

theorem length_le {n : Nat} {as bs : List α} (h : TurnsBy n as bs) : as.length ≤ bs.length + n := by
  induction n generalizing as with
  | zero => exact (congrArg List.length (zero_iff.mp h)).le
  | succ n ih =>
      obtain ⟨mid, hedited, hrest⟩ := succ_iff.mp h
      have hfirst := hedited.length_le
      have hothers := ih hrest
      omega

/-- A word is written by as many insertions as it has characters. -/
theorem of_nil (bs : List α) : TurnsBy bs.length [] bs := by
  induction bs with
  | nil => exact zero_iff.mpr rfl
  | cons b bs ih => exact ih.trans (of_edited (.insert b bs))

end TurnsBy

/-! ## The cost of turning one word into another -/

section Distance
variable [DecidableEq α]

/-- The edits on a shortest way from one word to another, told from their first characters. -/
def editCost : List α → List α → Nat
  | [], bs => bs.length
  | a :: as, [] => as.length + 1
  | a :: as, b :: bs =>
      min (min (editCost (a :: as) bs + 1) (editCost as (b :: bs) + 1)) (editCost as bs + if a = b then 0 else 1)
termination_by as bs => as.length + bs.length

theorem editCost_nil_left (bs : List α) : editCost [] bs = bs.length := by rw [editCost]

theorem editCost_nil_right (as : List α) : editCost as [] = as.length := by cases as <;> simp [editCost]

theorem editCost_cons_cons (a b : α) (as bs : List α) : editCost (a :: as) (b :: bs) =
    min (min (editCost (a :: as) bs + 1) (editCost as (b :: bs) + 1)) (editCost as bs + if a = b then 0 else 1) := by
  rw [editCost]

theorem editCost_cons_right_le (as : List α) (b : α) (bs : List α) : editCost as (b :: bs) ≤ editCost as bs + 1 := by
  cases as with
  | nil => rw [editCost_nil_left, editCost_nil_left, List.length_cons]
  | cons a as =>
      rw [editCost_cons_cons]
      omega

theorem editCost_cons_left_le (a : α) (as bs : List α) : editCost (a :: as) bs ≤ editCost as bs + 1 := by
  cases bs with
  | nil => rw [editCost_nil_right, editCost_nil_right, List.length_cons]
  | cons b bs =>
      rw [editCost_cons_cons]
      omega

theorem editCost_self (as : List α) : editCost as as = 0 := by
  induction as with
  | nil => exact editCost_nil_left []
  | cons a as ih =>
      rw [editCost_cons_cons, ih, if_pos rfl]
      omega

theorem editCost_le_max (as bs : List α) : editCost as bs ≤ max as.length bs.length := by
  induction as generalizing bs with
  | nil =>
      rw [editCost_nil_left]
      exact le_max_right _ _
  | cons a as ih =>
      cases bs with
      | nil =>
          rw [editCost_nil_right]
          exact le_max_left _ _
      | cons b bs =>
          have hstep := ih bs
          rw [editCost_cons_cons, List.length_cons, List.length_cons]
          split <;> omega

/-- A script of that length: it follows the smallest of the three numbers that `editCost` compares. -/
theorem turnsBy_editCost (as bs : List α) : TurnsBy (editCost as bs) as bs := by
  fun_induction editCost as bs with
  | case1 bs => exact TurnsBy.of_nil bs
  | case2 a as => exact (TurnsBy.of_nil (a :: as)).symm
  | case3 a as b bs ihinsert ihdelete ihsubstitute =>
      have hinsert : TurnsBy (editCost (a :: as) bs + 1) (a :: as) (b :: bs) :=
        ihinsert.trans (.of_edited (.insert b bs))
      have hdelete : TurnsBy (editCost as (b :: bs) + 1) (a :: as) (b :: bs) := by
        rw [Nat.add_comm]
        exact (TurnsBy.of_edited (Edited.insert a as).symm).trans ihdelete
      have hsubstitute : TurnsBy (editCost as bs + if a = b then 0 else 1) (a :: as) (b :: bs) := by
        split
        · rename_i hsame
          subst hsame
          exact ihsubstitute.cons a
        · exact (ihsubstitute.cons a).trans (.of_edited (.substitute a b bs))
      have heither := min_rec' (TurnsBy · (a :: as) (b :: bs)) hinsert hdelete
      exact min_rec' (TurnsBy · (a :: as) (b :: bs)) heither hsubstitute

/-- Words whose rests cost nearly the same cost nearly the same; where the rests are as good as each other, their
first characters may even differ. -/
theorem editCost_cons_le {a b : α} {as bs : List α}
    (h : ∀ cs, editCost as cs + (if a = b then 0 else 1) ≤ editCost bs cs + 1) (cs : List α) :
    editCost (a :: as) cs ≤ editCost (b :: bs) cs + 1 := by
  induction cs with
  | nil =>
      have hnil := h []
      rw [editCost_nil_right, editCost_nil_right] at hnil ⊢
      simp only [List.length_cons]
      omega
  | cons c cs ih =>
      have hshort := h cs
      have hlong := h (c :: cs)
      have hequal : (if a = c then 0 else 1) ≤ (if a = b then 0 else 1) + if b = c then 0 else 1 := by grind
      -- Of the three numbers compared, the first is bounded by induction and the others by the costs of the rests.
      rw [editCost_cons_cons, editCost_cons_cons]
      omega

theorem editCost_le_cons (b : α) (as cs : List α) : editCost as cs ≤ editCost (b :: as) cs + 1 := by
  induction cs with
  | nil =>
      rw [editCost_nil_right, editCost_nil_right, List.length_cons]
      omega
  | cons c cs ih =>
      have hright := editCost_cons_right_le as c cs
      rw [editCost_cons_cons]
      omega

/-- One edit brings a word nearer to another by one at most. -/
theorem Edited.editCost_le {as bs : List α} (h : Edited as bs) (cs : List α) : editCost as cs ≤ editCost bs cs + 1 := by
  obtain ⟨front, back, old, new, -, rfl, rfl⟩ := h
  induction front generalizing cs with
  | cons c front ih => exact editCost_cons_le (fun cs => by simpa using ih cs) cs
  | nil =>
      cases old with
      | none =>
          cases new with
          | none => exact Nat.le_succ _
          | some b => exact editCost_le_cons b back cs
      | some a =>
          cases new with
          | none => exact editCost_cons_left_le a back cs
          | some b => exact editCost_cons_le (fun cs => by split <;> omega) cs

theorem TurnsBy.editCost_le {n : Nat} {as bs : List α} (h : TurnsBy n as bs) : editCost as bs ≤ n := by
  induction n generalizing as with
  | zero =>
      obtain rfl := zero_iff.mp h
      exact (editCost_self as).le
  | succ n ih =>
      obtain ⟨mid, hedited, hrest⟩ := succ_iff.mp h
      exact (hedited.editCost_le bs).trans (Nat.succ_le_succ (ih hrest))

theorem isLeast_editCost (as bs : List α) : IsLeast {n | TurnsBy n as bs} (editCost as bs) :=
  ⟨turnsBy_editCost as bs, fun _ h => h.editCost_le⟩

theorem editCost_reverse (as bs : List α) : editCost as.reverse bs.reverse = editCost as bs := by
  have hleast := isLeast_editCost as.reverse bs.reverse
  simp only [TurnsBy.reverse_iff] at hleast
  exact hleast.unique (isLeast_editCost as bs)

theorem editCost_comm (as bs : List α) : editCost as bs = editCost bs as :=
  le_antisymm (turnsBy_editCost bs as).symm.editCost_le (turnsBy_editCost as bs).symm.editCost_le

theorem editCost_eq_zero_iff {as bs : List α} : editCost as bs = 0 ↔ as = bs := by
  constructor
  · intro hzero
    exact TurnsBy.zero_iff.mp (hzero ▸ turnsBy_editCost as bs)
  · rintro rfl
    exact editCost_self as

theorem editCost_triangle (as bs cs : List α) : editCost as cs ≤ editCost as bs + editCost bs cs :=
  ((turnsBy_editCost as bs).trans (turnsBy_editCost bs cs)).editCost_le

theorem length_difference_le_editCost (as bs : List α) : ((as.length : Int) - bs.length).natAbs ≤ editCost as bs := by
  have hshrunk := (turnsBy_editCost as bs).length_le
  have hgrown := (turnsBy_editCost as bs).symm.length_le
  omega

/-! ## Rows -/

/-- The costs between `word` and all that a second word grows to.  So far `read` is read of it, with the last
character first; `rest` is to come. -/
def costRow (word : List α) : List α → List α → List Nat
  | read, [] => [editCost word read]
  | read, b :: rest => editCost word read :: costRow word (b :: read) rest

theorem costRow_eq_cons (word read rest : List α) :
    costRow word read rest = editCost word read :: (costRow word read rest).tail := by
  cases rest <;> rfl

theorem getLastD_costRow (word read rest : List α) :
    (costRow word read rest).getLastD 0 = editCost word (rest.reverse ++ read) := by
  induction rest generalizing read with
  | nil => rfl
  | cons b rest ih =>
      rw [List.reverse_cons, List.append_assoc, List.singleton_append, ← ih, costRow,
        costRow_eq_cons word (b :: read) rest]
      rfl

/-- While nothing is read of the first word, the costs are those of writing the second one. -/
theorem costRow_nil (read rest : List α) : costRow [] read rest = List.range' read.length (rest.length + 1) := by
  induction rest generalizing read with
  | nil => rw [costRow, editCost_nil_left, List.length_nil, List.range'_one]
  | cons b rest ih => rw [costRow, ih, editCost_nil_left, List.length_cons, List.length_cons, ← List.range'_succ]

/-- An entry is the least of three numbers that stand to its left, above it and above the entry to its left; these are
the costs between shorter words that `editCost` compares. -/
theorem nextRow_costRow (a : α) (word read rest : List α) :
    nextRow a rest (costRow word read rest) (editCost (a :: word) read) = (costRow (a :: word) read rest).tail := by
  induction rest generalizing read with
  | nil => rfl
  | cons b rest ih =>
      have hentry : min (min (editCost (a :: word) read + 1) (editCost word (b :: read) + 1))
          (editCost word read + if a = b then 0 else 1) = editCost (a :: word) (b :: read) :=
        (editCost_cons_cons a b word read).symm
      rw [costRow, costRow, costRow_eq_cons word, nextRow, hentry, ← costRow_eq_cons, ih, List.tail_cons,
        ← costRow_eq_cons]

theorem rowBelow_costRow (a : α) (word rest : List α) :
    rowBelow rest (word.length + 1) (costRow word [] rest) a = costRow (a :: word) [] rest := by
  have hleft : word.length + 1 = editCost (a :: word) [] := by rw [editCost_nil_right, List.length_cons]
  rw [rowBelow, hleft, nextRow_costRow, ← costRow_eq_cons]

/-- After each character of the first word, the row holds the costs of what is read of it. -/
theorem lastRow_costRow (bs word as : List α) :
    lastRow bs (word.length + 1) (costRow word [] bs) as = costRow (as.reverse ++ word) [] bs := by
  induction as generalizing word with
  | nil => rfl
  | cons a as ih =>
      rw [lastRow, rowBelow_costRow, List.reverse_cons, List.append_assoc, List.singleton_append]
      exact ih (a :: word)

theorem distanceToShorter_eq (as bs : List α) : distanceToShorter as bs = editCost as bs := by
  have hfirst : List.range (bs.length + 1) = costRow [] [] bs := by
    rw [costRow_nil, List.range_eq_range', List.length_nil]
  have hlast : lastRow bs 1 (costRow [] [] bs) as = costRow as.reverse [] bs := by
    simpa only [List.length_nil, Nat.zero_add, List.append_nil] using lastRow_costRow bs [] as
  rw [distanceToShorter, hfirst, hlast, getLastD_costRow, List.append_nil, editCost_reverse]

/-- Which of the words spans the rows makes no difference. -/
theorem distance_eq (as bs : List α) : distance as bs = editCost as bs := by
  unfold distance
  split
  · rw [distanceToShorter_eq, editCost_comm]
  · exact distanceToShorter_eq as bs

end Distance

end Name

/-! ## Shares of one -/

namespace Binary64

/-- From zero to one, in the order of the numbers.  NaN, which that order leaves out, is no share. -/
def IsShare (x : Binary64) : Prop := x ≠ .nan ∧ x.lt .zero = false ∧ (ofInt 1).lt x = false

theorem one_eq : ofInt 1 = .finite false (powerOfTwo 52) (-(52 : Nat) : Int) := by decide +kernel

theorem isShare_fraction {m t : Nat} (h : m ≤ powerOfTwo t) : IsShare (.finite false m (-(t : Int))) := by
  have hzero : zero = .finite false 0 (-(1074 : Nat) : Int) := rfl
  refine ⟨nofun, ?_, ?_⟩
  · rw [hzero, lt, quotient_fraction, quotient_fraction]
    have hle : ((0 : Nat) : Int) * powerOfTwo t ≤ m * powerOfTwo 1074 := by
      rw [Int.natCast_zero, Int.zero_mul]
      exact Int.mul_nonneg (Int.natCast_nonneg m) (Int.natCast_nonneg _)
    exact decide_eq_false (not_lt.mpr hle)
  · rw [one_eq, lt, quotient_fraction, quotient_fraction]
    have hle : (m : Int) * powerOfTwo 52 ≤ powerOfTwo 52 * powerOfTwo t := by
      rw [Int.mul_comm]
      exact_mod_cast Nat.mul_le_mul_left _ h
    exact decide_eq_false (not_lt.mpr hle)

/-- A part of a whole is rounded to a binary fraction, and to 52 places of it at least. -/
theorem exponentFor_part {num den : Nat} (hnum : 0 < num) (hden : 0 < den) (h : num ≤ den) :
    ∃ t : Nat, exponentFor num den = -(t : Int) ∧ 52 ≤ t := by
  obtain ⟨e, hexponent, hlow, -⟩ := exponentFor_spec hnum hden
  have hpart : (num : ℚ) / den ≤ 1 := by
    rw [div_le_one (by exact_mod_cast hden)]
    exact_mod_cast h
  have hunit : (2 : ℚ) ^ e ≤ 2 ^ (-52 : Int) := by
    have hone : (2 : ℚ) ^ 52 * 2 ^ (-52 : Int) = 1 := by norm_num
    have hle : (2 : ℚ) ^ 52 * 2 ^ e ≤ 2 ^ 52 * 2 ^ (-52 : Int) := by
      rw [hone]
      exact hlow.trans hpart
    exact le_of_mul_le_mul_left hle (by norm_num)
  have he : e ≤ -52 := (zpow_le_zpow_iff_right₀ (by norm_num)).mp hunit
  refine ⟨(-exponentFor num den).toNat, ?_, ?_⟩
  · rw [hexponent, leastExponent]
    omega
  · rw [hexponent, leastExponent]
    omega

/-- A part of a whole is no more than one, and rounding does not take it beyond: one is itself a binary fraction of
as many places as the part is rounded to. -/
theorem ofRatio_fraction (negative : Bool) {num den : Nat} (hden : 0 < den) (h : num ≤ den) :
    ∃ m t : Nat, ofRatio negative num den = .finite negative m (-(t : Int)) ∧ m ≤ powerOfTwo t := by
  rcases Nat.eq_zero_or_pos num with rfl | hnum
  · exact ⟨0, 1074, rfl, Nat.zero_le _⟩
  obtain ⟨t, ht, hplaces⟩ := exponentFor_part hnum hden h
  have hround : roundQuotient (num * powerOfTwo t) den ≤ powerOfTwo t := by
    apply roundQuotient_le hden
    rw [Nat.mul_comm]
    exact Nat.mul_le_mul_left _ h
  rw [ofRatio_places negative hnum.ne' ht]
  split
  · rename_i hcarry
    have hmore : 53 ≤ t := (Nat.pow_le_pow_iff_right (by decide)).mp (hcarry.symm.le.trans hround)
    refine ⟨powerOfTwo 52, t - 1, ?_, Nat.pow_le_pow_right (by decide) (by omega)⟩
    exact congrArg (finite negative (powerOfTwo 52)) (by omega)
  · exact ⟨_, t, rfl, hround⟩

/-- What one leaves of a share is a share. -/
theorem isShare_sub_fraction {m t : Nat} (h : m ≤ powerOfTwo t) :
    IsShare ((ofInt 1).sub (.finite false m (-(t : Int)))) := by
  obtain ⟨rest, hrest⟩ := Nat.exists_eq_add_of_le h
  have hnum : (powerOfTwo 52 : Int) * powerOfTwo t + -(m : Int) * powerOfTwo 52 = (rest * powerOfTwo 52 : Nat) := by
    rw [hrest]
    push_cast
    ring
  have hle : rest * powerOfTwo 52 ≤ powerOfTwo 52 * powerOfTwo t := by
    rw [hrest, Nat.mul_comm]
    exact Nat.mul_le_mul_left _ (Nat.le_add_left rest m)
  rw [one_eq, sub, neg, add, quotient_fraction, quotient_fraction]
  simp only [Bool.not_false, Bool.false_eq_true, if_false, if_true, hnum]
  rw [ofQuotient]
  split
  · exact isShare_fraction (t := 1074) (Nat.zero_le _)
  · rw [decide_eq_false (by omega), Int.natAbs_natCast]
    obtain ⟨k, u, hround, hk⟩ := ofRatio_fraction false (Nat.mul_pos (powerOfTwo_pos 52) (powerOfTwo_pos t)) hle
    rw [hround]
    exact isShare_fraction hk

end Binary64

namespace Name

/-! ## Similarity -/

theorem isShare_similarity (s t : String) : (similarity s t).IsShare := by
  unfold similarity
  dsimp only
  split
  · exact Binary64.isShare_fraction (t := 1074) (Nat.zero_le _)
  · rename_i hlongest
    have hpart : distance (folded s) (folded t) ≤ max (folded s).length (folded t).length := by
      rw [distance_eq]
      exact editCost_le_max _ _
    obtain ⟨m, places, hratio, hm⟩ := Binary64.ofRatio_fraction false (Nat.pos_of_ne_zero hlongest) hpart
    rw [hratio]
    exact Binary64.isShare_sub_fraction hm

/-! ## The laws of the distance -/

/-- The distance is the least number of edits that turn one word into the other, with the laws of a distance: it is
zero between equal words only, the same in both directions, no longer than by way of a third word, and between the
difference and the maximum of the lengths.  The similarity made of it lies between zero and one. -/
theorem distance_counts_edits {α : Type} [DecidableEq α] (as bs cs : List α) (s t : String) :
    IsLeast {n | TurnsBy n as bs} (distance as bs) ∧
      (distance as bs = 0 ↔ as = bs) ∧
      distance as bs = distance bs as ∧
      distance as cs ≤ distance as bs + distance bs cs ∧
      ((as.length : Int) - bs.length).natAbs ≤ distance as bs ∧
      distance as bs ≤ max as.length bs.length ∧
      (similarity s t).IsShare := by
  simp only [distance_eq]
  exact ⟨isLeast_editCost as bs, editCost_eq_zero_iff, editCost_comm as bs, editCost_triangle as bs cs,
    length_difference_le_editCost as bs, editCost_le_max as bs, isShare_similarity s t⟩

example : distance "kitten".toList "sitting".toList = 3 := by decide

end Name

end TableSteward

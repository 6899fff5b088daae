import Mathlib.Data.List.Forall2
import TableSteward.Text.Case

/-!
# Words in any letter case

When a text in lower case is a word of plain letters, the text itself is that word with some of its letters in upper
case.  Only the letter `k` has an upper case outside ASCII, the sign of the kelvin; no other letter beyond ASCII comes
down to a plain one.
-/
set_option autoImplicit false

namespace TableSteward.Text

/-- The letters of ASCII that come from ASCII letters only. -/
def plainLetters : List Char := "abcdefghijlmnopqrstuvwxyz".toList

/-- A letter in lower or in upper case. -/
def IsCaseOf (letter c : Char) : Prop := c = letter ∨ c = letter.toUpper

def InAnyCase (word text : List Char) : Prop := List.Forall₂ IsCaseOf word text

theorem toLower_eq_iff {w : Char} (hw : w ∈ plainLetters) {n : Nat} (hn : n < 0x80) :
    (Char.ofNat n).toLower = w ↔ Char.ofNat n = w ∨ Char.ofNat n = w.toUpper := by
  have hall : (plainLetters.all fun w => (List.range 0x80).all fun n =>
      ((Char.ofNat n).toLower == w) == (Char.ofNat n == w || Char.ofNat n == w.toUpper)) = true := by decide +kernel
  have hn := List.all_eq_true.mp (List.all_eq_true.mp hall w hw) n (List.mem_range.mpr hn)
  rw [beq_iff_eq, Bool.eq_iff_iff] at hn
  simpa only [beq_iff_eq, Bool.or_eq_true] using hn

theorem toNat_of_mem_plainLetters {w : Char} (hw : w ∈ plainLetters) :
    0x41 ≤ w.toUpper.toNat ∧ w.toUpper.toNat ≤ w.toNat ∧ w.toNat < 0x80 ∧ w ≠ 'k' := by
  have hall : (plainLetters.all fun w =>
      0x41 ≤ w.toUpper.toNat && w.toUpper.toNat ≤ w.toNat && w.toNat < 0x80 && w != 'k') = true := by decide +kernel
  have hw := List.all_eq_true.mp hall w hw
  simpa only [Bool.and_eq_true, decide_eq_true_eq, bne_iff_ne, and_assoc] using hw

/-- No run of letters beyond ASCII ends among the letters of ASCII, but for the sign of the kelvin. -/
theorem shift_of_mem_lowerRuns : ∀ run ∈ lowerRuns, run = (0x212A, 0x212A, 1, -8383) ∨
    (0x80 : Int) ≤ run.1 + run.2.2.2 := by
  decide +kernel

theorem mapRun?_lowerRuns {n m : Nat} (h : mapRun? lowerRuns n = some m) : m = 'k'.toNat ∨ 0x80 ≤ m := by
  unfold mapRun? at h
  obtain ⟨⟨first, last, step, shift⟩, hfound, hm⟩ := Option.map_eq_some_iff.mp h
  obtain rfl : ((n : Int) + shift).toNat = m := hm
  have hrun := Array.find?_some hfound
  have hbounds : first ≤ n ∧ n ≤ last := by
    simp only [Bool.and_eq_true, decide_eq_true_eq] at hrun
    exact hrun.1
  rcases shift_of_mem_lowerRuns _ (Array.mem_of_find?_eq_some hfound) with hkelvin | hbeyond
  · cases hkelvin
    obtain rfl : n = 0x212A := by omega
    exact .inl rfl
  · simp only at hbeyond
    exact .inr (by omega)

theorem toNat_ofNat {n : Nat} : (Char.ofNat n).toNat = n ∨ (Char.ofNat n).toNat = 0 := by
  by_cases h : n.isValidChar
  · rw [Char.ofNat, dif_pos h]
    exact .inl rfl
  · rw [Char.ofNat, dif_neg h]
    exact .inr rfl

theorem lowerChar_eq_iff {w : Char} (hw : w ∈ plainLetters) (c : Char) :
    lowerChar c = w ↔ c = w ∨ c = w.toUpper := by
  obtain ⟨hpos, hupper, hascii, hk⟩ := toNat_of_mem_plainLetters hw
  unfold lowerChar
  by_cases hc : c.toNat < 0x80
  · rw [if_pos hc]
    have hiff := toLower_eq_iff hw hc
    rwa [Char.ofNat_toNat] at hiff
  · rw [if_neg hc]
    constructor
    · intro h
      exfalso
      cases hmapped : mapRun? lowerRuns c.toNat with
      | none =>
          rw [hmapped] at h
          obtain rfl : c = w := h
          exact hc hascii
      | some m =>
          rw [hmapped] at h
          obtain rfl : Char.ofNat m = w := h
          rcases mapRun?_lowerRuns hmapped with rfl | hbeyond
          · exact hk rfl
          · rcases toNat_ofNat (n := m) with hsame | hzero <;> omega
    · rintro (rfl | rfl) <;> omega

theorem lowerFrom_eq_iff {word : List Char} (hword : ∀ w ∈ word, w ∈ plainLetters) (before text : List Char) :
    lowerFrom before text = word ↔ InAnyCase word text := by
  induction text generalizing before word with
  | nil =>
      unfold InAnyCase
      rw [lowerFrom, List.forall₂_nil_right_iff]
      exact eq_comm
  | cons c rest ih =>
      cases word with
      | nil =>
          refine ⟨fun h => ?_, fun h => (nomatch h)⟩
          rw [lowerFrom] at h
          split at h
          · exact nomatch h
          · split at h <;> exact nomatch h
      | cons w ws =>
          have hw := hword w List.mem_cons_self
          have hws : ∀ v ∈ ws, v ∈ plainLetters := fun v hv => hword v (List.mem_cons_of_mem w hv)
          have hascii := toNat_of_mem_plainLetters hw
          have hbeyond : 0x80 ≤ c.toNat → ¬ InAnyCase (w :: ws) (c :: rest) := by
            rintro hc (_ | ⟨rfl | rfl, -⟩) <;> omega
          rw [lowerFrom]
          by_cases hdotted : c.toNat = 0x130
          · rw [if_pos (by simpa using hdotted)]
            refine ⟨fun h => ?_, fun h => absurd h (hbeyond (by omega))⟩
            obtain ⟨-, h⟩ := List.cons.inj h
            have hdot : Char.ofNat 0x307 ∈ ws := h ▸ List.mem_cons_self
            exact absurd (hws _ hdot) (by decide)
          rw [if_neg (by simpa using hdotted)]
          by_cases hsigma : c.toNat = 0x3A3
          · rw [if_pos (by simpa using hsigma)]
            refine ⟨fun h => ?_, fun h => absurd h (hbeyond (by omega))⟩
            obtain ⟨rfl, -⟩ := List.cons.inj h
            split at hw <;> exact absurd hw (by decide)
          rw [if_neg (by simpa using hsigma), List.singleton_append, List.cons.injEq, lowerChar_eq_iff hw,
            ih hws]
          exact (List.forall₂_cons (R := IsCaseOf)).symm

theorem lower_eq_iff {word text : String} (hword : word.toList.all plainLetters.contains = true) :
    lower text = word ↔ InAnyCase word.toList text.toList := by
  have hword : ∀ w ∈ word.toList, w ∈ plainLetters := by simpa using hword
  rw [← lowerFrom_eq_iff hword [], lower, ← String.toList_inj, String.toList_ofList]

end TableSteward.Text

import Mathlib.Algebra.Order.Field.Power
import Mathlib.Data.Rat.Cast.Order
import Mathlib.Tactic.FieldSimp
import Mathlib.Tactic.Linarith
import Mathlib.Tactic.NormNum
import Mathlib.Tactic.Positivity
import Mathlib.Tactic.Ring
import TableSteward.Number.Shortest

/-!
# Rounding to a binary64 number

The rationals that round to a finite number are those of its neighbourhood, whose ends belong to it when the
significand is even.  `ofRatio_of_has` says that a quotient from there becomes the number, whatever its numerator
and denominator are.
-/
set_option autoImplicit false

namespace TableSteward.Binary64

/-- The form in which a finite number is kept: only numbers with the least exponent have a small significand. -/
def IsCanonical : Binary64 → Prop
  | .finite _ m e => leastExponent ≤ e ∧ e ≤ greatestExponent ∧ m < 2 ^ 53 ∧ (m < 2 ^ 52 → e = leastExponent)
  | _ => True

instance : DecidablePred IsCanonical := fun x =>
  match x with
  | .nan => inferInstanceAs (Decidable True)
  | .infinite _ => inferInstanceAs (Decidable True)
  | .finite _ m e => inferInstanceAs
      (Decidable (leastExponent ≤ e ∧ e ≤ greatestExponent ∧ m < 2 ^ 53 ∧ (m < 2 ^ 52 → e = leastExponent)))

/-! ## Powers of two -/

theorem two_zpow_pos (e : Int) : (0 : ℚ) < 2 ^ e := zpow_pos (by norm_num) e

theorem two_zpow_succ (e : Int) : (2 : ℚ) ^ (e + 1) = 2 * 2 ^ e := by
  rw [zpow_add₀ (by norm_num), zpow_one, mul_comm]

theorem cast_powerOfTwo (k : Nat) : ((powerOfTwo k : Nat) : ℚ) = 2 ^ k := by
  rw [powerOfTwo]
  exact_mod_cast rfl

theorem cast_powerOfTen (k : Nat) : ((powerOfTen k : Nat) : ℚ) = 10 ^ k := by
  rw [powerOfTen]
  exact_mod_cast rfl

theorem powerOfTwo_pos (k : Nat) : 0 < powerOfTwo k := Nat.pow_pos (by norm_num)

theorem powerOfTen_pos (k : Nat) : 0 < powerOfTen k := Nat.pow_pos (by norm_num)

theorem cast_power_toNat {b : ℚ} {e : Int} (he : 0 ≤ e) : b ^ e.toNat = b ^ e := by
  obtain ⟨n, rfl⟩ := Int.eq_ofNat_of_zero_le he
  exact (zpow_natCast b n).symm

/-- A number between two neighbouring powers of two has its exponent from there. -/
theorem exponent_unique {v : ℚ} {c : ℚ} (hc : 0 < c) {e f : Int} (he : c * 2 ^ e ≤ v)
    (hf : v < c * 2 ^ (f + 1)) : e ≤ f := by
  have hlt : (2 : ℚ) ^ e < 2 ^ (f + 1) := lt_of_mul_lt_mul_left (lt_of_le_of_lt he hf) hc.le
  have hexp := (zpow_lt_zpow_iff_right₀ (by norm_num : (1 : ℚ) < 2)).mp hlt
  omega

/-! ## Rounding to an integer -/

/-- The rationals that round to an integer, ties to even. -/
def Rounds (x : ℚ) (m : Nat) : Prop :=
  ((m : ℚ) - 1 / 2 < x ∧ x < m + 1 / 2) ∨ (m % 2 = 0 ∧ (m : ℚ) - 1 / 2 ≤ x ∧ x ≤ m + 1 / 2)

theorem roundQuotient_of_rounds {a b m : Nat} (hb : 0 < b) (h : Rounds ((a : ℚ) / b) m) :
    roundQuotient a b = m := by
  have hb' : (0 : ℚ) < b := by exact_mod_cast hb
  have hdiv := Nat.div_add_mod a b
  have hmod := Nat.mod_lt a hb
  have hbounds : 2 * m * b ≤ 2 * a + b ∧ 2 * a ≤ (2 * m + 1) * b ∧
      (m % 2 = 0 ∨ (2 * m * b < 2 * a + b ∧ 2 * a < (2 * m + 1) * b)) := by
    rcases h with ⟨hlow, hhigh⟩ | ⟨heven, hlow, hhigh⟩
    · rw [lt_div_iff₀ hb'] at hlow
      rw [div_lt_iff₀ hb'] at hhigh
      have hlow' : 2 * m * b < 2 * a + b := by
        have : (2 * m * b : ℚ) < 2 * a + b := by linarith
        exact_mod_cast this
      have hhigh' : 2 * a < (2 * m + 1) * b := by
        have : (2 * a : ℚ) < (2 * m + 1) * b := by linarith
        exact_mod_cast this
      exact ⟨hlow'.le, hhigh'.le, .inr ⟨hlow', hhigh'⟩⟩
    · rw [le_div_iff₀ hb'] at hlow
      rw [div_le_iff₀ hb'] at hhigh
      have hlow' : 2 * m * b ≤ 2 * a + b := by
        have : (2 * m * b : ℚ) ≤ 2 * a + b := by linarith
        exact_mod_cast this
      have hhigh' : 2 * a ≤ (2 * m + 1) * b := by
        have : (2 * a : ℚ) ≤ (2 * m + 1) * b := by linarith
        exact_mod_cast this
      exact ⟨hlow', hhigh', .inl heven⟩
  obtain ⟨hlow, hhigh, htie⟩ := hbounds
  -- the quotient is the integer or the one before it
  have hle : a / b ≤ m := by
    by_contra hgt
    have hmul : (m + 1) * b ≤ a / b * b := Nat.mul_le_mul_right b (by omega)
    have hself := Nat.div_mul_le_self a b
    linarith
  have hge : m ≤ a / b + 1 := by
    by_contra hlt
    have : (a / b + 2) * b ≤ m * b := Nat.mul_le_mul_right b (by omega)
    nlinarith
  rw [roundQuotient]
  rcases Nat.lt_or_ge (a / b) m with hlt | heq
  · have hq : m = a / b + 1 := by omega
    subst hq
    have hr : b ≤ 2 * (a % b) := by nlinarith
    rw [if_neg (by omega)]
    by_cases hbeyond : b < 2 * (a % b)
    · rw [if_pos hbeyond]
    · have heven : (a / b + 1) % 2 = 0 := by
        rcases htie with heven | ⟨hlow', -⟩
        · exact heven
        · exfalso
          nlinarith
      rw [if_neg hbeyond, if_neg]
      rw [beq_iff_eq]
      omega
  · have hq : a / b = m := by omega
    rw [hq] at hdiv ⊢
    have hr : 2 * (a % b) ≤ b := by nlinarith
    by_cases hbelow : 2 * (a % b) < b
    · rw [if_pos hbelow]
    · have heven : m % 2 = 0 := by
        rcases htie with heven | ⟨-, hhigh'⟩
        · exact heven
        · exfalso
          nlinarith
      rw [if_neg hbelow, if_neg (by omega), if_pos (by rw [beq_iff_eq]; exact heven)]

theorem scaleRound_of_rounds {num den m : Nat} (hden : 0 < den) {e : Int}
    (h : Rounds ((num : ℚ) / den / 2 ^ e) m) : scaleRound num den e = m := by
  rw [scaleRound]
  split
  · rename_i he
    apply roundQuotient_of_rounds (Nat.mul_pos hden (powerOfTwo_pos _))
    rw [Nat.cast_mul, cast_powerOfTwo, cast_power_toNat he, ← div_div]
    exact h
  · rename_i he
    apply roundQuotient_of_rounds hden
    have hinv : (2 : ℚ) ^ (-e) = (2 ^ e)⁻¹ := zpow_neg 2 e
    rw [Nat.cast_mul, cast_powerOfTwo, cast_power_toNat (by omega), hinv, mul_div_right_comm]
    rw [div_eq_mul_inv] at h
    exact h

/-! ## The exponent -/

/-- A quotient has an exponent with which its significand has 53 digits, and it is used unless it is too small. -/
theorem exponentFor_spec {num den : Nat} (hnum : 0 < num) (hden : 0 < den) :
    ∃ e, exponentFor num den = max leastExponent e ∧
      (2 : ℚ) ^ 52 * 2 ^ e ≤ (num : ℚ) / den ∧ (num : ℚ) / den < 2 ^ 52 * 2 ^ (e + 1) := by
  have hden' : (0 : ℚ) < den := by exact_mod_cast hden
  have hnum_low : (2 : ℚ) ^ (num.log2 : Int) ≤ num := by
    rw [zpow_natCast]
    exact_mod_cast Nat.log2_self_le hnum.ne'
  have hnum_high : (num : ℚ) < 2 ^ (num.log2 + 1 : Int) := by
    have : (num : ℚ) < 2 ^ (num.log2 + 1) := by exact_mod_cast Nat.lt_log2_self
    exact_mod_cast this
  have hden_low : (2 : ℚ) ^ (den.log2 : Int) ≤ den := by
    rw [zpow_natCast]
    exact_mod_cast Nat.log2_self_le hden.ne'
  have hden_high : (den : ℚ) < 2 ^ (den.log2 + 1 : Int) := by
    have : (den : ℚ) < 2 ^ (den.log2 + 1) := by exact_mod_cast Nat.lt_log2_self
    exact_mod_cast this
  obtain ⟨guess, hguess⟩ : ∃ guess : Int, guess = (num.log2 : Int) - (den.log2 : Int) - 52 := ⟨_, rfl⟩
  have hbelow : (if 0 ≤ guess then decide (num < den * powerOfTwo guess.toNat * powerOfTwo 52)
      else decide (num * powerOfTwo (-guess).toNat < den * powerOfTwo 52)) = true ↔
        (num : ℚ) / den < 2 ^ 52 * 2 ^ guess := by
    rw [div_lt_iff₀ hden']
    split
    · rename_i hpos
      rw [decide_eq_true_eq, ← Nat.cast_lt (α := ℚ), Nat.cast_mul, Nat.cast_mul, cast_powerOfTwo,
        cast_powerOfTwo, cast_power_toNat hpos]
      constructor <;> intro h <;> linarith
    · rename_i hneg
      have hinv : (2 : ℚ) ^ (-guess) * 2 ^ guess = 1 := by
        rw [← zpow_add₀ (by norm_num), neg_add_cancel, zpow_zero]
      rw [decide_eq_true_eq, ← Nat.cast_lt (α := ℚ), Nat.cast_mul, Nat.cast_mul, cast_powerOfTwo,
        cast_powerOfTwo, cast_power_toNat (by omega),
        ← mul_lt_mul_iff_left₀ (two_zpow_pos guess), mul_assoc, hinv, mul_one]
      constructor <;> intro h <;> linarith
  have hlow : (2 : ℚ) ^ 52 * 2 ^ (guess - 1) ≤ num / den := by
    rw [le_div_iff₀ hden']
    have hsplit : (2 : ℚ) ^ 52 * 2 ^ (guess - 1) * 2 ^ (den.log2 + 1 : Int) = 2 ^ (num.log2 : Int) := by
      rw [← zpow_natCast 2 52, ← zpow_add₀ (by norm_num), ← zpow_add₀ (by norm_num)]
      congr 1
      push_cast
      omega
    have := mul_le_mul_of_nonneg_left hden_high.le
      (mul_pos (by norm_num : (0 : ℚ) < 2 ^ 52) (two_zpow_pos (guess - 1))).le
    linarith
  have hhigh : (num : ℚ) / den < 2 ^ 52 * 2 ^ (guess + 1) := by
    rw [div_lt_iff₀ hden']
    have hsplit : (2 : ℚ) ^ 52 * 2 ^ (guess + 1) * 2 ^ (den.log2 : Int) = 2 ^ (num.log2 + 1 : Int) := by
      rw [← zpow_natCast 2 52, ← zpow_add₀ (by norm_num), ← zpow_add₀ (by norm_num)]
      congr 1
      push_cast
      omega
    have := mul_le_mul_of_nonneg_left hden_low
      (mul_pos (by norm_num : (0 : ℚ) < 2 ^ 52) (two_zpow_pos (guess + 1))).le
    linarith
  rw [exponentFor, ← hguess]
  by_cases h : (num : ℚ) / den < 2 ^ 52 * 2 ^ guess
  · refine ⟨guess - 1, ?_, hlow, ?_⟩
    · simp only [hbelow.mpr h, if_true]
    · rw [sub_add_cancel]
      exact h
  · refine ⟨guess, ?_, not_lt.mp h, hhigh⟩
    simp only [Bool.eq_false_iff.mpr (mt hbelow.mp h), Bool.false_eq_true, if_false]

/-! ## The neighbourhood of a number -/

namespace Neighbourhood

/-- The rationals of a neighbourhood. -/
def Has (n : Neighbourhood) (v : ℚ) : Prop :=
  (n.low * 2 ^ n.unit < v ∧ v < n.high * 2 ^ n.unit) ∨
    (n.closed = true ∧ n.low * 2 ^ n.unit ≤ v ∧ v ≤ n.high * 2 ^ n.unit)

theorem Has.bounds {n : Neighbourhood} {v : ℚ} (h : n.Has v) :
    n.low * 2 ^ n.unit ≤ v ∧ v ≤ n.high * 2 ^ n.unit := by
  rcases h with ⟨hlow, hhigh⟩ | ⟨-, hlow, hhigh⟩
  · exact ⟨hlow.le, hhigh.le⟩
  · exact ⟨hlow, hhigh⟩

end Neighbourhood

theorem unit_eq (e : Int) : (2 : ℚ) ^ (e - 2) = 2 ^ e / 4 := by
  rw [zpow_sub₀ (by norm_num)]
  norm_num

/-- In units of its last place, a neighbourhood reaches half a unit up and half a unit down, or a quarter if the
number is a power of two. -/
theorem has_iff {m : Nat} {e : Int} {v : ℚ} (hm : 0 < m) :
    (neighbourhood m e).Has v ↔
      let c : ℚ := if m = 2 ^ 52 ∧ leastExponent < e then 1 / 4 else 1 / 2
      ((m : ℚ) - c < v / 2 ^ e ∧ v / 2 ^ e < m + 1 / 2) ∨
        (m % 2 = 0 ∧ (m : ℚ) - c ≤ v / 2 ^ e ∧ v / 2 ^ e ≤ m + 1 / 2) := by
  have hpos := two_zpow_pos e
  have hlow : (((neighbourhood m e).low : Nat) : ℚ) * 2 ^ (e - 2) =
      ((m : ℚ) - (if m = 2 ^ 52 ∧ leastExponent < e then 1 / 4 else 1 / 2)) * 2 ^ e := by
    rw [unit_eq]
    simp only [neighbourhood, powerOfTwo, Bool.and_eq_true, beq_iff_eq, decide_eq_true_eq]
    have hpow : Nat.pow 2 52 = 2 ^ 52 := rfl
    rw [hpow]
    split
    · rw [Nat.cast_sub (by omega)]
      push_cast
      ring
    · rw [Nat.cast_sub (by omega)]
      push_cast
      ring
  have hhigh : (((neighbourhood m e).high : Nat) : ℚ) * 2 ^ (e - 2) = ((m : ℚ) + 1 / 2) * 2 ^ e := by
    rw [unit_eq]
    simp only [neighbourhood]
    push_cast
    ring
  have hunit : (neighbourhood m e).unit = e - 2 := rfl
  have hclosed : (neighbourhood m e).closed = true ↔ m % 2 = 0 := beq_iff_eq
  simp only [Neighbourhood.Has, hunit, hlow, hhigh, hclosed, lt_div_iff₀ hpos, div_lt_iff₀ hpos, le_div_iff₀ hpos,
    div_le_iff₀ hpos]

/-- A quotient from the neighbourhood of a number is rounded to this number. -/
theorem ofRatio_of_has {m : Nat} {e : Int} (negative : Bool) (hcanonical : IsCanonical (.finite negative m e))
    (hm : 0 < m) {num den : Nat} (hnum : 0 < num) (hden : 0 < den)
    (h : (neighbourhood m e).Has ((num : ℚ) / den)) : ofRatio negative num den = .finite negative m e := by
  obtain ⟨hleast, hgreatest, hsize, hsmall⟩ := hcanonical
  obtain ⟨f, hexponent, hlow, hhigh⟩ := exponentFor_spec hnum hden
  have hpos := two_zpow_pos e
  have hm' : (m : ℚ) ≤ 2 ^ 53 - 1 := by
    have : m + 1 ≤ 2 ^ 53 := hsize
    have : (m : ℚ) + 1 ≤ 2 ^ 53 := by exact_mod_cast this
    linarith
  rw [has_iff hm] at h
  simp only at h
  obtain ⟨x, hx⟩ : ∃ x : ℚ, x = (num : ℚ) / den / 2 ^ e := ⟨_, rfl⟩
  have hv : (num : ℚ) / den = x * 2 ^ e := by rw [hx, div_mul_cancel₀ _ hpos.ne']
  rw [← hx] at h
  rw [hv] at hlow hhigh
  have hupper : x ≤ m + 1 / 2 := by
    rcases h with ⟨-, h⟩ | ⟨-, -, h⟩
    · exact h.le
    · exact h
  have hrounds : Rounds x m := by
    have hc : (if m = 2 ^ 52 ∧ leastExponent < e then (1 / 4 : ℚ) else 1 / 2) ≤ 1 / 2 := by
      split <;> norm_num
    rcases h with ⟨hl, hh⟩ | ⟨heven, hl, hh⟩
    · exact .inl ⟨by linarith, hh⟩
    · exact .inr ⟨heven, by linarith, hh⟩
  have hplain : exponentFor num den = e → ofRatio negative num den = .finite negative m e := by
    intro heq
    have hscale : scaleRound num den e = m := by
      apply scaleRound_of_rounds hden
      rw [← hx]
      exact hrounds
    have hne : m ≠ powerOfTwo 53 := hsize.ne
    rw [ofRatio, if_neg hnum.ne']
    simp only [heq, hscale, if_neg hne, if_neg (not_lt.mpr hgreatest)]
  rcases le_or_gt ((2 : ℚ) ^ 52) x with hbig | hless
  · -- the significand has all its digits
    apply hplain
    have hfe : f ≤ e := by
      apply exponent_unique (c := 2 ^ 52) (by norm_num) hlow
      rw [two_zpow_succ]
      nlinarith
    have hef : e ≤ f := by
      apply exponent_unique (c := 2 ^ 52) (by norm_num) _ hhigh
      nlinarith
    omega
  · rcases eq_or_lt_of_le hleast with heq | hlt
    · -- a number with the least exponent
      apply hplain
      have hfe : f + 1 ≤ e := by
        apply exponent_unique (c := 2 ^ 51) (by norm_num) (v := x * 2 ^ e)
        · rw [two_zpow_succ]
          linarith
        · rw [two_zpow_succ]
          nlinarith
      omega
    · -- a quotient below a power of two is rounded up to it
      have hpower : m = 2 ^ 52 := by
        by_contra hne
        have hbig : 2 ^ 52 + 1 ≤ m := by
          by_contra hnot
          have := hsmall (by omega)
          omega
        have hbig' : (2 : ℚ) ^ 52 + 1 ≤ m := by exact_mod_cast hbig
        rcases hrounds with ⟨hl, -⟩ | ⟨-, hl, -⟩ <;> linarith
      have hlower : (2 : ℚ) ^ 52 - 1 / 4 ≤ x := by
        rw [if_pos ⟨hpower, hlt⟩, hpower] at h
        push_cast at h
        rcases h with ⟨hl, -⟩ | ⟨-, hl, -⟩
        · exact hl.le
        · exact hl
      have hhalf : (2 : ℚ) ^ e = 2 * 2 ^ (e - 1) := by
        rw [← two_zpow_succ, sub_add_cancel]
      have hf : f = e - 1 := by
        have hfe : f + 1 ≤ e := by
          apply exponent_unique (c := 2 ^ 51) (by norm_num) (v := x * 2 ^ e)
          · rw [two_zpow_succ]
            linarith
          · rw [two_zpow_succ]
            nlinarith
        have hef : e - 1 ≤ f := by
          apply exponent_unique (c := 2 ^ 52) (by norm_num) _ hhigh
          rw [hhalf]
          nlinarith [two_zpow_pos (e - 1)]
        omega
      have hexp : exponentFor num den = e - 1 := by omega
      have hscale : scaleRound num den (e - 1) = 2 ^ 53 := by
        apply scaleRound_of_rounds hden
        have hdouble : (num : ℚ) / den / 2 ^ (e - 1) = 2 * x := by
          rw [hv, hhalf]
          field_simp
        rw [hdouble]
        refine .inr ⟨by norm_num, ?_, ?_⟩
        · push_cast
          linarith
        · push_cast
          linarith
      have htop : (2 ^ 53 : Nat) = powerOfTwo 53 := rfl
      have hlast : powerOfTwo 52 = m := hpower.symm
      rw [ofRatio, if_neg hnum.ne']
      simp only [hexp, hscale, if_pos htop, hlast, sub_add_cancel, if_neg (not_lt.mpr hgreatest)]

end TableSteward.Binary64

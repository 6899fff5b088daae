import Mathlib.Tactic.Linarith
import Mathlib.Tactic.Ring
import TableSteward.Database.Page
import TableSteward.Proofs.Rounding

/-!
# The number of pages

Pages are counted in binary64 numbers: the quotient of the rows by the size of a page is rounded to one of them, and
that is rounded up.  For at most `2^53` rows this is the exact quotient, rounded up: the nearest number to a quotient
never passes a whole number, and it falls on the whole number below only if the rows are too many.
-/
set_option autoImplicit false

namespace TableSteward

namespace Binary64

/-! ## Rounding to whole numbers -/

theorem roundQuotient_le {num den k : Nat} (hden : 0 < den) (h : num ≤ k * den) :
    roundQuotient num den ≤ k := by
  have hdivision := Nat.div_add_mod num den
  have hquotient : num / den ≤ k := Nat.div_le_of_le_mul (by rwa [Nat.mul_comm] at h)
  unfold roundQuotient
  rcases Nat.lt_or_eq_of_le hquotient with hless | hequal
  · dsimp only
    split_ifs <;> omega
  · -- The quotient is whole, so that nothing is rounded.
    have hwhole : num % den = 0 := by
      rw [hequal, Nat.mul_comm] at hdivision
      omega
    rw [hwhole, if_pos (by omega)]
    exact hquotient

theorem lt_roundQuotient {num den k : Nat} (hden : 0 < den) (h : 2 * (k * den) + den < 2 * num) :
    k < roundQuotient num den := by
  have hdivision := Nat.div_add_mod num den
  have hquotient : k ≤ num / den := by
    rw [Nat.le_div_iff_mul_le hden]
    omega
  unfold roundQuotient
  rcases Nat.lt_or_eq_of_le hquotient with hless | hequal
  · dsimp only
    split_ifs <;> omega
  · have hrest : den < 2 * (num % den) := by
      rw [← hequal, Nat.mul_comm den] at hdivision
      omega
    rw [if_neg (by omega), if_pos hrest]
    omega

/-! ## Binary fractions -/

theorem magnitude_fraction (m t : Nat) : magnitude m (-(t : Int)) = (m, powerOfTwo t) := by
  unfold magnitude
  rcases Nat.eq_zero_or_pos t with rfl | hpos
  · rw [if_pos (by omega)]
    exact congrArg (·, 1) (Nat.mul_one m)
  · rw [if_neg (by omega), Int.neg_neg, Int.toNat_natCast]

theorem quotient_fraction (negative : Bool) (m t : Nat) :
    quotient negative m (-(t : Int)) = (if negative then -(m : Int) else m, powerOfTwo t) := by
  rw [quotient, magnitude_fraction]

theorem scaleRound_fraction (num den t : Nat) :
    scaleRound num den (-(t : Int)) = roundQuotient (num * powerOfTwo t) den := by
  unfold scaleRound
  rcases Nat.eq_zero_or_pos t with rfl | hpos
  · rw [if_pos (by omega)]
    simp [powerOfTwo]
  · rw [if_neg (by omega), Int.neg_neg, Int.toNat_natCast]

/-- A quotient that is rounded to a binary fraction of `t` places.  If its significand comes to have one digit more,
the last of them is dropped. -/
theorem ofRatio_places {num den t : Nat} (negative : Bool) (hnum : num ≠ 0)
    (ht : exponentFor num den = -(t : Int)) :
    ofRatio negative num den =
      if roundQuotient (num * powerOfTwo t) den = powerOfTwo 53
      then .finite negative (powerOfTwo 52) (-(t : Int) + 1)
      else .finite negative (roundQuotient (num * powerOfTwo t) den) (-(t : Int)) := by
  unfold ofRatio greatestExponent
  rw [if_neg hnum, ht]
  dsimp only
  rw [scaleRound_fraction]
  split
  · exact if_neg (by omega)
  · exact if_neg (by omega)

/-! ## Quotients of counts -/

/-- A quotient of few rows is rounded to a binary fraction that is fine enough to tell it from the whole number
below, unless it is a whole number itself or less than one. -/
theorem exponentFor_eq {n s : Nat} (hn : n ≠ 0) (hs : 0 < s) (hfew : n ≤ 2 ^ 53) (hlimit : s = 1 → n ≠ 2 ^ 53) :
    ∃ t : Nat, exponentFor n s = -(t : Int) ∧ (s < 2 ^ (t + 1) ∨ s ∣ n ∨ n < s) := by
  obtain ⟨e, hexponent, hlow, hhigh⟩ := exponentFor_spec (Nat.pos_of_ne_zero hn) hs
  have hs' : (0 : ℚ) < s := by exact_mod_cast hs
  have hfew' : (n : ℚ) ≤ 2 ^ 53 := by exact_mod_cast hfew
  rw [le_div_iff₀ hs'] at hlow
  rw [div_lt_iff₀ hs'] at hhigh
  by_cases hleast : e ≤ leastExponent
  · -- The least exponent is that of quotients that are next to nothing.
    refine ⟨1074, by rw [hexponent, max_eq_left hleast]; rfl, .inr (.inr ?_)⟩
    have hunit : (2 : ℚ) ^ (e + 1) ≤ 2 ^ (-1073 : Int) := by
      apply zpow_le_zpow_right₀ (by norm_num)
      unfold leastExponent at hleast
      omega
    have hless : (2 : ℚ) ^ 52 * 2 ^ (-1073 : Int) ≤ 1 := by
      rw [zpow_neg, ← div_eq_mul_inv, div_le_one (by positivity), ← zpow_natCast]
      exact zpow_le_zpow_right₀ (by norm_num) (by norm_num)
    have hbelow : (n : ℚ) < s := by nlinarith
    exact_mod_cast hbelow
  · have hnegative : e ≤ 0 := by
      by_contra hpositive
      have htwo : (2 : ℚ) ^ (1 : Int) ≤ 2 ^ e := zpow_le_zpow_right₀ (by norm_num) (by omega)
      rw [zpow_one] at htwo
      have hone : s = 1 := by
        have hle : (s : ℚ) ≤ 1 := by nlinarith
        have hle : s ≤ 1 := by exact_mod_cast hle
        omega
      have hall : (2 : ℚ) ^ 53 ≤ n := by
        rw [hone, Nat.cast_one, mul_one] at hlow
        linarith
      exact hlimit hone (Nat.le_antisymm hfew (by exact_mod_cast hall))
    obtain ⟨t, rfl⟩ : ∃ t : Nat, e = -(t : Int) := ⟨(-e).toNat, by omega⟩
    refine ⟨t, by rw [hexponent, max_eq_right (by omega)], ?_⟩
    have hscale : (2 : ℚ) ^ (-(t : Int)) * 2 ^ t = 1 := by
      rw [zpow_neg, zpow_natCast, inv_mul_cancel₀ (by positivity)]
    have hunits : (2 : ℚ) ^ 52 * s ≤ n * 2 ^ t := by
      calc (2 : ℚ) ^ 52 * s = (2 : ℚ) ^ 52 * ((2 : ℚ) ^ (-(t : Int)) * 2 ^ t) * s := by rw [hscale, mul_one]
        _ = (2 : ℚ) ^ 52 * (2 : ℚ) ^ (-(t : Int)) * s * 2 ^ t := by ring
        _ ≤ n * 2 ^ t := by gcongr
    have hunits : 2 ^ 52 * s ≤ n * 2 ^ t := by exact_mod_cast hunits
    rcases Nat.lt_or_ge s (2 ^ (t + 1)) with hfine | hcoarse
    · exact .inl hfine
    · right
      have hall : n = 2 ^ 53 := by
        rw [pow_succ] at hcoarse
        nlinarith [Nat.two_pow_pos t]
      have hpower : s = 2 ^ (t + 1) := by
        subst hall
        rw [pow_succ] at hcoarse ⊢
        omega
      subst hall hpower
      rcases Nat.lt_or_ge 53 (t + 1) with hbeyond | hdivides
      · exact .inr (Nat.pow_lt_pow_right (by decide) hbeyond)
      · exact .inl (Nat.pow_dvd_pow 2 hdivides)

theorem ceil_eq {num den k : Int} (hden : 0 < den) (hlow : (k - 1) * den < num) (hhigh : num ≤ k * den) :
    -((-num) / den) = k := by
  have hle : -k ≤ (-num) / den := (Int.le_ediv_iff_mul_le hden).mpr (by linarith)
  have hlt : (-num) / den < -k + 1 := (Int.ediv_lt_iff_lt_mul hden).mpr (by linarith)
  omega

theorem ceil_le {num den k : Int} (hden : 0 < den) (hhigh : num ≤ k * den) : -((-num) / den) ≤ k := by
  have hle : -k ≤ (-num) / den := (Int.le_ediv_iff_mul_le hden).mpr (by linarith)
  omega

theorem ceil_fraction (m t : Nat) :
    (finite false m (-(t : Int))).ceil? = some (-((-(m : Int)) / (2 ^ t : Int))) := by
  rw [ceil?, quotient_fraction]
  simp [powerOfTwo]

/-- The carry of a rounding that reaches the next power of two changes the form of the number only. -/
theorem ceil_carried (t : Nat) :
    (finite false (powerOfTwo 52) (-(t : Int) + 1)).ceil? =
      some (-((-(powerOfTwo 53 : Int)) / (2 ^ t : Int))) := by
  cases t with
  | zero => rfl
  | succ t =>
      have hexponent : -((t + 1 : Nat) : Int) + 1 = -(t : Int) := by omega
      have hdouble : (powerOfTwo 53 : Int) = 2 * (powerOfTwo 52 : Int) := by decide
      rw [hexponent, ceil_fraction, hdouble, pow_succ, Int.mul_comm (2 ^ t) 2, ← Int.mul_neg,
        Int.mul_ediv_mul_of_pos _ _ (by decide)]

theorem ceil_ofRatio {n s t : Nat} (hn : n ≠ 0) (ht : exponentFor n s = -(t : Int)) :
    (ofRatio false n s).ceil? =
      some (-((-(roundQuotient (n * 2 ^ t) s : Int)) / (2 ^ t : Int))) ∧
    ∀ negative, ofRatio false n s ≠ .infinite negative := by
  rw [ofRatio_places false hn ht]
  split
  · rename_i hcarry
    rw [show roundQuotient (n * 2 ^ t) s = powerOfTwo 53 from hcarry]
    exact ⟨ceil_carried t, fun _ hsame => by cases hsame⟩
  · exact ⟨ceil_fraction _ t, fun _ hsame => by cases hsame⟩

end Binary64

/-! ## Pages -/

namespace Page

open Binary64

theorem divide_eq {n s : Nat} (hs : 0 < s) (hfinite : ∀ negative, ofRatio false n s ≠ .infinite negative) :
    (Number.int n).divide (.int s) = .ok (ofRatio false n s) := by
  have hsign : ((decide ((n : Int) < 0) != decide ((s : Int) < 0)) && (n : Int) != 0) = false := by
    rw [decide_eq_false (by omega), decide_eq_false (by omega)]
    rfl
  unfold Number.divide
  dsimp only
  rw [if_neg (by omega), hsign, Int.natAbs_natCast, Int.natAbs_natCast]
  cases hquotient : ofRatio false n s with
  | infinite negative => exact absurd hquotient (hfinite negative)
  | nan => rfl
  | finite negative m e => rfl

theorem count_of_quotient {n s : Nat} {k : Int} (hs : 0 < s)
    (hfinite : ∀ negative, ofRatio false n s ≠ .infinite negative)
    (hceil : (ofRatio false n s).ceil? = some k) : count (.int n) (.int s) = .ok (max 1 k) := by
  have htotal : (if (Number.int 0).lt (.int n) then Number.int n else .int 0) = .int n := by
    cases n with
    | zero => rfl
    | succ n => exact if_pos (decide_eq_true (by omega))
  unfold count
  rw [htotal, divide_eq hs hfinite]
  dsimp only
  rw [hceil]

theorem count_none {s : Nat} (hs : 0 < s) : count (.int (0 : Nat)) (.int s) = .ok 1 := by
  have hceil : (ofRatio false 0 s).ceil? = some 0 := by
    have hzero : ofRatio false 0 s = .finite false 0 (-(1074 : Nat)) := rfl
    rw [hzero, ceil_fraction, Int.ofNat_zero, Int.neg_zero, Int.zero_ediv, Int.neg_zero]
  have hfinite : ∀ negative, ofRatio false 0 s ≠ .infinite negative := by
    intro negative h
    exact nomatch h
  exact count_of_quotient hs hfinite hceil

theorem ceil_bounds {n s k : Nat} (hs : 0 < s) (hn : n ≠ 0) (hk : k = (n + s - 1) / s) :
    (k - 1) * s < n ∧ n ≤ k * s ∧ 1 ≤ k := by
  have hdivision := Nat.div_add_mod (n + s - 1) s
  have hrest := Nat.mod_lt (n + s - 1) hs
  rw [← hk, Nat.mul_comm] at hdivision
  have hpositive : 1 ≤ k := by
    rcases Nat.eq_zero_or_pos k with rfl | hpositive
    · omega
    · exact hpositive
  refine ⟨?_, by omega, hpositive⟩
  rw [Nat.sub_mul]
  omega

theorem count_limit : count (.int (2 ^ 53 : Nat)) (.int (1 : Nat)) = .ok (2 ^ 53) := by
  have hquotient : ofRatio false (2 ^ 53) 1 = .finite false (powerOfTwo 52) (-(0 : Nat) + 1) := by decide +kernel
  have hceil : (ofRatio false (2 ^ 53) 1).ceil? = some (2 ^ 53) := by
    rw [hquotient, ceil_carried]
    decide
  have hfinite : ∀ negative, ofRatio false (2 ^ 53) 1 ≠ .infinite negative := by
    rw [hquotient]
    exact nofun
  rw [count_of_quotient Nat.one_pos hfinite hceil]
  rfl

/-- The rows divided by the size of a page, rounded up. -/
theorem count_of_le {n s : Nat} (hs : 0 < s) (hfew : n ≤ 2 ^ 53) :
    count (.int n) (.int s) = .ok (max 1 ((n + s - 1) / s : Nat)) := by
  by_cases hn : n = 0
  · subst hn
    have hpages : (0 + s - 1) / s = 0 := Nat.div_eq_of_lt (by omega)
    rw [hpages]
    exact count_none hs
  by_cases hlimit : s = 1 ∧ n = 2 ^ 53
  · obtain ⟨rfl, rfl⟩ := hlimit
    rw [count_limit]
    rfl
  · obtain ⟨t, ht, hfine⟩ := exponentFor_eq hn hs hfew fun hone hall => hlimit ⟨hone, hall⟩
    obtain ⟨hceil, hfinite⟩ := ceil_ofRatio hn ht
    rw [count_of_quotient hs hfinite hceil]
    generalize hk : (n + s - 1) / s = k
    obtain ⟨hlow, hhigh, hpositive⟩ := ceil_bounds hs hn hk.symm
    have hden : (0 : Int) < 2 ^ t := by positivity
    have hupper : (roundQuotient (n * 2 ^ t) s : Int) ≤ (k : Int) * 2 ^ t := by
      have hround : roundQuotient (n * 2 ^ t) s ≤ k * 2 ^ t :=
        roundQuotient_le hs (by nlinarith [Nat.two_pow_pos t])
      exact_mod_cast hround
    by_cases hone : k = 1
    · -- All rows fit on one page, and whatever the quotient is rounded to, it is not beyond one.
      subst hone
      rw [Nat.cast_one] at hupper ⊢
      rw [max_eq_left (ceil_le hden hupper), max_self]
    · have hspare : s < 2 ^ (t + 1) * (n - (k - 1) * s) := by
        rcases hfine with hfine | hwhole | hsmall
        · calc s < 2 ^ (t + 1) * 1 := by rwa [mul_one]
            _ ≤ 2 ^ (t + 1) * (n - (k - 1) * s) := Nat.mul_le_mul_left _ (by omega)
        · have hrest : n - (k - 1) * s = s := by
            obtain ⟨j, rfl⟩ := hwhole
            have hless : k - 1 < j := Nat.lt_of_mul_lt_mul_left (by rwa [Nat.mul_comm] at hlow)
            have hle : j ≤ k := Nat.le_of_mul_le_mul_left (by rwa [Nat.mul_comm k] at hhigh) hs
            have hkj : k = j := by omega
            rw [hkj, Nat.mul_comm s j, ← Nat.sub_mul, Nat.sub_sub_self (by omega), one_mul]
          rw [hrest]
          nlinarith [Nat.one_lt_two_pow (n := t + 1) (by omega)]
        · exact absurd (by rw [← hk]; exact Nat.div_eq_of_lt_le (by omega) (by omega)) hone
      have hlower : (((k : Int) - 1) * 2 ^ t) < (roundQuotient (n * 2 ^ t) s : Int) := by
        have hround : (k - 1) * 2 ^ t < roundQuotient (n * 2 ^ t) s := by
          refine lt_roundQuotient hs ?_
          obtain ⟨rest, hrest⟩ : ∃ rest, n = (k - 1) * s + rest := ⟨n - (k - 1) * s, by omega⟩
          rw [hrest, Nat.add_sub_cancel_left, pow_succ] at hspare
          rw [hrest]
          nlinarith
        have hcast : (((k - 1 : Nat) : Int) * 2 ^ t) < (roundQuotient (n * 2 ^ t) s : Int) := by
          exact_mod_cast hround
        rwa [Nat.cast_sub hpositive, Nat.cast_one] at hcast
      rw [ceil_eq hden hlower hupper]

theorem count_eq {n s : Nat} (hs : 0 < s) (hfew : n < 2 ^ 53) :
    count (.int n) (.int s) = .ok (max 1 ((n + s - 1) / s : Nat)) := count_of_le hs hfew.le

/-- A page that there is stays the page that was asked for. -/
theorem clamp_eq {i pages : Nat} (h : i < pages) :
    clamp (.int ((i : Int) + 1)) pages = .ok ((i : Int) + 1) := by
  unfold clamp Value.toInteger
  have hwithin : min (max 1 ((i : Int) + 1)) (max 1 (pages : Int)) = (i : Int) + 1 := by omega
  exact congrArg Except.ok hwithin

end Page

end TableSteward

import Mathlib.Data.Nat.Cast.Order.Field
import TableSteward.Proofs.Rounding

/-!
# Decimals that read back

The search for the shortest decimal ends inside the neighbourhood of its number: at the latest when a step of the
decimal grid is no longer than a quarter of a unit in the last place.  So `ofDecimal` takes what it finds, and every
other form of the same decimal, back to the number.
-/
set_option autoImplicit false

namespace TableSteward.Binary64

theorem ten_zpow_pos (k : Int) : (0 : ℚ) < 10 ^ k := zpow_pos (by norm_num) k

/-- Ten is more than the third power of two. -/
theorem two_zpow_lt_ten_zpow : (2 : ℚ) ^ (1200 : Int) < 10 ^ (400 : Int) := by
  calc (2 : ℚ) ^ (1200 : Int) = (2 ^ 3) ^ 400 := by
        rw [← pow_mul]
        exact zpow_natCast 2 (3 * 400)
    _ < 10 ^ 400 := pow_lt_pow_left₀ (by norm_num) (by norm_num) (by norm_num)
    _ = 10 ^ (400 : Int) := (zpow_natCast 10 400).symm

/-- The digits of a number tell between which powers of ten it lies. -/
theorem length_digits_bounds {n : Nat} (hn : 0 < n) :
    (10 : ℚ) ^ (((toString n).length : Int) - 1) ≤ n ∧ (n : ℚ) < 10 ^ ((toString n).length : Int) := by
  rw [Nat.toString_eq_repr]
  have hpos := Nat.length_repr_pos (n := n)
  have hhigh := (Nat.length_repr_le_iff hpos).mp (le_refl n.repr.length)
  have hlow : 10 ^ (n.repr.length - 1) ≤ n := by
    rcases Nat.eq_zero_or_pos (n.repr.length - 1) with hzero | hsome
    · rw [hzero]
      exact hn
    · by_contra hlt
      have := (Nat.length_repr_le_iff hsome).mpr (not_le.mp hlt)
      omega
  constructor
  · have hcast : ((n.repr.length : Int) - 1) = ((n.repr.length - 1 : Nat) : Int) := by omega
    rw [hcast, zpow_natCast]
    exact_mod_cast hlow
  · rw [zpow_natCast]
    exact_mod_cast hhigh

theorem power_toNat {b : ℚ} (hb : b ≠ 0) (e : Int) : b ^ e.toNat = b ^ e * b ^ (-e).toNat := by
  rw [← zpow_natCast b e.toNat, ← zpow_natCast b (-e).toNat, ← zpow_add₀ hb]
  congr 1
  omega

/-! ## Comparing with a decimal -/

/-- Both numbers are brought to integers by the same factor. -/
theorem cast_common (a d : Nat) (unit k : Int) :
    ∃ factor : ℚ, 0 < factor ∧ ((common a d unit k).1 : ℚ) = a * 2 ^ unit * factor ∧
      ((common a d unit k).2 : ℚ) = d * 10 ^ k * factor := by
  refine ⟨2 ^ (-unit).toNat * 10 ^ (-k).toNat, by positivity, ?_, ?_⟩
  · simp only [common, Nat.cast_mul, cast_powerOfTwo, cast_powerOfTen,
      power_toNat (by norm_num : (2 : ℚ) ≠ 0) unit]
    ring
  · simp only [common, Nat.cast_mul, cast_powerOfTwo, cast_powerOfTen,
      power_toNat (by norm_num : (10 : ℚ) ≠ 0) k]
    ring

theorem common_le_iff (a d : Nat) (unit k : Int) :
    (common a d unit k).1 ≤ (common a d unit k).2 ↔ (a : ℚ) * 2 ^ unit ≤ d * 10 ^ k := by
  obtain ⟨factor, hpos, hleft, hright⟩ := cast_common a d unit k
  rw [← Nat.cast_le (α := ℚ), hleft, hright, mul_le_mul_iff_left₀ hpos]

theorem common_ge_iff (a d : Nat) (unit k : Int) :
    (common a d unit k).2 ≤ (common a d unit k).1 ↔ (d : ℚ) * 10 ^ k ≤ a * 2 ^ unit := by
  obtain ⟨factor, hpos, hleft, hright⟩ := cast_common a d unit k
  rw [← Nat.cast_le (α := ℚ), hleft, hright, mul_le_mul_iff_left₀ hpos]

namespace Neighbourhood

variable {n : Neighbourhood}

theorem holds_iff (n : Neighbourhood) (d : Nat) (k : Int) : n.holds d k = true ↔ n.Has (d * 10 ^ k) := by
  have hlow := common_le_iff n.low d n.unit k
  have hlow' := not_congr (common_ge_iff n.low d n.unit k)
  have hhigh := common_ge_iff n.high d n.unit k
  have hhigh' := not_congr (common_le_iff n.high d n.unit k)
  rw [not_le, not_le] at hlow' hhigh'
  rw [holds, Has]
  by_cases hclosed : n.closed = true
  · simp only [hclosed, if_true, Bool.and_eq_true, decide_eq_true_eq, hlow, hhigh, true_and]
    constructor
    · intro h
      exact .inr h
    · rintro (⟨hl, hh⟩ | h)
      · exact ⟨hl.le, hh.le⟩
      · exact h
  · simp only [hclosed, Bool.false_eq_true, if_false, Bool.and_eq_true, decide_eq_true_eq, hlow', hhigh', false_and,
      or_false]

/-- The multiple of a power of ten next below the middle. -/
theorem floor_spec (n : Neighbourhood) (k : Int) :
    (n.floor k : ℚ) * 10 ^ k ≤ n.mid * 2 ^ n.unit ∧ (n.mid : ℚ) * 2 ^ n.unit < (n.floor k + 1) * 10 ^ k := by
  obtain ⟨factor, hpos, hleft, hright⟩ := cast_common n.mid 1 n.unit k
  obtain ⟨a, ha⟩ : ∃ a, a = (common n.mid 1 n.unit k).1 := ⟨_, rfl⟩
  obtain ⟨b, hb⟩ : ∃ b, b = (common n.mid 1 n.unit k).2 := ⟨_, rfl⟩
  have hfloor : n.floor k = a / b := by rw [floor, ha, hb]
  rw [← ha] at hleft
  rw [← hb, Nat.cast_one, one_mul] at hright
  have hb_pos : (0 : ℚ) < b := by
    rw [hright]
    exact mul_pos (ten_zpow_pos k) hpos
  have hlow : ((a / b : Nat) : ℚ) * b ≤ a := by exact_mod_cast Nat.div_mul_le_self a b
  have hhigh : (a : ℚ) < (((a / b : Nat) : ℚ) + 1) * b := by
    have hlt := Nat.lt_mul_div_succ a (Nat.cast_pos.mp hb_pos)
    rw [mul_comm] at hlt
    exact_mod_cast hlt
  rw [hfloor]
  rw [hleft, hright] at hlow hhigh
  constructor
  · apply le_of_mul_le_mul_right _ hpos
    linarith
  · apply lt_of_mul_lt_mul_right _ hpos.le
    linarith

theorem point?_spec {k : Int} {d : Nat} (h : n.point? k = some d) : 0 < d ∧ n.Has (d * 10 ^ k) := by
  have hnext : ∀ d, n.holds (d + 1) k = true → 0 < d + 1 ∧ n.Has ((d + 1 : Nat) * 10 ^ k) := by
    intro d hd
    exact ⟨Nat.succ_pos d, (n.holds_iff (d + 1) k).mp hd⟩
  have hthis : ∀ d, (n.holds d k && d != 0) = true → 0 < d ∧ n.Has (d * 10 ^ k) := by
    intro d hd
    rw [Bool.and_eq_true, bne_iff_ne] at hd
    exact ⟨Nat.pos_of_ne_zero hd.2, (n.holds_iff d k).mp hd.1⟩
  rw [point?] at h
  cases hfloor : (n.holds (n.floor k) k && n.floor k != 0) with
  | false =>
      cases hceil : n.holds (n.floor k + 1) k with
      | false => simp [hfloor, hceil] at h
      | true =>
          simp only [hfloor, hceil, Option.some.injEq] at h
          exact h ▸ hnext _ hceil
  | true =>
      cases hceil : n.holds (n.floor k + 1) k with
      | false =>
          simp only [hfloor, hceil, Option.some.injEq] at h
          exact h ▸ hthis _ hfloor
      | true =>
          simp only [hfloor, hceil, Option.some.injEq] at h
          have hnearer : d = n.floor k ∨ d = n.floor k + 1 := by
            rw [← h, nearer]
            rcases common n.mid 1 n.unit k with ⟨a, b⟩
            simp only
            split
            · exact .inl rfl
            · split
              · exact .inr rfl
              · split
                · exact .inl rfl
                · exact .inr rfl
          rcases hnearer with rfl | rfl
          · exact hthis _ hfloor
          · exact hnext _ hceil

/-- On a grid that is fine enough the point below the middle belongs to the neighbourhood. -/
theorem has_floor (hlow : n.low + 1 ≤ n.mid) (hhigh : n.mid < n.high) {k : Int}
    (hfine : (10 : ℚ) ^ k ≤ 2 ^ n.unit) : 0 < n.floor k ∧ n.Has (n.floor k * 10 ^ k) := by
  obtain ⟨hbelow, habove⟩ := n.floor_spec k
  have hunit := two_zpow_pos n.unit
  have hlow' : (n.low : ℚ) + 1 ≤ n.mid := by exact_mod_cast hlow
  have hhigh' : (n.mid : ℚ) < n.high := by exact_mod_cast hhigh
  have hstart : (n.low : ℚ) * 2 ^ n.unit < n.floor k * 10 ^ k := by nlinarith
  refine ⟨?_, .inl ⟨hstart, ?_⟩⟩
  · have hnonneg : (0 : ℚ) ≤ n.low * 2 ^ n.unit := mul_nonneg (Nat.cast_nonneg _) hunit.le
    have hpos := pos_of_mul_pos_left (lt_of_le_of_lt hnonneg hstart) (ten_zpow_pos k).le
    exact_mod_cast hpos
  · nlinarith

theorem search_spec (hlow : n.low + 1 ≤ n.mid) (hhigh : n.mid < n.high) :
    ∀ (fuel : Nat) (k : Int), (10 : ℚ) ^ (k - fuel) ≤ 2 ^ n.unit →
      0 < (n.search fuel k).1 ∧ n.Has ((n.search fuel k).1 * 10 ^ (n.search fuel k).2) := by
  intro fuel
  induction fuel with
  | zero =>
      intro k hfine
      rw [Nat.cast_zero, sub_zero] at hfine
      exact has_floor hlow hhigh hfine
  | succ fuel ih =>
      intro k hfine
      rw [search]
      cases hpoint : n.point? k with
      | some d => exact point?_spec hpoint
      | none =>
          apply ih
          have hstep : k - 1 - (fuel : Int) = k - ((fuel + 1 : Nat) : Int) := by
            push_cast
            ring
          rw [hstep]
          exact hfine

end Neighbourhood

/-! ## The shortest decimal -/

theorem magnitude_eq (m : Nat) (e : Int) :
    0 < (magnitude m e).2 ∧ ((magnitude m e).1 : ℚ) / (magnitude m e).2 = m * 2 ^ e := by
  rw [magnitude]
  split
  · rename_i he
    refine ⟨Nat.one_pos, ?_⟩
    rw [Nat.cast_mul, cast_powerOfTwo, cast_power_toNat he, Nat.cast_one, div_one]
  · rename_i he
    refine ⟨powerOfTwo_pos _, ?_⟩
    simp only [cast_powerOfTwo, cast_power_toNat (show 0 ≤ -e by omega), zpow_neg, div_inv_eq_mul]

/-- The place of the leading digit of a quotient. -/
def leading (num den : Nat) : Int :=
  if den ≤ num then ((toString (num / den)).length : Int) else -((toString (den / num)).length : Int) + 1

theorem leading_le {num den : Nat} (hnum : 0 < num) (hden : 0 < den) :
    (10 : ℚ) ^ (leading num den - 1) ≤ (num : ℚ) / den := by
  have hnum' : (0 : ℚ) < num := by exact_mod_cast hnum
  have hden' : (0 : ℚ) < den := by exact_mod_cast hden
  rw [leading]
  split
  · rename_i hle
    have hpos : 0 < num / den := Nat.div_pos hle hden
    calc (10 : ℚ) ^ (((toString (num / den)).length : Int) - 1) ≤ ((num / den : Nat) : ℚ) :=
          (length_digits_bounds hpos).1
      _ ≤ (num : ℚ) / den := Nat.cast_div_le
  · rename_i hlt
    have hpos : 0 < den / num := Nat.div_pos (by omega) hnum
    have hdigits : den / num < 10 ^ (toString (den / num)).length := by
      have := (length_digits_bounds hpos).2
      rw [zpow_natCast] at this
      exact_mod_cast this
    have hbound : den ≤ 10 ^ (toString (den / num)).length * num := by
      have hlt := Nat.lt_mul_div_succ den hnum
      rw [mul_comm] at hlt
      have hmul : (den / num + 1) * num ≤ 10 ^ (toString (den / num)).length * num :=
        Nat.mul_le_mul_right num hdigits
      exact hlt.le.trans hmul
    have hexp : -((toString (den / num)).length : Int) + 1 - 1 = -((toString (den / num)).length : Int) := by ring
    rw [hexp, zpow_neg, zpow_natCast, le_div_iff₀ hden', inv_mul_le_iff₀ (by positivity)]
    exact_mod_cast hbound

theorem shortest_has {m : Nat} {e : Int} (hm : 0 < m) (hsize : m < 2 ^ 53) :
    0 < (shortest m e).1 ∧ (neighbourhood m e).Has ((shortest m e).1 * 10 ^ (shortest m e).2) := by
  obtain ⟨hden, hquotient⟩ := magnitude_eq m e
  have hnum : 0 < (magnitude m e).1 := by
    rw [magnitude]
    split
    · exact Nat.mul_pos hm (powerOfTwo_pos _)
    · exact hm
  have hsearch : shortest m e =
      (neighbourhood m e).search 24 (leading (magnitude m e).1 (magnitude m e).2 + 1) := rfl
  rw [hsearch]
  apply Neighbourhood.search_spec
  · simp only [neighbourhood]
    split <;> omega
  · simp only [neighbourhood]
    omega
  · have hlead := leading_le hnum hden
    rw [hquotient] at hlead
    have hunit : (neighbourhood m e).unit = e - 2 := rfl
    rw [hunit, unit_eq]
    have hexp : leading (magnitude m e).1 (magnitude m e).2 + 1 - ((24 : Nat) : Int) =
        leading (magnitude m e).1 (magnitude m e).2 - 1 + -22 := by
      push_cast
      ring
    rw [hexp, zpow_add₀ (by norm_num)]
    have hm' : (m : ℚ) ≤ 2 ^ 53 := by exact_mod_cast hsize.le
    have hpos := two_zpow_pos e
    have hfactor : (10 : ℚ) ^ (-22 : Int) ≤ 1 / 4 / 2 ^ 53 := by norm_num
    calc (10 : ℚ) ^ (leading (magnitude m e).1 (magnitude m e).2 - 1) * 10 ^ (-22 : Int)
        ≤ (2 ^ 53 * 2 ^ e) * (1 / 4 / 2 ^ 53) := by
          apply mul_le_mul _ hfactor (ten_zpow_pos _).le (by positivity)
          nlinarith
      _ = 2 ^ e / 4 := by ring

theorem dropZeros_spec : ∀ (fuel d : Nat) (k : Int), 0 < d →
    0 < (dropZeros fuel d k).1 ∧ ((dropZeros fuel d k).1 : ℚ) * 10 ^ (dropZeros fuel d k).2 = d * 10 ^ k := by
  intro fuel
  induction fuel with
  | zero => exact fun d k hd => ⟨hd, rfl⟩
  | succ fuel ih =>
      intro d k hd
      rw [dropZeros]
      split
      · rename_i hzero
        rw [Bool.and_eq_true, beq_iff_eq] at hzero
        have hd' : d = 10 * (d / 10) := by omega
        obtain ⟨hpos, hvalue⟩ := ih (d / 10) (k + 1) (by omega)
        refine ⟨hpos, ?_⟩
        rw [hvalue, zpow_add₀ (by norm_num), zpow_one]
        have hcast : (d : ℚ) = 10 * ((d / 10 : Nat) : ℚ) := by exact_mod_cast hd'
        rw [hcast]
        ring
      · exact ⟨hd, rfl⟩

/-! ## Reading a decimal -/

/-- A decimal from the neighbourhood of a number is read as this number. -/
theorem ofDecimal_of_has {m : Nat} {e : Int} (negative : Bool) (hcanonical : IsCanonical (.finite negative m e))
    (hm : 0 < m) {d : Nat} (hd : 0 < d) {k : Int} (h : (neighbourhood m e).Has (d * 10 ^ k)) :
    ofDecimal negative d k = .finite negative m e := by
  have ⟨hleast, hgreatest, hsize, _⟩ := hcanonical
  obtain ⟨hlow, hhigh⟩ := length_digits_bounds hd
  obtain ⟨hstart, hend⟩ := h.bounds
  have hunit : (neighbourhood m e).unit = e - 2 := rfl
  rw [hunit] at hstart hend
  have hten := ten_zpow_pos k
  obtain ⟨size, hsize'⟩ : ∃ size : Int, size = k + ((toString d).length : Int) := ⟨_, rfl⟩
  -- the magnitude of the decimal is that of a binary64 number
  have hnot_great : size ≤ 400 := by
    by_contra hgreat
    have hvalue : (10 : ℚ) ^ (400 : Int) ≤ d * 10 ^ k := by
      calc (10 : ℚ) ^ (400 : Int) ≤ 10 ^ (size - 1) := zpow_le_zpow_right₀ (by norm_num) (by omega)
        _ = 10 ^ (((toString d).length : Int) - 1) * 10 ^ k := by
            rw [← zpow_add₀ (by norm_num)]
            congr 1
            omega
        _ ≤ d * 10 ^ k := mul_le_mul_of_nonneg_right hlow hten.le
    have hlimit : ((neighbourhood m e).high : ℚ) * 2 ^ (e - 2) ≤ 2 ^ 56 * 2 ^ (971 : Int) := by
      have hhigh' : ((neighbourhood m e).high : ℚ) ≤ 2 ^ 56 := by
        have : (neighbourhood m e).high ≤ 2 ^ 56 := by
          simp only [neighbourhood]
          omega
        exact_mod_cast this
      have hpower : (2 : ℚ) ^ (e - 2) ≤ 2 ^ (971 : Int) := by
        apply zpow_le_zpow_right₀ (by norm_num)
        rw [greatestExponent] at hgreatest
        omega
      exact mul_le_mul hhigh' hpower (two_zpow_pos _).le (by positivity)
    have hpower : (2 : ℚ) ^ 56 * 2 ^ (971 : Int) ≤ 2 ^ (1200 : Int) := by
      rw [← zpow_natCast 2 56, ← zpow_add₀ (by norm_num)]
      exact zpow_le_zpow_right₀ (by norm_num) (by norm_num)
    exact absurd two_zpow_lt_ten_zpow (not_lt.mpr (hvalue.trans (hend.trans (hlimit.trans hpower))))
  have hnot_small : -400 ≤ size := by
    by_contra hsmall
    have hvalue : (d : ℚ) * 10 ^ k < 10 ^ (-400 : Int) := by
      calc (d : ℚ) * 10 ^ k < 10 ^ ((toString d).length : Int) * 10 ^ k := mul_lt_mul_of_pos_right hhigh hten
        _ = 10 ^ size := by
            rw [← zpow_add₀ (by norm_num)]
            congr 1
            omega
        _ ≤ 10 ^ (-400 : Int) := zpow_le_zpow_right₀ (by norm_num) (by omega)
    have hlimit : (2 : ℚ) ^ (-1076 : Int) ≤ (neighbourhood m e).low * 2 ^ (e - 2) := by
      have hlow' : (1 : ℚ) ≤ (neighbourhood m e).low := by
        have : 1 ≤ (neighbourhood m e).low := by
          simp only [neighbourhood]
          split <;> omega
        exact_mod_cast this
      have hpower : (2 : ℚ) ^ (-1076 : Int) ≤ 2 ^ (e - 2) := by
        apply zpow_le_zpow_right₀ (by norm_num)
        rw [leastExponent] at hleast
        omega
      calc (2 : ℚ) ^ (-1076 : Int) ≤ 1 * 2 ^ (e - 2) := by rw [one_mul]; exact hpower
        _ ≤ (neighbourhood m e).low * 2 ^ (e - 2) := mul_le_mul_of_nonneg_right hlow' (two_zpow_pos _).le
    have hpower : (10 : ℚ) ^ (-400 : Int) < 2 ^ (-1076 : Int) := by
      calc (10 : ℚ) ^ (-400 : Int) = (10 ^ (400 : Int))⁻¹ := zpow_neg 10 400
        _ < (2 ^ (1200 : Int))⁻¹ := inv_strictAnti₀ (two_zpow_pos 1200) two_zpow_lt_ten_zpow
        _ = 2 ^ (-1200 : Int) := (zpow_neg 2 1200).symm
        _ ≤ 2 ^ (-1076 : Int) := zpow_le_zpow_right₀ (by norm_num) (by norm_num)
    exact absurd (hvalue.trans hpower) (not_lt.mpr (hlimit.trans hstart))
  rw [ofDecimal, if_neg hd.ne']
  simp only [← hsize', if_neg (not_lt.mpr hnot_great), if_neg (not_lt.mpr hnot_small)]
  split
  · rename_i hk
    apply ofRatio_of_has negative hcanonical hm (Nat.mul_pos hd (powerOfTen_pos _)) Nat.one_pos
    rw [Nat.cast_mul, cast_powerOfTen, cast_power_toNat hk, Nat.cast_one, div_one]
    exact h
  · rename_i hk
    apply ofRatio_of_has negative hcanonical hm hd (powerOfTen_pos _)
    rw [cast_powerOfTen, cast_power_toNat (by omega), zpow_neg, div_inv_eq_mul]
    exact h

end TableSteward.Binary64

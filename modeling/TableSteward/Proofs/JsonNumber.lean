import Mathlib.Tactic.IntervalCases
import TableSteward.Json.Reader
import TableSteward.Json.Writer
import TableSteward.Proofs.ShortestDecimal

/-!
# Numbers that are read as they were written

A number ends with the line that it is written on.  So the reader takes all of its digits, and finds the integer that
was written, or a decimal that reads back as the binary64 number that was written.
-/
set_option autoImplicit false

namespace TableSteward

/-! ## Digits -/

namespace Text

theorem digitsValue_eq {cs : List Char} (h : ∀ c ∈ cs, c.isDigit = true) :
    digitsValue cs = Nat.ofDigitChars 10 cs 0 := by
  rw [digitsValue, Nat.ofDigitChars_eq_foldl]
  apply List.foldl_ext
  intro n c hc
  have hdigit := h c hc
  have hrange : 48 ≤ c.toNat ∧ c.toNat ≤ 57 := by
    simpa [Char.isDigit, UInt32.le_iff_toNat_le] using hdigit
  have hascii : c.toNat < 0x80 := by omega
  rw [digitValue?, if_pos hascii, if_pos hdigit]
  rfl

theorem isDigit_toDigits (n : Nat) : ∀ c ∈ Nat.toDigits 10 n, c.isDigit = true := by
  intro c hc
  exact Nat.isDigit_of_mem_toDigits (by decide) (by decide) hc

theorem digitsValue_toDigits (n : Nat) : digitsValue (Nat.toDigits 10 n) = n := by
  rw [digitsValue_eq (isDigit_toDigits n), Nat.ofDigitChars_ten_toDigits]

theorem digitsValue_zeros (count : Nat) (cs : List Char) :
    digitsValue (List.replicate count '0' ++ cs) = digitsValue cs := by
  rw [digitsValue, List.foldl_append]
  congr 1
  induction count with
  | zero => rfl
  | succ count ih => exact ih

theorem digitsValue_append_zeros (cs : List Char) (count : Nat) :
    digitsValue (cs ++ List.replicate count '0') = digitsValue cs * 10 ^ count := by
  rw [digitsValue, List.foldl_append, ← digitsValue]
  induction count with
  | zero => simp
  | succ count ih =>
      rw [List.replicate_succ', List.foldl_append, ih, pow_succ, ← mul_assoc]
      exact mul_comm 10 _

/-- The digits of a number do not begin with zero. -/
theorem head?_toDigits {n : Nat} (hn : 0 < n) : (Nat.toDigits 10 n).head? ≠ some '0' := by
  induction n using Nat.strongRecOn with
  | ind n ih =>
      rcases Nat.lt_or_ge n 10 with hlt | hge
      · rw [Nat.toDigits_of_lt_base hlt]
        interval_cases n <;> decide
      · have hrest := ih (n / 10) (by omega) (by omega)
        rw [Nat.toDigits_of_base_le (by decide) hge, List.head?_append]
        cases hhead : (Nat.toDigits 10 (n / 10)).head? with
        | none => exact absurd (List.head?_eq_none_iff.mp hhead) Nat.toDigits_ne_nil
        | some c =>
            rw [hhead] at hrest
            exact hrest

end Text

namespace Json

/-! ## Ends of values -/

/-- A written value is followed by a comma or stands at the end of its line. -/
def Ends (rest : List Char) : Prop := ∀ c ∈ rest.head?, c = ',' ∨ c = '\n'

theorem Ends.takeWhile {rest : List Char} (h : Ends rest) {p : Char → Bool} (hcomma : p ',' = false)
    (hline : p '\n' = false) : rest.takeWhile p = [] := by
  cases rest with
  | nil => rfl
  | cons c rest =>
      apply List.takeWhile_cons_of_neg
      rcases h c rfl with rfl | rfl
      · simp [hcomma]
      · simp [hline]

theorem ends_nil : Ends [] := by
  intro c hc
  exact nomatch hc

/-- What a reader finds in front of some text, wherever the text stands. -/
def Reads {α : Type} (read : Cursor → Except Fault (α × Cursor)) (cs rest : List Char) (a : α) : Prop :=
  ∀ position, ∃ after, read ⟨position, cs ++ rest⟩ = .ok (a, ⟨after, rest⟩)

@[simp] theorem Cursor.advance_append (position : Nat) (cs rest : List Char) :
    (⟨position, cs ++ rest⟩ : Cursor).advance cs.length = ⟨position + cs.length, rest⟩ := by
  simp [Cursor.advance]

/-! ## Numerals -/

/-- The text of an exponent. -/
def exponentChars : Option Int → List Char
  | none => []
  | some power => (Binary64.exponentText power).toList

theorem exponentText_toList (power : Int) : ∃ digits : List Char, digits ≠ [] ∧
    (∀ c ∈ digits, c.isDigit = true) ∧ Text.digitsValue digits = power.natAbs ∧
    (Binary64.exponentText power).toList = 'e' :: (if power < 0 then '-' else '+') :: digits := by
  have hpadded : ∃ digits : List Char, digits ≠ [] ∧ (∀ c ∈ digits, c.isDigit = true) ∧
      Text.digitsValue digits = power.natAbs ∧
      (if (toString power.natAbs).length < 2 then "0" ++ toString power.natAbs
        else toString power.natAbs).toList = digits := by
    rw [Nat.toString_eq_repr]
    split
    · refine ⟨'0' :: Nat.toDigits 10 power.natAbs, List.cons_ne_nil _ _, ?_, ?_, ?_⟩
      · intro c hc
        rcases List.mem_cons.mp hc with rfl | hc
        · rfl
        · exact Text.isDigit_toDigits _ c hc
      · exact (Text.digitsValue_zeros 1 _).trans (Text.digitsValue_toDigits _)
      · rw [String.toList_append, Nat.toList_repr]
        rfl
    · exact ⟨_, Nat.toDigits_ne_nil, Text.isDigit_toDigits _, Text.digitsValue_toDigits _, Nat.toList_repr⟩
  obtain ⟨digits, hne, hdigits, hvalue, htext⟩ := hpadded
  refine ⟨digits, hne, hdigits, hvalue, ?_⟩
  rw [Binary64.exponentText, String.toList_append, htext]
  split <;> rfl

theorem exponentPart_chars (exponent : Option Int) {rest : List Char} (hrest : Ends rest) :
    exponentPart (exponentChars exponent ++ rest) =
      exponent.map fun power => (power, (exponentChars exponent).length) := by
  cases exponent with
  | none =>
      cases rest with
      | nil => rfl
      | cons c rest => rcases hrest c rfl with rfl | rfl <;> rfl
  | some power =>
      obtain ⟨digits, hne, hdigits, hvalue, htext⟩ := exponentText_toList power
      have hrun : digitRun (digits ++ rest) = digits := by
        rw [digitRun, List.takeWhile_append_of_pos hdigits, hrest.takeWhile rfl rfl, List.append_nil]
      have hempty : digits.isEmpty = false := by simpa using hne
      rw [exponentChars, htext]
      by_cases hsign : power < 0
      · have hpower : -((power.natAbs : Nat) : Int) = power := by omega
        simp only [hsign, if_true, List.cons_append, exponentPart, hrun, hempty, hvalue, hpower, Option.map_some,
          List.length_cons, beq_self_eq_true, Bool.true_or, Bool.false_eq_true, if_false]
        congr 2
        omega
      · have hpower : ((power.natAbs : Nat) : Int) = power := by omega
        simp only [hsign, if_false, List.cons_append, exponentPart, hrun, hempty, hvalue, hpower, Option.map_some,
          List.length_cons, beq_self_eq_true, Bool.true_or, if_true, Bool.false_eq_true]
        congr 2
        omega

/-- Digits without needless zeros at the front. -/
structure IsWhole (whole : List Char) : Prop where
  ne_nil : whole ≠ []
  digits : ∀ c ∈ whole, c.isDigit = true
  zero : whole.head? = some '0' → whole = ['0']

theorem isWhole_toDigits (n : Nat) : IsWhole (Nat.toDigits 10 n) := by
  refine ⟨Nat.toDigits_ne_nil, Text.isDigit_toDigits n, ?_⟩
  intro hzero
  rcases Nat.eq_zero_or_pos n with rfl | hn
  · rfl
  · exact absurd hzero (Text.head?_toDigits hn)

theorem IsWhole.read {whole : List Char} (h : IsWhole whole) {tail : List Char}
    (htail : tail.takeWhile Char.isDigit = []) : wholeDigits (whole ++ tail) = whole := by
  obtain ⟨c, others, rfl⟩ := List.exists_cons_of_ne_nil h.ne_nil
  by_cases hc : c = '0'
  · subst hc
    rw [h.zero rfl]
    rfl
  · have hrun : digitRun (c :: others ++ tail) = c :: others := by
      rw [digitRun, List.takeWhile_append_of_pos h.digits, htail, List.append_nil]
    rw [wholeDigits]
    · exact hrun
    · intro cs hzero
      exact hc (List.cons.inj hzero).1

/-- The text of a number. -/
def numeral (negative : Bool) (whole fraction : List Char) (exponent : Option Int) : List Char :=
  (if negative then ['-'] else []) ++
    (whole ++ ((if fraction.isEmpty then [] else '.' :: fraction) ++ exponentChars exponent))

section Numeral

variable {whole fraction : List Char} {rest : List Char}

theorem takeWhile_exponentChars (exponent : Option Int) (hrest : Ends rest) {p : Char → Bool}
    (hcomma : p ',' = false) (hline : p '\n' = false) (hmark : p 'e' = false) :
    (exponentChars exponent ++ rest).takeWhile p = [] := by
  cases exponent with
  | none => exact hrest.takeWhile hcomma hline
  | some power =>
      obtain ⟨digits, -, -, -, htext⟩ := exponentText_toList power
      rw [exponentChars, htext]
      exact List.takeWhile_cons_of_neg (by simp [hmark])

theorem fractionDigits_chars (hfraction : ∀ c ∈ fraction, c.isDigit = true) (exponent : Option Int)
    (hrest : Ends rest) :
    fractionDigits ((if fraction.isEmpty then [] else '.' :: fraction) ++ (exponentChars exponent ++ rest)) =
      fraction := by
  have hstop := takeWhile_exponentChars exponent hrest (p := Char.isDigit) rfl rfl rfl
  cases fraction with
  | cons c others =>
      simp only [List.isEmpty_cons, Bool.false_eq_true, if_false, List.cons_append, fractionDigits, digitRun]
      rw [← List.cons_append, List.takeWhile_append_of_pos hfraction, hstop, List.append_nil]
  | nil =>
      have hpoint := takeWhile_exponentChars exponent hrest (p := (· == '.')) rfl rfl rfl
      simp only [List.isEmpty_nil, if_true, List.nil_append]
      cases hall : exponentChars exponent ++ rest with
      | nil => rfl
      | cons c others =>
          rw [fractionDigits]
          intro others' hdot
          rw [hall, hdot] at hpoint
          exact nomatch hpoint

/-- The reader takes a numeral apart as it was put together. -/
theorem number_numeral (negative : Bool) (hwhole : IsWhole whole) (hfraction : ∀ c ∈ fraction, c.isDigit = true)
    (exponent : Option Int) (hrest : Ends rest) (position : Nat) : ∃ after,
    number ⟨position, numeral negative whole fraction exponent ++ rest⟩ =
      match exponent, fraction with
      | none, [] =>
          if Text.maxDigits < whole.length then .error .tooManyDigits
          else
            .ok (.int (if negative then -(Text.digitsValue whole : Int) else Text.digitsValue whole),
              ⟨after, rest⟩)
      | exponent, fraction =>
          .ok (.real (Binary64.ofDecimal negative (Text.digitsValue (whole ++ fraction))
            (exponent.getD 0 - (fraction.length : Int))), ⟨after, rest⟩) := by
  obtain ⟨c, others, hcons⟩ := List.exists_cons_of_ne_nil hwhole.ne_nil
  have hdigit : c ≠ '-' := by
    rintro rfl
    exact absurd (hwhole.digits '-' (by simp [hcons])) (by decide)
  obtain ⟨tail, htail⟩ : ∃ tail, tail = (if fraction.isEmpty then [] else '.' :: fraction) ++
    (exponentChars exponent ++ rest) := ⟨_, rfl⟩
  have htext : numeral negative whole fraction exponent ++ rest =
      (if negative then ['-'] else []) ++ (whole ++ tail) := by
    simp only [numeral, htail, List.append_assoc]
  have hsign : ((numeral negative whole fraction exponent ++ rest).head? == some '-') = negative := by
    rw [htext]
    cases negative with
    | true => rfl
    | false => simp [hcons, hdigit]
  obtain ⟨start, hstart⟩ : ∃ start, (if negative then
      (⟨position, numeral negative whole fraction exponent ++ rest⟩ : Cursor).advance 1
      else ⟨position, numeral negative whole fraction exponent ++ rest⟩) = ⟨start, whole ++ tail⟩ := by
    rw [htext]
    cases negative with
    | true => exact ⟨position + 1, rfl⟩
    | false => exact ⟨position, rfl⟩
  have hstop : tail.takeWhile Char.isDigit = [] := by
    rw [htail]
    split
    · exact takeWhile_exponentChars exponent hrest rfl rfl rfl
    · rfl
  have hempty : whole.isEmpty = false := by simpa using hwhole.ne_nil
  have hfound : fractionDigits tail = fraction := htail ▸ fractionDigits_chars hfraction exponent hrest
  obtain ⟨behind, hbehind⟩ : ∃ behind, (if fraction.isEmpty then (⟨start + whole.length, tail⟩ : Cursor)
      else (⟨start + whole.length, tail⟩ : Cursor).advance (1 + fraction.length)) =
        ⟨behind, exponentChars exponent ++ rest⟩ := by
    rw [htail]
    by_cases hnone : fraction.isEmpty = true
    · simp only [hnone, if_true, List.nil_append]
      exact ⟨_, rfl⟩
    · simp only [hnone, Bool.false_eq_true, if_false]
      rw [Nat.add_comm 1, ← List.length_cons (a := '.'), Cursor.advance_append]
      exact ⟨_, rfl⟩
  simp only [number, hsign, hstart, hwhole.read hstop, hempty, Bool.false_eq_true, if_false, Cursor.advance_append,
    hfound, hbehind, exponentPart_chars exponent hrest]
  cases exponent with
  | some power =>
      simp only [Option.map_some, Option.getD_some, Cursor.advance_append]
      exact ⟨_, rfl⟩
  | none =>
      cases fraction with
      | cons d digits =>
          simp only [Option.map_none, Option.getD_none]
          exact ⟨_, rfl⟩
      | nil =>
          have hrest' : tail = rest := htail
          simp only [Option.map_none, hrest']
          exact ⟨_, rfl⟩

end Numeral

/-! ## Integers -/

theorem toString_int_toList (n : Int) : (toString n).toList =
    numeral (decide (n < 0)) (Nat.toDigits 10 n.natAbs) [] none := by
  rw [Int.toString_eq_repr, Int.repr_eq_if]
  simp only [numeral, exponentChars, List.isEmpty_nil, if_true, List.append_nil]
  split
  · rename_i hn
    have hnot : ¬ n < 0 := by omega
    have habs : n.toNat = n.natAbs := by omega
    simp only [hnot, decide_false, Bool.false_eq_true, if_false, List.nil_append, Nat.toList_repr, habs]
  · rename_i hn
    have hneg : n < 0 := by omega
    have habs : (-n).toNat = n.natAbs := by omega
    rw [String.toList_append, Nat.toList_repr, habs]
    simp only [hneg, decide_true, if_true]
    rfl

theorem number_int {n : Int} (hsize : (Nat.toDigits 10 n.natAbs).length ≤ Text.maxDigits) {rest : List Char}
    (hrest : Ends rest) : Reads number (toString n).toList rest (.int n) := by
  intro position
  obtain ⟨after, hread⟩ := number_numeral (decide (n < 0)) (isWhole_toDigits n.natAbs)
    (fun _ h => absurd h List.not_mem_nil) none hrest position
  refine ⟨after, ?_⟩
  rw [toString_int_toList, hread]
  simp only [if_neg (not_lt.mpr hsize), Text.digitsValue_toDigits, decide_eq_true_eq]
  congr 3
  split <;> omega

/-! ## Real numbers -/

/-- A numeral with a point or an exponent, of the value `d · 10^k`. -/
structure Writes (whole fraction : List Char) (exponent : Option Int) (d : Nat) (k : Int) : Prop where
  isWhole : IsWhole whole
  digits : ∀ c ∈ fraction, c.isDigit = true
  real : fraction ≠ [] ∨ exponent ≠ none
  value : (Text.digitsValue (whole ++ fraction) : ℚ) * 10 ^ (exponent.getD 0 - (fraction.length : Int)) = d * 10 ^ k

section Layout

variable {digits : List Char} {d : Nat}

theorem forall_digit_append_zeros (h : IsWhole digits) (count : Nat) :
    ∀ c ∈ digits ++ List.replicate count '0', c.isDigit = true := by
  intro c hc
  rcases List.mem_append.mp hc with hc | hc
  · exact h.digits c hc
  · rw [List.eq_of_mem_replicate hc]
    rfl

theorem writes_below_one (h : IsWhole digits) (hvalue : Text.digitsValue digits = d) (zeros : Nat) {k : Int}
    (hk : (zeros : Int) + digits.length = -k) : Writes ['0'] (List.replicate zeros '0' ++ digits) none d k := by
  refine ⟨isWhole_toDigits 0, ?_, .inl (by simp [h.ne_nil]), ?_⟩
  · intro c hc
    exact forall_digit_append_zeros h zeros c (List.mem_append.mpr (List.mem_append.mp hc).symm)
  · have hall : Text.digitsValue (['0'] ++ (List.replicate zeros '0' ++ digits)) = d :=
      (Text.digitsValue_zeros (zeros + 1) digits).trans hvalue
    rw [hall, List.length_append, List.length_replicate]
    congr 2
    push_cast
    rw [hk, Option.getD_none]
    ring

theorem writes_integer (h : IsWhole digits) (hhead : digits.head? ≠ some '0') (hvalue : Text.digitsValue digits = d)
    (zeros : Nat) : Writes (digits ++ List.replicate zeros '0') ['0'] none d zeros := by
  refine ⟨⟨by simp [h.ne_nil], forall_digit_append_zeros h zeros, ?_⟩, by simp, .inl (by simp), ?_⟩
  · intro hzero
    rw [List.head?_append_of_ne_nil _ h.ne_nil] at hzero
    exact absurd hzero hhead
  · have hall : Text.digitsValue (digits ++ List.replicate zeros '0' ++ ['0']) = d * 10 ^ (zeros + 1) := by
      rw [List.append_assoc, ← List.replicate_succ' (n := zeros), Text.digitsValue_append_zeros, hvalue]
    rw [hall]
    push_cast
    rw [pow_succ, zpow_natCast]
    norm_num
    ring

/-- The first digits of a number that does not begin with zero. -/
theorem IsWhole.take (h : IsWhole digits) (hhead : digits.head? ≠ some '0') {place : Nat} (hplace : 0 < place) :
    IsWhole (digits.take place) := by
  obtain ⟨c, others, rfl⟩ := List.exists_cons_of_ne_nil h.ne_nil
  obtain ⟨n, rfl⟩ : ∃ n, place = n + 1 := ⟨place - 1, by omega⟩
  refine ⟨by simp, ?_, ?_⟩
  · intro x hx
    exact h.digits x (List.mem_of_mem_take hx)
  · intro hzero
    exact absurd hzero hhead

/-- A point among the digits, and an exponent that says where it belongs. -/
theorem writes_split (h : IsWhole digits) (hhead : digits.head? ≠ some '0') (hvalue : Text.digitsValue digits = d)
    (place : Nat) (hplace : 0 < place) (exponent : Option Int) {k : Int}
    (hk : exponent.getD 0 = k + (digits.length - place : Nat)) (hreal : place < digits.length ∨ exponent ≠ none) :
    Writes (digits.take place) (digits.drop place) exponent d k := by
  refine ⟨h.take hhead hplace, ?_, ?_, ?_⟩
  · intro c hc
    exact h.digits c (List.mem_of_mem_drop hc)
  · rw [Ne, List.drop_eq_nil_iff, not_le]
    exact hreal
  · rw [List.take_append_drop, hvalue, List.length_drop, hk, add_sub_cancel_right]

end Layout

theorem decimalText_writes {d : Nat} (hd : 0 < d) (k : Int) : ∃ whole fraction exponent,
    (Binary64.decimalText d k).toList = numeral false whole fraction exponent ∧
      Writes whole fraction exponent d k := by
  obtain ⟨digits, hdigits⟩ : ∃ digits, digits = Nat.toDigits 10 d := ⟨_, rfl⟩
  have htext : (toString d).toList = digits := by rw [Nat.toString_eq_repr, Nat.toList_repr, hdigits]
  have hwhole : IsWhole digits := hdigits ▸ isWhole_toDigits d
  have hvalue : Text.digitsValue digits = d := hdigits ▸ Text.digitsValue_toDigits d
  have hhead : digits.head? ≠ some '0' := hdigits ▸ Text.head?_toDigits hd
  have hlength : 0 < digits.length := List.length_pos_of_ne_nil hwhole.ne_nil
  rw [Binary64.decimalText]
  simp only [htext]
  split
  · split
    · refine ⟨_, _, _, ?_, writes_below_one hwhole hvalue (-((digits.length : Int) + k)).toNat (by omega)⟩
      simp [numeral, exponentChars, hwhole.ne_nil]
    · split
      · rename_i hcount
        have hk : k = ((digits.length : Int) + k - digits.length).toNat := by omega
        refine ⟨_, _, _, ?_, hk ▸ writes_integer hwhole hhead hvalue _⟩
        simp [numeral, exponentChars]
      · refine ⟨_, _, _, ?_, writes_split hwhole hhead hvalue ((digits.length : Int) + k).toNat (by omega)
          none (by rw [Option.getD_none]; omega) (.inl (by omega))⟩
        have hrest : digits.drop ((digits.length : Int) + k).toNat ≠ [] := by
          rw [Ne, List.drop_eq_nil_iff]
          omega
        simp [numeral, exponentChars, hrest]
  · refine ⟨_, _, _, ?_, writes_split hwhole hhead hvalue 1 Nat.one_pos
      (some ((digits.length : Int) + k - 1)) (by rw [Option.getD_some]; omega)
      (.inr (by simp))⟩
    obtain ⟨c, others, rfl⟩ := List.exists_cons_of_ne_nil hwhole.ne_nil
    cases others <;> simp [numeral, exponentChars]

/-- A finite number is written as a numeral that is read back as the number. -/
theorem text_finite {negative : Bool} {m : Nat} {e : Int}
    (hcanonical : Binary64.IsCanonical (.finite negative m e)) : ∃ whole fraction exponent,
      (Binary64.text (.finite negative m e)).toList = numeral negative whole fraction exponent ∧
      IsWhole whole ∧ (∀ c ∈ fraction, c.isDigit = true) ∧ (fraction ≠ [] ∨ exponent ≠ none) ∧
      Binary64.ofDecimal negative (Text.digitsValue (whole ++ fraction))
        (exponent.getD 0 - (fraction.length : Int)) = .finite negative m e := by
  have hsign : ∀ (s : String) (whole fraction : List Char) (exponent : Option Int),
      s.toList = numeral false whole fraction exponent →
        (if negative then "-" ++ s else s).toList = numeral negative whole fraction exponent := by
    intro s whole fraction exponent hs
    cases negative with
    | false => exact hs
    | true =>
        rw [if_pos rfl, String.toList_append, hs]
        rfl
  rw [Binary64.text]
  by_cases hm : m = 0
  · subst hm
    obtain rfl : e = Binary64.leastExponent := hcanonical.2.2.2 (by norm_num)
    exact ⟨['0'], ['0'], none, hsign "0.0" _ _ _ rfl, isWhole_toDigits 0, by simp, .inl (by simp), rfl⟩
  · have hpos : 0 < m := Nat.pos_of_ne_zero hm
    obtain ⟨hfound, hhas⟩ := Binary64.shortest_has (e := e) hpos hcanonical.2.2.1
    obtain ⟨hd, hsame⟩ := Binary64.dropZeros_spec 400 _ (Binary64.shortest m e).2 hfound
    obtain ⟨whole, fraction, exponent, htext, hwrites⟩ := decimalText_writes hd _
    have hvalue := hwrites.value.trans hsame
    have hnonzero : 0 < Text.digitsValue (whole ++ fraction) := by
      have hmul : (0 : ℚ) < (Binary64.shortest m e).1 * 10 ^ (Binary64.shortest m e).2 :=
        mul_pos (by exact_mod_cast hfound) (Binary64.ten_zpow_pos _)
      rw [← hvalue] at hmul
      exact_mod_cast pos_of_mul_pos_left hmul (Binary64.ten_zpow_pos _).le
    refine ⟨whole, fraction, exponent, ?_, hwrites.isWhole, hwrites.digits, hwrites.real, ?_⟩
    · rw [if_neg hm]
      exact hsign _ _ _ _ htext
    · apply Binary64.ofDecimal_of_has negative hcanonical hpos hnonzero
      rw [hvalue]
      exact hhas

theorem number_finite {negative : Bool} {m : Nat} {e : Int}
    (hcanonical : Binary64.IsCanonical (.finite negative m e)) {rest : List Char} (hrest : Ends rest) :
    Reads number (Binary64.text (.finite negative m e)).toList rest (.real (.finite negative m e)) := by
  intro position
  obtain ⟨whole, fraction, exponent, htext, hwhole, hfraction, hreal, hvalue⟩ := text_finite hcanonical
  obtain ⟨after, hread⟩ := number_numeral negative hwhole hfraction exponent hrest position
  refine ⟨after, ?_⟩
  rw [htext, hread]
  cases exponent with
  | some power => simp only [hvalue]
  | none =>
      cases fraction with
      | nil => simp at hreal
      | cons c others => simp only [hvalue]

end Json

end TableSteward

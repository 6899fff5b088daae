import Mathlib.Tactic.IntervalCases
import TableSteward.Proofs.JsonNumber

/-!
# Strings that are read as they were written

Every character of a string is written as itself, as an escape of two characters or as its units of sixteen bits in
four hexadecimal digits each.  The reader finds the units of all characters, and as long as none of them is half of a
pair they join to the characters again.  What is written is plain ASCII, so that its bytes decode to it.
-/
set_option autoImplicit false

namespace TableSteward

/-! ## Hexadecimal digits -/

namespace Text

theorem hexValue?_digitChar {n : Nat} (hn : n < 16) : hexValue? n.digitChar = some n := by
  interval_cases n <;> rfl

theorem hexDigits_one {n : Nat} (hn : n < 16) : hexDigits 1 n = [n.digitChar] := by
  rw [hexDigits, Nat.toDigits_of_lt_base hn]
  rfl

theorem hexDigits_succ (width n : Nat) (hwidth : 0 < width) :
    hexDigits (width + 1) n = hexDigits width (n / 16) ++ [(n % 16).digitChar] := by
  rw [hexDigits, hexDigits]
  rcases Nat.lt_or_ge n 16 with hlt | hge
  · have hzero : n / 16 = 0 := by omega
    have hmod : n % 16 = n := by omega
    obtain ⟨w, rfl⟩ : ∃ w, width = w + 1 := ⟨width - 1, by omega⟩
    rw [Nat.toDigits_of_lt_base hlt, hzero, hmod]
    have hzeros : List.replicate (w + 1 - (Nat.toDigits 16 0).length) '0' ++ Nat.toDigits 16 0 =
        List.replicate (w + 1) '0' := (List.replicate_succ').symm
    rw [hzeros]
    rfl
  · rw [Nat.toDigits_of_base_le (by decide) hge, List.length_append, List.length_singleton,
      Nat.add_sub_add_right, List.append_assoc]

theorem hexDigits_four {n : Nat} (hn : n < 0x10000) : hexDigits 4 n =
    [(n / 16 / 16 / 16).digitChar, (n / 16 / 16 % 16).digitChar, (n / 16 % 16).digitChar, (n % 16).digitChar] := by
  rw [hexDigits_succ 3 _ (by decide), hexDigits_succ 2 _ (by decide), hexDigits_succ 1 _ (by decide),
    hexDigits_one (by omega)]
  rfl

/-! ## Units -/

theorem unitsOf_lt (c : Char) : ∀ n ∈ unitsOf c, n < 0x10000 := by
  intro n hn
  rw [unitsOf] at hn
  have hchar : c.toNat < 0x110000 := by
    rcases c.valid with h | h
    · exact Nat.lt_of_lt_of_le h (by decide)
    · exact h.2
  split at hn
  · rename_i half hhalf
    rw [List.mem_singleton] at hn
    subst hn
    rw [half?] at hhalf
    split at hhalf
    · rw [Option.some.injEq] at hhalf
      omega
    · exact nomatch hhalf
  · split at hn
    · rw [List.mem_singleton] at hn
      omega
    · simp only [List.mem_cons, List.not_mem_nil, or_false] at hn
      omega

theorem toNat_not_surrogate (c : Char) : isHigh c.toNat = false ∧ isLow c.toNat = false := by
  have hvalid : c.toNat < 0xD800 ∨ 0xDFFF < c.toNat := by
    rcases c.valid with h | h
    · exact .inl h
    · exact .inr h.1
  simp only [isHigh, isLow, Bool.and_eq_false_iff, decide_eq_false_iff_not]
  omega

theorem unitChar_toNat (c : Char) : unitChar c.toNat = c := by
  obtain ⟨hhigh, hlow⟩ := toNat_not_surrogate c
  simp [unitChar, hhigh, hlow]

/-- Characters that are no half of a pair are joined from their units again. -/
theorem joinUnits_unitsOf : ∀ {cs : List Char}, (∀ c ∈ cs, half? c = none) →
    joinUnits (cs.flatMap unitsOf) = cs := by
  intro cs
  induction cs with
  | nil => exact fun _ => rfl
  | cons c cs ih =>
      intro hcs
      have hrest := ih fun x hx => hcs x (List.mem_cons_of_mem _ hx)
      obtain ⟨hhigh, -⟩ := toNat_not_surrogate c
      rw [List.flatMap_cons, unitsOf, hcs c (List.mem_cons_self ..)]
      by_cases hsmall : c.toNat < 0x10000
      · simp only [hsmall, if_true, List.singleton_append]
        cases hunits : cs.flatMap unitsOf with
        | nil =>
            rw [hunits] at hrest
            rw [joinUnits, unitChar_toNat, ← hrest, joinUnits]
        | cons m rest =>
            rw [hunits] at hrest
            rw [joinUnits, hhigh, Bool.false_and, if_neg Bool.false_ne_true, hrest, unitChar_toNat]
      · have hlarge : c.toNat < 0x110000 := by
          rcases c.valid with h | h
          · exact Nat.lt_of_lt_of_le h (by decide)
          · exact h.2
        simp only [hsmall, if_false, List.cons_append, List.nil_append]
        have hpair : (isHigh (0xD800 + (c.toNat - 0x10000) / 0x400) &&
            isLow (0xDC00 + (c.toNat - 0x10000) % 0x400)) = true := by
          simp only [isHigh, isLow, Bool.and_eq_true, decide_eq_true_eq]
          omega
        have hchar : 0x10000 + (0xD800 + (c.toNat - 0x10000) / 0x400 - 0xD800) * 0x400 +
            (0xDC00 + (c.toNat - 0x10000) % 0x400 - 0xDC00) = c.toNat := by
          omega
        rw [joinUnits, hpair, if_pos rfl, hrest, hchar, Char.ofNat_toNat]

/-- The text that is made of the units of a text. -/
def joined (s : String) : String := String.ofList (joinUnits (s.toList.flatMap unitsOf))

theorem joined_of_whole {s : String} (hs : hasHalf s = false) : joined s = s := by
  have hwhole : ∀ c ∈ s.toList, half? c = none := by
    intro c hc
    rw [hasHalf, List.any_eq_false] at hs
    simpa using hs c hc
  rw [joined, joinUnits_unitsOf hwhole, String.ofList_toList]

end Text

/-! ## Strings -/

namespace Json

theorem hexQuad?_digits {n : Nat} (hn : n < 0x10000) :
    hexQuad? (n / 16 / 16 / 16).digitChar (n / 16 / 16 % 16).digitChar (n / 16 % 16).digitChar
      (n % 16).digitChar = some n := by
  have hall : ((n / 16 / 16 / 16 * 16 + n / 16 / 16 % 16) * 16 + n / 16 % 16) * 16 + n % 16 = n := by omega
  rw [hexQuad?, Text.hexValue?_digitChar (by omega), Text.hexValue?_digitChar (by omega),
    Text.hexValue?_digitChar (by omega), Text.hexValue?_digitChar (by omega)]
  exact congrArg some hall

section Units

variable {opening : Nat} {tail rest : List Char} {units : List Nat}

/-- The units that a reader finds up to the end of a string. -/
def ReadsUnits (opening : Nat) (cs rest : List Char) (units : List Nat) : Prop :=
  ∀ position, ∃ after, stringUnits opening position cs = .ok (units, ⟨after, rest⟩)

theorem readsUnits_unitEscape {n : Nat} (hn : n < 0x10000) {c : Char}
    (h : ReadsUnits opening (c :: tail) rest units) :
    ReadsUnits opening (unitEscape n ++ c :: tail) rest (n :: units) := by
  intro position
  obtain ⟨after, hread⟩ := h (position + 6)
  refine ⟨after, ?_⟩
  rw [unitEscape, Text.hexDigits_four hn]
  simp only [List.cons_append, List.nil_append, stringUnits, hexQuad?_digits hn, hread]
  rfl

theorem readsUnits_escaped {c char : Char} (hc : escaped? c = some char)
    (h : ReadsUnits opening tail rest units) :
    ReadsUnits opening ('\\' :: c :: tail) rest (char.toNat :: units) := by
  intro position
  obtain ⟨after, hread⟩ := h (position + 2)
  refine ⟨after, ?_⟩
  have hu : c ≠ 'u' := by
    rintro rfl
    exact nomatch hc
  rw [stringUnits]
  · simp only [hc, hread]
    rfl
  · exact fun _ _ _ _ _ _ h _ => hu h
  · exact hu

theorem readsUnits_plain {c : Char} (hquote : c ≠ '"') (hslash : c ≠ '\\') (hprintable : 0x20 ≤ c.toNat)
    (h : ReadsUnits opening tail rest units) : ReadsUnits opening (c :: tail) rest (c.toNat :: units) := by
  intro position
  obtain ⟨after, hread⟩ := h (position + 1)
  refine ⟨after, ?_⟩
  rw [stringUnits]
  · simp only [if_neg (not_lt.mpr hprintable), hread]
    rfl
  · exact hquote
  · exact fun h _ => hslash h
  · exact fun _ _ _ _ _ _ h _ => hslash h
  · exact fun _ h _ => hslash h
  · exact fun _ _ h _ => hslash h

theorem readsUnits_unitEscapes : ∀ {ns : List Nat}, (∀ n ∈ ns, n < 0x10000) → tail ≠ [] →
    ReadsUnits opening tail rest units → ReadsUnits opening (ns.flatMap unitEscape ++ tail) rest (ns ++ units) := by
  intro ns
  induction ns with
  | nil => exact fun _ _ h => h
  | cons n ns ih =>
      intro hns htail h
      have hrest := ih (fun m hm => hns m (List.mem_cons_of_mem _ hm)) htail h
      obtain ⟨c, others, hcons⟩ := List.exists_cons_of_ne_nil
        (List.append_ne_nil_of_right_ne_nil (ns.flatMap unitEscape) htail)
      rw [hcons] at hrest
      rw [List.flatMap_cons, List.append_assoc, hcons]
      exact readsUnits_unitEscape (hns n (List.mem_cons_self ..)) hrest

theorem unitsOf_ascii {c : Char} (hc : c.toNat < 0x80) : Text.unitsOf c = [c.toNat] := by
  have hwhole : Text.half? c = none := by
    rw [Text.half?, if_neg]
    simp only [Bool.and_eq_true, decide_eq_true_eq]
    omega
  simp only [Text.unitsOf, hwhole, if_pos (Nat.lt_of_lt_of_le hc (by decide : 0x80 ≤ 0x10000))]

/-- The escape of a character yields its units. -/
theorem readsUnits_charEscape (c : Char) (htail : tail ≠ []) (h : ReadsUnits opening tail rest units) :
    ReadsUnits opening (charEscape c ++ tail) rest (Text.unitsOf c ++ units) := by
  have hletter : ∀ {char letter : Char}, escaped? letter = some char → char.toNat < 0x80 → c = char →
      ReadsUnits opening (['\\', letter] ++ tail) rest (Text.unitsOf c ++ units) := by
    rintro char letter hescaped hascii rfl
    rw [unitsOf_ascii hascii]
    exact readsUnits_escaped hescaped h
  have hcode : ∀ n, (c.toNat == n) = true → c = Char.ofNat n := by
    intro n hn
    rw [← beq_iff_eq.mp hn, Char.ofNat_toNat]
  rw [charEscape]
  split_ifs with hquote hslash hline hreturn htab hback hfeed hplain
  · exact hletter rfl (by decide) (beq_iff_eq.mp hquote)
  · exact hletter rfl (by decide) (beq_iff_eq.mp hslash)
  · exact hletter rfl (by decide) (beq_iff_eq.mp hline)
  · exact hletter rfl (by decide) (beq_iff_eq.mp hreturn)
  · exact hletter rfl (by decide) (beq_iff_eq.mp htab)
  · exact hletter rfl (by decide) (hcode 8 hback)
  · exact hletter rfl (by decide) (hcode 12 hfeed)
  · rw [Bool.and_eq_true, decide_eq_true_eq, decide_eq_true_eq] at hplain
    rw [beq_iff_eq] at hquote hslash
    rw [unitsOf_ascii (by omega)]
    exact readsUnits_plain hquote hslash hplain.1 h
  · exact readsUnits_unitEscapes (Text.unitsOf_lt c) htail h

theorem readsUnits_text (opening : Nat) (rest : List Char) : ∀ cs : List Char,
    ReadsUnits opening (cs.flatMap charEscape ++ '"' :: rest) rest (cs.flatMap Text.unitsOf) := by
  intro cs
  induction cs with
  | nil => exact fun position => ⟨position + 1, by rw [List.flatMap_nil, List.nil_append, stringUnits]; rfl⟩
  | cons c cs ih =>
      rw [List.flatMap_cons, List.append_assoc, List.flatMap_cons]
      exact readsUnits_charEscape c (List.append_ne_nil_of_right_ne_nil _ (List.cons_ne_nil _ _)) ih

end Units

/-- What a reader finds behind the opening quote of a string: the units that were written, joined. -/
theorem string_units (s : String) (position : Nat) (rest : List Char) :
    ∃ after, string ⟨position, s.toList.flatMap charEscape ++ '"' :: rest⟩ = .ok (Text.joined s, ⟨after, rest⟩) := by
  obtain ⟨after, hread⟩ := readsUnits_text (position - 1) rest s.toList position
  refine ⟨after, ?_⟩
  rw [string, hread]
  rfl

/-- A string is read back from what was written behind its opening quote. -/
theorem string_written {s : String} (hs : Text.hasHalf s = false) (position : Nat) (rest : List Char) :
    ∃ after, string ⟨position, s.toList.flatMap charEscape ++ '"' :: rest⟩ = .ok (s, ⟨after, rest⟩) := by
  obtain ⟨after, hread⟩ := string_units s position rest
  rw [Text.joined_of_whole hs] at hread
  exact ⟨after, hread⟩

end Json

end TableSteward

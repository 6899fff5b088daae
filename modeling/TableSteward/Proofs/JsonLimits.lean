import TableSteward.Proofs.JsonDocument

/-!
# The limits of the reader

A text that is no document stops the reader at some position.  Besides, the reader refuses an integer with too many
digits and a nesting that is too deep, and then the text holds so many digits in a row, or so many opening brackets.
-/
set_option autoImplicit false

namespace TableSteward.Json

variable {α β : Type} {room : Nat} {cs ds : List Char}

/-- More digits stand in a row than an integer may have. -/
def HasLongRun (cs : List Char) : Prop :=
  ∃ run, run <:+: cs ∧ (∀ c ∈ run, c.isDigit = true) ∧ Text.maxDigits < run.length

def isOpening (c : Char) : Bool := c == '[' || c == '\x7b'

/-- How many lists and dictionaries are opened, if none of the brackets stands in a string. -/
def openings (cs : List Char) : Nat := cs.countP isOpening

/-- The reader gets further on in the text, or the text accounts for the limit that it comes to. -/
def Accounts (room : Nat) (cs : List Char) : Except Fault (α × Cursor) → Prop
  | .ok (_, after) => after.rest <:+ cs
  | .error (.malformed _) => True
  | .error .tooManyDigits => HasLongRun cs
  | .error .tooDeep => room < openings cs

theorem openings_cons {c : Char} (hc : isOpening c = true) (cs : List Char) : openings (c :: cs) = openings cs + 1 :=
  List.countP_cons_of_pos hc

namespace Accounts

theorem mono {r : Except Fault (α × Cursor)} (h : Accounts room cs r) (hcs : cs <:+ ds) : Accounts room ds r := by
  rcases r with (position | _ | _) | ⟨a, after⟩
  · trivial
  · obtain ⟨run, hrun, hdigits⟩ := h
    exact ⟨run, hrun.trans hcs.isInfix, hdigits⟩
  · exact Nat.lt_of_lt_of_le h (hcs.sublist.countP_le ..)
  · exact List.IsSuffix.trans h hcs

theorem bind {x : Except Fault (α × Cursor)} {k : α × Cursor → Except Fault (β × Cursor)} (hx : Accounts room cs x)
    (hk : ∀ a after, after.rest <:+ cs → Accounts room cs (k (a, after))) : Accounts room cs (x >>= k) := by
  rcases x with (position | _ | _) | ⟨a, after⟩
  · trivial
  · exact hx
  · exact hx
  · exact hk a after hx

/-- A bracket takes one level of the room. -/
theorem inside {r : Except Fault (α × Cursor)} {c : Char} (hc : isOpening c = true) (h : Accounts room cs r) :
    Accounts (room + 1) (c :: cs) r := by
  rcases r with (position | _ | _) | ⟨a, after⟩
  · trivial
  · exact (h : Accounts (room + 1) cs (.error .tooManyDigits : Except Fault (α × Cursor))).mono (List.suffix_cons c cs)
  · show room + 1 < openings (c :: cs)
    rw [openings_cons hc]
    exact Nat.succ_lt_succ h
  · exact List.IsSuffix.trans h (List.suffix_cons c cs)

end Accounts

theorem rest_advance (c : Cursor) (n : Nat) : (c.advance n).rest <:+ c.rest := List.drop_suffix n c.rest

theorem rest_skipSpace (c : Cursor) : c.skipSpace.rest <:+ c.rest := rest_advance c _

/-! ## Strings and numbers -/

theorem accounts_stringUnits (room opening position : Nat) (cs : List Char) :
    Accounts room cs (stringUnits opening position cs) := by
  fun_induction stringUnits opening position cs with
  | case1 | case3 | case4 | case6 | case7 | case9 => trivial
  | case2 position rest => exact List.suffix_cons '"' rest
  | case5 position a b c d e rest unit hunit ih =>
      exact (ih.mono ⟨['\\', 'u', a, b, c, d], rfl⟩).bind fun _ _ h => h
  | case8 position c rest _ _ char hchar ih => exact (ih.mono ⟨['\\', c], rfl⟩).bind fun _ _ h => h
  | case10 position c rest _ _ _ _ _ _ ih => exact (ih.mono (List.suffix_cons c rest)).bind fun _ _ h => h

theorem accounts_string (room : Nat) (c : Cursor) : Accounts room c.rest (string c) :=
  (accounts_stringUnits ..).bind fun _ _ h => h

theorem starts_wholeDigits (cs : List Char) : wholeDigits cs <+: cs := by
  unfold wholeDigits
  split
  · exact ⟨_, rfl⟩
  · exact List.takeWhile_prefix _

theorem isDigit_wholeDigits (cs : List Char) : ∀ c ∈ wholeDigits cs, c.isDigit = true := by
  intro c hc
  unfold wholeDigits at hc
  split at hc
  · rw [List.mem_singleton.mp hc]
    rfl
  · exact (List.all_eq_true.mp List.all_takeWhile) c hc

theorem accounts_number (room : Nat) (c : Cursor) : Accounts room c.rest (number c) := by
  unfold number
  extract_lets negative start whole afterWhole fraction afterFraction
  have hstart : start.rest <:+ c.rest := by
    unfold start
    split
    · exact rest_advance c 1
    · exact List.suffix_refl _
  have hwhole : afterWhole.rest <:+ c.rest := (rest_advance start _).trans hstart
  have hfraction : afterFraction.rest <:+ c.rest := by
    unfold afterFraction
    split
    · exact hwhole
    · exact (rest_advance afterWhole _).trans hwhole
  split
  · trivial
  · split
    · split
      · rename_i hlong
        have hrun : whole <:+: c.rest := (starts_wholeDigits start.rest).isInfix.trans hstart.isInfix
        exact ⟨whole, hrun, isDigit_wholeDigits start.rest, hlong⟩
      · exact hwhole
    · exact (rest_advance afterFraction _).trans hfraction

/-! ## Values -/

theorem accounts_value_succ {fuel : Nat} (hmembers : ∀ room c, Accounts room c.rest (members room fuel c))
    (helements : ∀ room c, Accounts room c.rest (elements room fuel c)) (room : Nat) (c : Cursor) :
    Accounts room c.rest (value room (fuel + 1) c) := by
  have hinside : ∀ {b tail}, c.rest = b :: tail → (c.advance 1).skipSpace.rest <:+ tail := by
    intro b tail hrest
    have htail : (c.advance 1).rest = tail := by rw [Cursor.advance, hrest, List.drop_one, List.tail_cons]
    exact htail ▸ rest_skipSpace (c.advance 1)
  have hclosed : ((c.advance 1).skipSpace.advance 1).rest <:+ c.rest :=
    (rest_advance _ 1).trans ((rest_skipSpace _).trans (rest_advance c 1))
  rw [value.eq_def]
  simp only
  split
  case h_1 => exact ((accounts_string _ (c.advance 1)).mono (rest_advance c 1)).bind fun _ _ h => h
  case h_2 tail hrest | h_3 tail hrest =>
    show 0 < openings c.rest
    rw [hrest, openings_cons rfl]
    exact Nat.succ_pos _
  -- what is inside has one level less, and the bracket in front of it is one opening more
  case h_4 tail room hrest =>
    split
    · exact hclosed
    · rw [hrest]
      exact (((hmembers room _).mono (hinside hrest)).inside rfl).bind fun _ _ h => h
  case h_5 tail room hrest =>
    split
    · exact hclosed
    · rw [hrest]
      exact (((helements room _).mono (hinside hrest)).inside rfl).bind fun _ _ h => h
  case h_6 =>
    split
    · exact rest_advance c _
    · exact accounts_number _ c

theorem accounts_members_succ {fuel : Nat} (hvalue : ∀ room c, Accounts room c.rest (value room fuel c))
    (hmembers : ∀ room c, Accounts room c.rest (members room fuel c)) (room : Nat) (c : Cursor) :
    Accounts room c.rest (members room (fuel + 1) c) := by
  rw [members.eq_def]
  simp only
  split
  · apply ((accounts_string room (c.advance 1)).mono (rest_advance c 1)).bind
    intro key behind hkey
    dsimp only
    have hkey := (rest_skipSpace behind).trans hkey
    split
    · have hcolon := (rest_skipSpace _).trans ((rest_advance behind.skipSpace 1).trans hkey)
      apply ((hvalue room _).mono hcolon).bind
      intro v after hafter
      dsimp only
      have hafter := (rest_skipSpace after).trans hafter
      split
      · exact (rest_advance _ 1).trans hafter
      · have hcomma := (rest_skipSpace _).trans ((rest_advance after.skipSpace 1).trans hafter)
        exact ((hmembers room _).mono hcomma).bind fun _ _ h => h
      · trivial
    · trivial
  · trivial

theorem accounts_elements_succ {fuel : Nat} (hvalue : ∀ room c, Accounts room c.rest (value room fuel c))
    (helements : ∀ room c, Accounts room c.rest (elements room fuel c)) (room : Nat) (c : Cursor) :
    Accounts room c.rest (elements room (fuel + 1) c) := by
  rw [elements.eq_def]
  simp only
  apply (hvalue room c).bind
  intro v after hafter
  dsimp only
  have hafter := (rest_skipSpace after).trans hafter
  split
  · exact (rest_advance _ 1).trans hafter
  · have hcomma := (rest_skipSpace _).trans ((rest_advance after.skipSpace 1).trans hafter)
    exact ((helements room _).mono hcomma).bind fun _ _ h => h
  · trivial

/-- Values, members and elements call one another with less fuel, so all three are accounted for together. -/
theorem accounts_of_fuel (fuel : Nat) :
    (∀ room c, Accounts room c.rest (value room fuel c)) ∧ (∀ room c, Accounts room c.rest (members room fuel c)) ∧
      ∀ room c, Accounts room c.rest (elements room fuel c) := by
  induction fuel with
  | zero => exact ⟨fun _ _ => trivial, fun _ _ => trivial, fun _ _ => trivial⟩
  | succ fuel ih =>
      obtain ⟨hvalue, hmembers, helements⟩ := ih
      exact ⟨accounts_value_succ hmembers helements, accounts_members_succ hvalue hmembers,
        accounts_elements_succ hvalue helements⟩

/-! ## Documents -/

/-- The value that a text begins with, if it does not begin with a byte order mark. -/
def first (s : String) : Except Fault (Value × Cursor) :=
  value deepest (2 * s.toList.length + 2) (Cursor.skipSpace ⟨0, s.toList⟩)

theorem accounts_first (s : String) : Accounts deepest s.toList (first s) :=
  ((accounts_of_fuel _).1 deepest _).mono (rest_skipSpace _)

/-- Reading comes to that value, or the text is malformed in front of it or behind it. -/
theorem read_cases (s : String) :
    (∃ position, read s = .error (.malformed position)) ∨ read s = (first s).map Prod.fst := by
  unfold read
  extract_lets cs
  split
  · exact .inl ⟨0, rfl⟩
  · have hfirst : value deepest (2 * cs.length + 2) (Cursor.skipSpace ⟨0, cs⟩) = first s := rfl
    rw [hfirst]
    rcases first s with fault | ⟨v, after⟩
    · exact .inr rfl
    · by_cases hend : after.skipSpace.rest.isEmpty = true
      · exact .inr (if_pos hend)
      · exact .inl ⟨_, if_neg hend⟩

theorem accounts_of_read {s : String} {fault : Fault} (h : read s = .error fault) :
    Accounts deepest s.toList (.error fault : Except Fault (Value × Cursor)) := by
  have haccounts := accounts_first s
  rcases read_cases s with ⟨position, hread⟩ | hread
  · cases h.symm.trans hread
    trivial
  · rw [h] at hread
    rcases hfirst : first s with stop | ⟨v, after⟩
    · rw [hfirst] at hread haccounts
      cases hread
      exact haccounts
    · rw [hfirst] at hread
      cases hread

theorem hasLongRun_of_read {s : String} (h : read s = .error .tooManyDigits) : HasLongRun s.toList :=
  accounts_of_read h

theorem openings_of_read {s : String} (h : read s = .error .tooDeep) : deepest < openings s.toList :=
  accounts_of_read h

/-! ## Lists -/

theorem number_not_list {c after : Cursor} {items : List Value} : number c ≠ .ok (.list items, after) := by
  unfold number
  extract_lets negative start whole afterWhole fraction afterFraction
  intro h
  split at h
  · cases h
  · split at h
    · split at h <;> cases h
    · cases h

theorem constant?_not_list {cs : List Char} {items : List Value} {length : Nat} :
    constant? cs ≠ some (.list items, length) := by
  intro h
  obtain ⟨⟨name, v⟩, hfind, hv⟩ := Option.map_eq_some_iff.mp h
  have hmem := List.mem_of_find?_eq_some hfind
  cases hv
  simp [constants] at hmem

/-- A list begins with its bracket, and with that bracket nothing but a list begins. -/
theorem value_bracket {room fuel : Nat} {c after : Cursor} {v : Value} (h : value room fuel c = .ok (v, after)) :
    (∃ items, v = .list items) ↔ ∃ tail, c.rest = '[' :: tail := by
  cases fuel with
  | zero => cases h
  | succ fuel =>
      rw [value.eq_def] at h
      simp only at h
      split at h
      case h_1 tail hrest =>
        rcases hstring : string (c.advance 1) with fault | ⟨s, behind⟩ <;> rw [hstring] at h <;> cases h
        simp [hrest]
      case h_2 | h_3 => cases h
      case h_4 tail room hrest =>
        split at h
        · cases h
          simp [hrest]
        · rcases hmembers : members room fuel (c.advance 1).skipSpace with fault | ⟨entries, behind⟩ <;>
            rw [hmembers] at h <;> cases h
          simp [hrest]
      case h_5 tail room hrest =>
        refine iff_of_true ?_ ⟨tail, hrest⟩
        split at h
        · cases h
          exact ⟨[], rfl⟩
        · rcases helements : elements room fuel (c.advance 1).skipSpace with fault | ⟨items, behind⟩ <;>
            rw [helements] at h <;> cases h
          exact ⟨items, rfl⟩
      case h_6 room _ _ _ _ hzero _ hsucc =>
        refine iff_of_false ?_ ?_
        · rintro ⟨items, rfl⟩
          split at h
          · rename_i hconstant
            cases h
            exact constant?_not_list hconstant
          · exact number_not_list h
        · rintro ⟨tail, hrest⟩
          rcases Nat.eq_zero_or_eq_succ_pred room with hroom | hroom
          · exact hzero tail hrest hroom
          · exact hsucc tail _ hrest hroom

theorem read_bracket {s : String} {v : Value} (h : read s = .ok v) :
    (∃ items, v = .list items) ↔ ∃ tail, (Cursor.skipSpace ⟨0, s.toList⟩).rest = '[' :: tail := by
  rcases read_cases s with ⟨position, hread⟩ | hread
  · cases h.symm.trans hread
  · rw [h] at hread
    rcases hfirst : first s with stop | ⟨w, after⟩
    · rw [hfirst] at hread
      cases hread
    · rw [hfirst] at hread
      cases hread
      exact value_bracket hfirst

/-! ## Beyond the limits -/

/-- Nothing can continue a number here. -/
def Breaks (rest : List Char) : Prop := ∀ c ∈ rest.head?, c.isDigit = false ∧ c ≠ '.' ∧ c ≠ 'e' ∧ c ≠ 'E'

theorem Breaks.takeWhile {rest : List Char} (h : Breaks rest) : rest.takeWhile Char.isDigit = [] := by
  cases rest with
  | nil => rfl
  | cons c rest => exact List.takeWhile_cons_of_neg (by simp [(h c rfl).1])

theorem number_long {whole : List Char} (hwhole : IsWhole whole) (hlong : Text.maxDigits < whole.length)
    {rest : List Char} (hrest : Breaks rest) (position : Nat) :
    number ⟨position, whole ++ rest⟩ = .error .tooManyDigits := by
  have hsign : ((whole ++ rest).head? == some '-') = false := by
    obtain ⟨c, others, rfl⟩ := List.exists_cons_of_ne_nil hwhole.ne_nil
    have hdigit := hwhole.digits c List.mem_cons_self
    rw [List.cons_append, List.head?_cons, beq_eq_false_iff_ne]
    rintro ⟨⟩
    cases hdigit
  have hempty : whole.isEmpty = false := by simpa using hwhole.ne_nil
  have hfraction : fractionDigits rest = [] := by
    cases rest with
    | nil => rfl
    | cons c rest =>
        rw [fractionDigits]
        rintro others ⟨⟩
        exact (hrest '.' rfl).2.1 rfl
  have hexponent : exponentPart rest = none := by
    cases rest with
    | nil => rfl
    | cons c rest =>
        obtain ⟨-, -, he, hE⟩ := hrest c rfl
        simp [exponentPart.eq_def, he, hE]
  simp only [number, hsign, Bool.false_eq_true, if_false, hwhole.read hrest.takeWhile, hempty, Cursor.advance_append,
    hfraction, List.isEmpty_nil, if_true, hexponent, if_pos hlong]

/-- A list stops where its first item does. -/
theorem value_list_error {c : Char} (hspace : isSpace c = false) (hclose : c ≠ ']') {room fuel position : Nat}
    {rest : List Char} {fault : Fault} (h : value room fuel ⟨position + 1, c :: rest⟩ = .error fault) :
    value (room + 1) (fuel + 2) ⟨position, '[' :: c :: rest⟩ = .error fault := by
  have helements : elements room (fuel + 1) ⟨position + 1, c :: rest⟩ = .error fault := by
    rw [elements, h]
    rfl
  rw [value.eq_def]
  simp only [Cursor.advance, List.drop_succ_cons, List.drop_zero, skipSpace_of_false hspace]
  split
  · rename_i heq
    exact absurd (List.cons.inj heq).1 hclose
  · rw [helements]
    rfl

/-- A document stops where its value does. -/
theorem read_error {c : Char} {cs : List Char} (hspace : isSpace c = false) (hmark : c ≠ byteOrderMark) {fault : Fault}
    (h : ∀ fuel, 2 * cs.length + 2 ≤ fuel → value deepest fuel ⟨0, c :: cs⟩ = .error fault) :
    read (String.ofList (c :: cs)) = .error fault := by
  have hfirst := h (2 * (c :: cs).length + 2) (by simp)
  have hmark : (some c == some byteOrderMark) = false := by simpa using hmark
  rw [read]
  simp only [String.toList_ofList, List.head?_cons, hmark, Bool.false_eq_true, if_false, skipSpace_of_false hspace,
    hfirst]
  rfl

theorem numeral_whole (whole : List Char) : numeral false whole [] none = whole := by
  simp [numeral, exponentChars]

theorem value_long {whole : List Char} (hwhole : IsWhole whole) (hlong : Text.maxDigits < whole.length)
    {rest : List Char} (hrest : Breaks rest) (room fuel position : Nat) :
    value room (fuel + 1) ⟨position, whole ++ rest⟩ = .error .tooManyDigits := by
  have hnumber := number_long hwhole hlong hrest position
  have hconstant := constant?_numeral false hwhole [] none rest
  rw [numeral_whole] at hconstant
  obtain ⟨c, others, rfl⟩ := List.exists_cons_of_ne_nil hwhole.ne_nil
  have hdigit := hwhole.digits c List.mem_cons_self
  rw [List.cons_append] at hnumber hconstant ⊢
  rw [value_plain, hconstant]
  · exact hnumber
  all_goals
    rintro rfl
    cases hdigit

theorem read_long {whole : List Char} (hwhole : IsWhole whole) (hlong : Text.maxDigits < whole.length)
    {rest : List Char} (hrest : Breaks rest) :
    read (String.ofList ('[' :: (whole ++ rest))) = .error .tooManyDigits := by
  apply read_error rfl (by decide)
  intro fuel hfuel
  have hroom : 3 ≤ fuel := by
    rw [List.length_append] at hfuel
    omega
  obtain ⟨fuel, rfl⟩ := Nat.exists_eq_add_of_le' hroom
  have hvalue := value_long hwhole hlong hrest 984 fuel 1
  have hopens : Opens (numeral false whole [] none) := opens_numeral hwhole [] none
  rw [numeral_whole] at hopens
  obtain ⟨c, others, rfl, hspace, hclose, -, -⟩ := hopens
  exact value_list_error hspace hclose hvalue

theorem value_deep (room fuel position : Nat) (rest : List Char) :
    value room (2 * room + 1 + fuel) ⟨position, List.replicate (room + 1) '[' ++ rest⟩ = .error .tooDeep := by
  induction room generalizing position with
  | zero => rw [Nat.add_comm]; rfl
  | succ room ih =>
      have hfuel : 2 * (room + 1) + 1 + fuel = 2 * room + 1 + fuel + 2 := by omega
      rw [hfuel]
      exact value_list_error rfl (by decide) (ih (position + 1))

theorem read_deep {levels : Nat} (hlevels : deepest < levels) (rest : List Char) :
    read (String.ofList (List.replicate levels '[' ++ rest)) = .error .tooDeep := by
  obtain ⟨more, rfl⟩ := Nat.exists_eq_add_of_le hlevels
  rw [List.replicate_add, List.append_assoc, Nat.succ_eq_add_one, List.replicate_succ, List.cons_append]
  apply read_error rfl (by decide)
  intro fuel hfuel
  have hroom : 2 * deepest + 1 ≤ fuel := by
    rw [List.length_append, List.length_replicate] at hfuel
    omega
  obtain ⟨fuel, rfl⟩ := Nat.exists_eq_add_of_le hroom
  exact value_deep deepest fuel 0 _

end TableSteward.Json

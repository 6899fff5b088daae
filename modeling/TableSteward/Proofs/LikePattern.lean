import Mathlib.Data.List.Infix
import TableSteward.Proofs.FilterLists

/-!
# Patterns of texts

In a pattern `%` stands for any text, `_` for any one character, and a backslash makes the next character stand for
itself; a backslash with nothing behind it is no pattern.  The pattern of a `contains` filter is read as the text of the
filter between two `%`, whatever characters are in that text.
-/
set_option autoImplicit false

namespace TableSteward

/-! ## Patterns -/

inductive LikePiece
  | anyText
  | anyChar
  | char (c : Char)
  deriving DecidableEq, Repr

namespace LikePiece

/-- What a character stands for that is not escaped. -/
def ofChar (c : Char) : LikePiece := if c = '%' then anyText else if c = '_' then anyChar else char c

/-- The texts that pieces stand for, one after another. -/
inductive Matches : List LikePiece → List Char → Prop
  | done : Matches [] []
  | anyText {skipped s : List Char} {ps : List LikePiece} : Matches ps s → Matches (anyText :: ps) (skipped ++ s)
  | anyChar {c : Char} {s : List Char} {ps : List LikePiece} : Matches ps s → Matches (anyChar :: ps) (c :: s)
  | char {c : Char} {s : List Char} {ps : List LikePiece} : Matches ps s → Matches (char c :: ps) (c :: s)

/-- The matcher tries all ways to skip a text. -/
def accepts : List LikePiece → List Char → Bool
  | [], s => s.isEmpty
  | anyText :: ps, s => s.tails.any (accepts ps)
  | anyChar :: ps, s => match s with
      | [] => false
      | _ :: s => accepts ps s
  | char c :: ps, s => match s with
      | [] => false
      | d :: s => c == d && accepts ps s

theorem matches_nil_iff {s : List Char} : Matches [] s ↔ s = [] := by
  constructor
  · intro h
    cases h
    rfl
  · rintro rfl
    exact .done

theorem matches_anyText_iff {ps : List LikePiece} {s : List Char} :
    Matches (anyText :: ps) s ↔ ∃ skipped rest, s = skipped ++ rest ∧ Matches ps rest := by
  constructor
  · intro h
    cases h with
    | @anyText skipped rest _ hrest => exact ⟨skipped, rest, rfl, hrest⟩
  · rintro ⟨skipped, rest, rfl, hrest⟩
    exact .anyText hrest

theorem matches_anyChar_iff {ps : List LikePiece} {s : List Char} :
    Matches (anyChar :: ps) s ↔ ∃ c rest, s = c :: rest ∧ Matches ps rest := by
  constructor
  · intro h
    cases h with
    | @anyChar c rest _ hrest => exact ⟨c, rest, rfl, hrest⟩
  · rintro ⟨c, rest, rfl, hrest⟩
    exact .anyChar hrest

theorem matches_char_iff {c : Char} {ps : List LikePiece} {s : List Char} :
    Matches (char c :: ps) s ↔ ∃ rest, s = c :: rest ∧ Matches ps rest := by
  constructor
  · intro h
    cases h with
    | @char _ rest _ hrest => exact ⟨rest, rfl, hrest⟩
  · rintro ⟨rest, rfl, hrest⟩
    exact .char hrest

theorem accepts_iff {ps : List LikePiece} {s : List Char} : accepts ps s = true ↔ Matches ps s := by
  induction ps generalizing s with
  | nil => rw [accepts, List.isEmpty_iff, matches_nil_iff]
  | cons p ps ih =>
      cases p with
      | anyText =>
          rw [accepts, List.any_eq_true, matches_anyText_iff]
          constructor
          · rintro ⟨rest, hsuffix, hrest⟩
            obtain ⟨skipped, rfl⟩ := (List.mem_tails _ _).mp hsuffix
            exact ⟨skipped, rest, rfl, ih.mp hrest⟩
          · rintro ⟨skipped, rest, rfl, hrest⟩
            exact ⟨rest, (List.mem_tails _ _).mpr (List.suffix_append skipped rest), ih.mpr hrest⟩
      | anyChar =>
          rw [accepts.eq_def, matches_anyChar_iff]
          cases s with
          | nil => simp
          | cons d s => simp [ih]
      | char c =>
          rw [accepts.eq_def, matches_char_iff]
          cases s with
          | nil => simp
          | cons d s => simp [ih, eq_comm (a := c)]

instance (ps : List LikePiece) (s : List Char) : Decidable (Matches ps s) :=
  decidable_of_iff _ accepts_iff

/-- Characters that stand for themselves are what a matching text begins with. -/
theorem matches_chars_iff {v : List Char} {ps : List LikePiece} {s : List Char} :
    Matches (v.map char ++ ps) s ↔ ∃ rest, s = v ++ rest ∧ Matches ps rest := by
  induction v generalizing s with
  | nil => simp
  | cons c v ih =>
      rw [List.map_cons, List.cons_append, matches_char_iff]
      constructor
      · rintro ⟨_, rfl, h⟩
        obtain ⟨rest, rfl, hrest⟩ := ih.mp h
        exact ⟨rest, rfl, hrest⟩
      · rintro ⟨rest, rfl, hrest⟩
        exact ⟨v ++ rest, rfl, ih.mpr ⟨rest, rfl, hrest⟩⟩

theorem matches_anyText {s : List Char} : Matches [anyText] s := by
  have h : Matches [anyText] (s ++ []) := .anyText .done
  rwa [List.append_nil] at h

theorem matches_infix_iff {v s : List Char} : Matches (anyText :: (v.map char ++ [anyText])) s ↔ v <:+: s := by
  rw [matches_anyText_iff]
  simp only [matches_chars_iff, matches_anyText]
  constructor
  · rintro ⟨before, _, rfl, after, rfl, -⟩
    exact ⟨before, after, List.append_assoc ..⟩
  · rintro ⟨before, after, rfl⟩
    exact ⟨before, v ++ after, List.append_assoc .., after, rfl, trivial⟩

/-- The pieces of a pattern; there are none if its last backslash escapes nothing. -/
def ofPattern? : List Char → Option (List LikePiece)
  | [] => some []
  | c :: rest =>
      if c = '\\' then
        match rest with
        | [] => none
        | escaped :: rest => (ofPattern? rest).map (char escaped :: ·)
      else (ofPattern? rest).map (ofChar c :: ·)

theorem ofPattern?_escaped (c : Char) (rest : List Char) :
    ofPattern? ('\\' :: c :: rest) = (ofPattern? rest).map (char c :: ·) := by
  rw [ofPattern?.eq_def]
  exact if_pos rfl

theorem ofPattern?_plain {c : Char} (h : c ≠ '\\') (rest : List Char) :
    ofPattern? (c :: rest) = (ofPattern? rest).map (ofChar c :: ·) := by
  rw [ofPattern?.eq_def]
  exact if_neg h

/-- The last backslash escapes nothing: what stands before it is a whole pattern. -/
def Dangling (pattern : List Char) : Prop :=
  ∃ before, pattern = before ++ ['\\'] ∧ ∃ ps, ofPattern? before = some ps

theorem dangling_escaped_iff {c : Char} {rest : List Char} : Dangling ('\\' :: c :: rest) ↔ Dangling rest := by
  constructor
  · rintro ⟨before, hbefore, ps, hps⟩
    rcases before with _ | ⟨a, _ | ⟨b, before⟩⟩
    · simp at hbefore
    · obtain ⟨rfl, -⟩ : '\\' = a ∧ _ := by simpa using hbefore
      simp [ofPattern?] at hps
    · obtain ⟨rfl, rfl, rfl⟩ : '\\' = a ∧ c = b ∧ rest = before ++ ['\\'] := by simpa using hbefore
      rw [ofPattern?_escaped, Option.map_eq_some_iff] at hps
      obtain ⟨qs, hqs, -⟩ := hps
      exact ⟨before, rfl, qs, hqs⟩
  · rintro ⟨before, rfl, ps, hps⟩
    exact ⟨'\\' :: c :: before, rfl, char c :: ps, by rw [ofPattern?_escaped, hps]; rfl⟩

theorem dangling_plain_iff {c : Char} (h : c ≠ '\\') {rest : List Char} :
    Dangling (c :: rest) ↔ Dangling rest := by
  constructor
  · rintro ⟨before, hbefore, ps, hps⟩
    rcases before with _ | ⟨a, before⟩
    · obtain ⟨rfl, -⟩ : c = '\\' ∧ rest = [] := by simpa using hbefore
      exact absurd rfl h
    · obtain ⟨rfl, rfl⟩ : c = a ∧ rest = before ++ ['\\'] := by simpa using hbefore
      rw [ofPattern?_plain h, Option.map_eq_some_iff] at hps
      obtain ⟨qs, hqs, -⟩ := hps
      exact ⟨before, rfl, qs, hqs⟩
  · rintro ⟨before, rfl, ps, hps⟩
    exact ⟨c :: before, rfl, ofChar c :: ps, by rw [ofPattern?_plain h, hps]; rfl⟩

theorem ofPattern?_eq_none_iff {pattern : List Char} : ofPattern? pattern = none ↔ Dangling pattern := by
  induction pattern using ofPattern?.induct with
  | case1 => simp [ofPattern?, Dangling]
  | case2 => simp [ofPattern?, Dangling]
  | case3 escaped rest ih => rw [ofPattern?_escaped, Option.map_eq_none_iff, ih, dangling_escaped_iff]
  | case4 c rest hc ih => rw [ofPattern?_plain hc, Option.map_eq_none_iff, ih, dangling_plain_iff hc]

end LikePiece

/-- A text that a pattern stands for. -/
def Like (pattern s : String) : Prop :=
  ∃ ps, LikePiece.ofPattern? pattern.toList = some ps ∧ LikePiece.Matches ps s.toList

instance (pattern s : String) : Decidable (Like pattern s) :=
  match hread : LikePiece.ofPattern? pattern.toList with
  | none => isFalse fun ⟨_, h, _⟩ => nomatch hread.symm.trans h
  | some ps => decidable_of_iff (LikePiece.Matches ps s.toList)
      ⟨fun h => ⟨ps, hread, h⟩, fun ⟨_, h, hmatches⟩ => Option.some.inj (hread.symm.trans h) ▸ hmatches⟩

example : Like "_%\\%" "ab%" ∧ ¬ Like "_%\\%" "%" ∧ ¬ Like "a\\" "a\\" := by decide

/-! ## Escaped texts -/

namespace Condition

/-- A text with a backslash before each character of one kind. -/
def escapeAll (marked : Char) (s : List Char) : List Char :=
  s.flatMap fun c => if c = marked then ['\\', c] else [c]

theorem escapeAll_append (marked : Char) (s t : List Char) :
    escapeAll marked (s ++ t) = escapeAll marked s ++ escapeAll marked t := List.flatMap_append

/-- Backslashes are escaped first: those that are put in later are no characters of the text. -/
theorem escapeChar_eq (c : Char) : escapeChar c = escapeAll '_' (escapeAll '%' (escapeAll '\\' [c])) := by
  by_cases hbackslash : c = '\\'
  · subst hbackslash
    decide
  by_cases hpercent : c = '%'
  · subst hpercent
    decide
  by_cases hunderscore : c = '_'
  · subst hunderscore
    decide
  simp [escapeChar, escapeAll, hbackslash, hpercent, hunderscore]

theorem flatMap_escapeChar (v : List Char) :
    v.flatMap escapeChar = escapeAll '_' (escapeAll '%' (escapeAll '\\' v)) := by
  induction v with
  | nil => rfl
  | cons c v ih =>
      rw [List.flatMap_cons, ih, escapeChar_eq, ← escapeAll_append, ← escapeAll_append, ← escapeAll_append]
      rfl

theorem ofPattern?_escapeChar (c : Char) (rest : List Char) :
    LikePiece.ofPattern? (escapeChar c ++ rest) = (LikePiece.ofPattern? rest).map (.char c :: ·) := by
  rw [escapeChar]
  split
  · exact LikePiece.ofPattern?_escaped c rest
  · rename_i hplain
    simp only [Bool.or_eq_true, beq_iff_eq, not_or] at hplain
    obtain ⟨⟨hbackslash, hpercent⟩, hunderscore⟩ := hplain
    rw [List.singleton_append, LikePiece.ofPattern?_plain hbackslash, LikePiece.ofChar, if_neg hpercent,
      if_neg hunderscore]

theorem ofPattern?_flatMap_escapeChar (v rest : List Char) :
    LikePiece.ofPattern? (v.flatMap escapeChar ++ rest) =
      (LikePiece.ofPattern? rest).map (v.map LikePiece.char ++ ·) := by
  induction v with
  | nil => simp
  | cons c v ih =>
      rw [List.flatMap_cons, List.append_assoc, ofPattern?_escapeChar, ih, Option.map_map]
      rfl

theorem ofPattern?_containsPattern (v : String) :
    LikePiece.ofPattern? (containsPattern v).toList =
      some (.anyText :: (v.toList.map LikePiece.char ++ [.anyText])) := by
  rw [containsPattern, String.toList_ofList, List.cons_append, LikePiece.ofPattern?_plain (by decide),
    ofPattern?_flatMap_escapeChar]
  rfl

theorem like_containsPattern_iff {v s : String} : Like (containsPattern v) s ↔ v.toList <:+: s.toList := by
  unfold Like
  rw [ofPattern?_containsPattern]
  constructor
  · rintro ⟨_, hread, hmatches⟩
    obtain rfl := Option.some.inj hread
    exact LikePiece.matches_infix_iff.mp hmatches
  · intro hinfix
    exact ⟨_, rfl, LikePiece.matches_infix_iff.mpr hinfix⟩

end Condition

namespace Where

/-- A `contains` filter holds of the texts that its value is a part of, and of no others.  The pattern that is bound is
its value with backslashes before backslashes, percent signs and underscores, between two percent signs. -/
theorem contains_selects_literally (resolve : Resolver) (column v : String) (k : Int) {e : ColumnExpr}
    (hcolumn : resolve column = .ok e) :
    ∃ w pattern, ofValues resolve [FilterSpec.toValue ⟨column, "contains", .text v⟩] k = .ok w ∧
      w.sql = "CAST(" ++ e.sql ++ " AS TEXT) ILIKE " ++ placeholder (k + 1) ∧
      w.params = [(paramName (k + 1), .text pattern)] ∧
      pattern.toList =
        '%' :: Condition.escapeAll '_' (Condition.escapeAll '%' (Condition.escapeAll '\\' v.toList)) ++ ['%'] ∧
      ¬ LikePiece.Dangling pattern.toList ∧
      ∀ s, Like pattern s ↔ v.toList <:+: s.toList := by
  have hcompiled : ofValues resolve [FilterSpec.toValue ⟨column, "contains", .text v⟩] k =
      .ok ⟨[.contains e (Condition.containsPattern v)], k⟩ := by
    have hcondition : conditionOf resolve (FilterSpec.toValue ⟨column, "contains", .text v⟩) =
        .ok (.contains e (Condition.containsPattern v)) := by
      rw [conditionOf_toValue, condition, hcolumn]
      rfl
    exact ofValues_ok_iff.mpr ⟨_, by rw [List.mapM_cons, hcondition]; rfl, rfl⟩
  refine ⟨_, Condition.containsPattern v, hcompiled, ?_, rfl, ?_, ?_, fun s => Condition.like_containsPattern_iff⟩
  · exact String.intercalate_singleton
  · rw [Condition.containsPattern, String.toList_ofList, Condition.flatMap_escapeChar]
  · rw [← LikePiece.ofPattern?_eq_none_iff, Condition.ofPattern?_containsPattern]
    exact Option.some_ne_none _

/-- A path, in which all three kinds of characters stand for themselves. -/
theorem contains_selects_path :
    Resolver.ofColumns [.text "path"] "path" = .ok ⟨none, ⟨"path", by decide⟩⟩ ∧
      ∃ w, ofValues (.ofColumns [.text "path"])
          [FilterSpec.toValue ⟨"path", "contains", .text "\\a_%"⟩] 2 = .ok w ∧
        w.sql = "CAST(\"path\" AS TEXT) ILIKE :p3" ∧
        w.params = [("p3", .text "%\\\\a\\_\\%%")] ∧
        Like "%\\\\a\\_\\%%" "c:\\a_%b" ∧ ¬ Like "%\\\\a\\_\\%%" "c:\\ab%b" := by
  have hcolumn : Resolver.ofColumns [.text "path"] "path" = .ok ⟨none, ⟨"path", by decide⟩⟩ := rfl
  obtain ⟨w, pattern, hw, hsql, hparams, hpattern, -, hlike⟩ :=
    contains_selects_literally _ "path" "\\a_%" 2 hcolumn
  obtain rfl : pattern = "%\\\\a\\_\\%%" := String.toList_injective (hpattern.trans (by decide))
  refine ⟨hcolumn, w, hw, hsql, hparams, (hlike _).mpr (by decide), mt (hlike _).mp (by decide)⟩

end Where

end TableSteward

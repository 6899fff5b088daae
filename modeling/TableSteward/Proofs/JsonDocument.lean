import TableSteward.Proofs.JsonString
import TableSteward.Proofs.KeyedEntries
import TableSteward.Proofs.Result

/-!
# Documents that are read as they were written

A value of JSON is written on several lines, and the reader finds its parts again: a value ends where its line ends or a
comma follows, and the blanks in front of a value are passed over.  The reader has room for so many levels of nesting
and for so many digits of an integer only, and what it is given must stay within these limits.
-/
set_option autoImplicit false

namespace TableSteward

namespace Value

mutual

/-- A value that a document can hold, with each key of a dictionary once and no half of a surrogate pair. -/
def isJson : Value → Bool
  | list items => isJsonItems items
  | dict entries => decide (Entries.keys entries).Nodup && isJsonEntries entries
  | null => true
  | bool _ => true
  | int n => decide ((Nat.toDigits 10 n.natAbs).length ≤ Text.maxDigits)
  | real x => decide x.IsCanonical
  | text s => !Text.hasHalf s
  | _ => false

def isJsonItems : List Value → Bool
  | [] => true
  | v :: rest => isJson v && isJsonItems rest

def isJsonEntries : List (String × Value) → Bool
  | [] => true
  | (key, v) :: rest => !Text.hasHalf key && isJson v && isJsonEntries rest

end

mutual

/-- How many lists and dictionaries are nested in one another. -/
def depth : Value → Nat
  | list items => depthItems items + 1
  | dict entries => depthEntries entries + 1
  | _ => 0

def depthItems : List Value → Nat
  | [] => 0
  | v :: rest => max (depth v) (depthItems rest)

def depthEntries : List (String × Value) → Nat
  | [] => 0
  | (_, v) :: rest => max (depth v) (depthEntries rest)

end

end Value

namespace Json

/-! ## Blanks -/

/-- The reader does not pass over the first character, nor does it take it for the end of a list or a dictionary or for
a byte order mark. -/
def Opens (cs : List Char) : Prop :=
  ∃ c rest, cs = c :: rest ∧ isSpace c = false ∧ c ≠ ']' ∧ c ≠ '\x7d' ∧ c ≠ byteOrderMark

theorem Opens.append {cs : List Char} (h : Opens cs) (rest : List Char) : Opens (cs ++ rest) := by
  obtain ⟨c, others, rfl, hstart⟩ := h
  exact ⟨c, others ++ rest, rfl, hstart⟩

theorem skipSpace_of_false {c : Char} (hc : isSpace c = false) (position : Nat) (rest : List Char) :
    (⟨position, c :: rest⟩ : Cursor).skipSpace = ⟨position, c :: rest⟩ := by
  rw [Cursor.skipSpace, List.takeWhile_cons_of_neg (by simp [hc])]
  rfl

theorem skipSpace_append {spaces : List Char} (hspaces : ∀ c ∈ spaces, isSpace c = true) (position : Nat)
    (cs : List Char) : (⟨position, spaces ++ cs⟩ : Cursor).skipSpace =
      (⟨position + spaces.length, cs⟩ : Cursor).skipSpace := by
  rw [Cursor.skipSpace, Cursor.skipSpace, List.takeWhile_append_of_pos hspaces, List.length_append]
  simp [Cursor.advance, Nat.add_assoc, List.drop_append]

def breakChars (level : Nat) : List Char := '\n' :: List.replicate (2 * level) ' '

theorem isSpace_breakChars (level : Nat) : ∀ c ∈ breakChars level, isSpace c = true := by
  intro c hc
  rcases List.mem_cons.mp hc with rfl | hc
  · rfl
  · rw [List.eq_of_mem_replicate hc]
    rfl

theorem skipSpace_break (level position : Nat) {c : Char} (hc : isSpace c = false) (rest : List Char) :
    (⟨position, breakChars level ++ c :: rest⟩ : Cursor).skipSpace =
      ⟨position + (breakChars level).length, c :: rest⟩ := by
  rw [skipSpace_append (isSpace_breakChars level), skipSpace_of_false hc]

/-! ## Lines -/

/-- The lines of a block behind its first line break. -/
def lines (closing : Char) (level : Nat) : List String → List Char
  | [] => []
  | [t] => t.toList ++ (breakChars level ++ [closing])
  | t :: rest => t.toList ++ (',' :: (breakChars (level + 1) ++ lines closing level rest))

theorem lines_cons_cons (closing : Char) (level : Nat) (t u : String) (us : List String) :
    lines closing level (t :: u :: us) =
      t.toList ++ (',' :: (breakChars (level + 1) ++ lines closing level (u :: us))) := by
  rw [lines]
  exact List.cons_ne_nil u us

theorem block_toList (opening closing : Char) (level : Nat) (t : String) (ts : List String) :
    (block (String.singleton opening) (String.singleton closing) level (t :: ts)).toList =
      opening :: (breakChars (level + 1) ++ lines closing level (t :: ts)) := by
  have hlines : ∀ (ts : List String) (t : String),
      (((("," ++ lineBreak (level + 1)).intercalate (t :: ts)) ++ lineBreak level ++
        String.singleton closing)).toList = lines closing level (t :: ts) := by
    intro ts
    induction ts with
    | nil =>
        intro t
        rw [String.intercalate_singleton]
        simp [lines, lineBreak, breakChars]
    | cons u ts ih =>
        intro t
        have hrest := ih u
        simp only [String.toList_append] at hrest
        rw [String.intercalate_cons_cons]
        simp only [String.toList_append, lines, List.append_assoc]
        rw [← hrest]
        simp [lineBreak, breakChars]
  have hall := hlines ts t
  simp only [String.toList_append] at hall
  simp only [block, List.isEmpty_cons, Bool.false_eq_true, if_false, String.toList_append, List.append_assoc]
  rw [← hall]
  simp [lineBreak, breakChars]

/-! ## Plain values -/

theorem constant?_numeral (negative : Bool) {whole : List Char} (hwhole : IsWhole whole) (fraction : List Char)
    (exponent : Option Int) (rest : List Char) :
    constant? (numeral negative whole fraction exponent ++ rest) = none := by
  obtain ⟨c, others, rfl⟩ := List.exists_cons_of_ne_nil hwhole.ne_nil
  have hc := hwhole.digits c (List.mem_cons_self ..)
  have hne : ∀ d : Char, d.isDigit = false → (d == c) = false := by
    intro d hd
    rw [beq_eq_false_iff_ne]
    rintro rfl
    rw [hc] at hd
    exact nomatch hd
  cases negative <;>
    simp [constant?, constants, numeral, List.isPrefixOf, hne 'n' rfl, hne 't' rfl, hne 'f' rfl, hne 'N' rfl,
      hne 'I' rfl, hne '-' rfl]

theorem value_plain {c : Char} (hquote : c ≠ '"') (hbrace : c ≠ '\x7b') (hbracket : c ≠ '[') (room fuel position : Nat)
    (rest : List Char) : value room (fuel + 1) ⟨position, c :: rest⟩ =
      match constant? (c :: rest) with
      | some (v, length) => .ok (v, (⟨position, c :: rest⟩ : Cursor).advance length)
      | none => number ⟨position, c :: rest⟩ := by
  rw [value.eq_def]
  simp only
  split
  case h_6 => rfl
  all_goals simp_all

theorem numeral_head (negative : Bool) {whole : List Char} (hwhole : IsWhole whole) (fraction : List Char)
    (exponent : Option Int) : ∃ c rest, numeral negative whole fraction exponent = c :: rest ∧
      (c = '-' ∨ c.isDigit = true) := by
  cases negative with
  | true => exact ⟨'-', _, rfl, .inl rfl⟩
  | false =>
      obtain ⟨c, others, rfl⟩ := List.exists_cons_of_ne_nil hwhole.ne_nil
      exact ⟨c, _, rfl, .inr (hwhole.digits c (List.mem_cons_self ..))⟩

theorem value_numeral {negative : Bool} {whole fraction : List Char} {exponent : Option Int} {v : Value}
    (hwhole : IsWhole whole) {rest : List Char}
    (h : Reads number (numeral negative whole fraction exponent) rest v) (room fuel : Nat) :
    Reads (value room (fuel + 1)) (numeral negative whole fraction exponent) rest v := by
  intro position
  obtain ⟨after, hread⟩ := h position
  refine ⟨after, ?_⟩
  have hconstant := constant?_numeral negative hwhole fraction exponent rest
  obtain ⟨c, others, hcons, hc⟩ := numeral_head negative hwhole fraction exponent
  rw [hcons, List.cons_append] at hread hconstant ⊢
  rw [value_plain, hconstant]
  · exact hread
  all_goals
    rintro rfl
    simp at hc

theorem value_constant {name : String} {v : Value} (hname : (name, v) ∈ constants) (room fuel : Nat)
    (rest : List Char) : Reads (value room (fuel + 1)) name.toList rest v := by
  intro position
  simp only [constants, List.mem_cons, Prod.mk.injEq, List.not_mem_nil, or_false] at hname
  rcases hname with ⟨rfl, rfl⟩ | ⟨rfl, rfl⟩ | ⟨rfl, rfl⟩ | ⟨rfl, rfl⟩ | ⟨rfl, rfl⟩ | ⟨rfl, rfl⟩ <;> exact ⟨_, rfl⟩

theorem opens_numeral {negative : Bool} {whole : List Char} (hwhole : IsWhole whole) (fraction : List Char)
    (exponent : Option Int) : Opens (numeral negative whole fraction exponent) := by
  obtain ⟨c, rest, hcons, hc⟩ := numeral_head negative hwhole fraction exponent
  have hne : ∀ d : Char, d ≠ '-' → d.isDigit = false → c ≠ d := by
    rintro d hminus hdigit rfl
    rcases hc with hc | hc
    · exact hminus hc
    · rw [hdigit] at hc
      exact nomatch hc
  refine ⟨c, rest, hcons, ?_, hne ']' (by decide) rfl, hne '\x7d' (by decide) rfl,
    hne byteOrderMark (by decide) rfl⟩
  simp [isSpace, hne ' ' (by decide) rfl, hne '\t' (by decide) rfl, hne '\n' (by decide) rfl,
    hne '\r' (by decide) rfl]

theorem stringText_append (s : String) (rest : List Char) :
    (stringText s).toList ++ rest = '"' :: (s.toList.flatMap charEscape ++ '"' :: rest) := by
  simp [stringText]

theorem value_text {s : String} (hs : Text.hasHalf s = false) (room fuel : Nat) (rest : List Char) :
    Reads (value room (fuel + 1)) (stringText s).toList rest (.text s) := by
  intro position
  obtain ⟨after, hread⟩ := string_written hs (position + 1) rest
  refine ⟨after, ?_⟩
  rw [stringText_append, value.eq_def]
  simp only [Cursor.advance, List.drop_succ_cons, List.drop_zero, hread]
  rfl

/-- The text of a plain value is read back, and is not taken for blanks or the end of a list. -/
theorem leaf_written {v : Value} (hv : v.isJson = true) {s : String} (hs : leaf? v = some s) (room fuel : Nat)
    {rest : List Char} (hrest : Ends rest) :
    Opens s.toList ∧ Reads (value room (fuel + 1)) s.toList rest v := by
  have hnumeral : ∀ {negative : Bool} {whole fraction : List Char} {exponent : Option Int}, IsWhole whole →
      s.toList = numeral negative whole fraction exponent → Reads number s.toList rest v →
        Opens s.toList ∧ Reads (value room (fuel + 1)) s.toList rest v := by
    intro negative whole fraction exponent hwhole htext hread
    rw [htext] at hread ⊢
    exact ⟨opens_numeral hwhole fraction exponent, value_numeral hwhole hread room fuel⟩
  have hconstant : (s, v) ∈ constants → Opens s.toList ∧ Reads (value room (fuel + 1)) s.toList rest v := by
    intro hmem
    refine ⟨?_, value_constant hmem room fuel rest⟩
    simp only [constants, List.mem_cons, Prod.mk.injEq, List.not_mem_nil, or_false] at hmem
    rcases hmem with ⟨rfl, rfl⟩ | ⟨rfl, rfl⟩ | ⟨rfl, rfl⟩ | ⟨rfl, rfl⟩ | ⟨rfl, rfl⟩ | ⟨rfl, rfl⟩ <;>
      exact ⟨_, _, rfl, by decide, by decide, by decide, by decide⟩
  cases v with
  | null =>
      cases hs
      exact hconstant (by simp [constants])
  | bool b =>
      cases hs
      cases b <;> exact hconstant (by simp [constants])
  | int n =>
      cases hs
      exact hnumeral (isWhole_toDigits _) (toString_int_toList n) (number_int (of_decide_eq_true hv) hrest)
  | real x =>
      cases hs
      cases x with
      | nan => exact hconstant (by simp [constants, realText])
      | infinite negative => cases negative <;> exact hconstant (by simp [constants, realText])
      | finite negative m e =>
          have hcanonical := of_decide_eq_true hv
          obtain ⟨whole, fraction, exponent, htext, hwhole, -⟩ := text_finite hcanonical
          exact hnumeral hwhole htext (number_finite hcanonical hrest)
  | text t =>
      cases hs
      refine ⟨⟨'"', t.toList.flatMap charEscape ++ ['"'], ?_, by decide, by decide, by decide, by decide⟩,
        value_text (by simpa [Value.isJson] using hv) room fuel rest⟩
      have htext := stringText_append t []
      rwa [List.append_nil] at htext
  | list _ | dict _ | _ => exact nomatch hs

/-! ## Nested values -/

theorem Opens.skipSpace_break {cs : List Char} (h : Opens cs) (level position : Nat) (rest : List Char) :
    (⟨position, breakChars level ++ (cs ++ rest)⟩ : Cursor).skipSpace =
      ⟨position + (breakChars level).length, cs ++ rest⟩ := by
  obtain ⟨c, others, rfl, hspace, -⟩ := h
  exact Json.skipSpace_break level position hspace (others ++ rest)

theorem ends_break (level : Nat) (rest : List Char) : Ends (breakChars level ++ rest) := by
  rintro c ⟨⟩
  exact .inr rfl

theorem ends_comma (rest : List Char) : Ends (',' :: rest) := by
  rintro c ⟨⟩
  exact .inl rfl

section Nested

variable {room fuel level : Nat} {cs more rest : List Char} {key : String} {v : Value} {items : List Value}
  {entries : List (String × Value)}

theorem value_nil (room fuel : Nat) (rest : List Char) :
    Reads (value (room + 1) (fuel + 1)) ['[', ']'] rest (.list []) := by
  intro position
  refine ⟨position + 2, ?_⟩
  rw [List.cons_append, value.eq_def]
  simp only [Cursor.advance, List.drop_succ_cons, List.drop_zero, List.singleton_append,
    skipSpace_of_false (c := ']') rfl]

theorem value_empty (room fuel : Nat) (rest : List Char) :
    Reads (value (room + 1) (fuel + 1)) ['\x7b', '\x7d'] rest (.dict []) := by
  intro position
  refine ⟨position + 2, ?_⟩
  rw [List.cons_append, value.eq_def]
  simp only [Cursor.advance, List.drop_succ_cons, List.drop_zero, List.singleton_append,
    skipSpace_of_false (c := '\x7d') rfl]

theorem value_list (hopens : Opens cs) (h : Reads (elements room fuel) cs rest items) :
    Reads (value (room + 1) (fuel + 1)) ('[' :: (breakChars level ++ cs)) rest (.list items) := by
  intro position
  obtain ⟨after, hread⟩ := h (position + 1 + (breakChars level).length)
  refine ⟨after, ?_⟩
  have hskip := hopens.skipSpace_break level (position + 1) rest
  obtain ⟨c, others, rfl, -, hclose, -, -⟩ := hopens
  rw [List.cons_append, List.append_assoc, value.eq_def]
  simp only [Cursor.advance, List.drop_succ_cons, List.drop_zero, hskip]
  split
  · rename_i heq
    exact absurd (List.cons.inj heq).1 hclose
  · rw [hread]
    rfl

theorem elements_last (hv : Reads (value room fuel) cs (breakChars level ++ ']' :: rest) v) :
    Reads (elements room (fuel + 1)) (cs ++ (breakChars level ++ [']'])) rest [v] := by
  intro position
  obtain ⟨after, hread⟩ := hv position
  have hskip := skipSpace_break level after (c := ']') rfl rest
  refine ⟨after + (breakChars level).length + 1, ?_⟩
  rw [List.append_assoc, List.append_assoc, List.singleton_append, elements, hread]
  simp only [Except.bind, bind, hskip]
  rfl

theorem elements_next (hv : Reads (value room fuel) cs (',' :: (breakChars level ++ (more ++ rest))) v)
    (hopens : Opens more) (h : Reads (elements room fuel) more rest items) :
    Reads (elements room (fuel + 1)) (cs ++ ',' :: (breakChars level ++ more)) rest (v :: items) := by
  intro position
  obtain ⟨behind, hread⟩ := hv position
  have hskip := hopens.skipSpace_break level (behind + 1) rest
  obtain ⟨after, hmore⟩ := h (behind + 1 + (breakChars level).length)
  refine ⟨after, ?_⟩
  rw [List.append_assoc, List.cons_append, List.append_assoc, elements, hread]
  simp only [Except.bind, bind, skipSpace_of_false (c := ',') rfl, Cursor.advance, List.drop_succ_cons, List.drop_zero,
    hskip, hmore]
  rfl

theorem value_dict (hopens : Opens cs) (hkeys : (Entries.keys entries).Nodup)
    (h : Reads (members room fuel) cs rest entries) :
    Reads (value (room + 1) (fuel + 1)) ('\x7b' :: (breakChars level ++ cs)) rest (.dict entries) := by
  intro position
  obtain ⟨after, hread⟩ := h (position + 1 + (breakChars level).length)
  refine ⟨after, ?_⟩
  have hskip := hopens.skipSpace_break level (position + 1) rest
  obtain ⟨c, others, rfl, -, -, hclose, -⟩ := hopens
  rw [List.cons_append, List.append_assoc, value.eq_def]
  simp only [Cursor.advance, List.drop_succ_cons, List.drop_zero, hskip]
  split
  · rename_i heq
    exact absurd (List.cons.inj heq).1 hclose
  · rw [hread]
    exact congrArg (fun es => Except.ok (Value.dict es, _)) (Entries.ofPairs_of_nodup hkeys)

/-- The text of an entry up to its value. -/
def keyChars (key : String) : List Char := (stringText key).toList ++ [':', ' ']

theorem members_head (hkey : Text.hasHalf key = false) (hopens : Opens cs) (position : Nat)
    (hv : Reads (value room fuel) cs more v) :
    ∃ after, members room (fuel + 1) ⟨position, keyChars key ++ (cs ++ more)⟩ =
      (let c := (⟨after, more⟩ : Cursor).skipSpace
      match c.rest with
      | '\x7d' :: _ => .ok ([(key, v)], c.advance 1)
      | ',' :: _ => do
          let (entries, after) ← members room fuel (c.advance 1).skipSpace
          return ((key, v) :: entries, after)
      | _ => c.stop) := by
  obtain ⟨behind, hstring⟩ := string_written hkey (position + 1) (':' :: ' ' :: (cs ++ more))
  obtain ⟨after, hread⟩ := hv (behind + 1 + 1)
  refine ⟨after, ?_⟩
  have hskip : (⟨behind + 1, ' ' :: (cs ++ more)⟩ : Cursor).skipSpace = ⟨behind + 1 + 1, cs ++ more⟩ := by
    obtain ⟨c, others, rfl, hspace, -⟩ := hopens
    have hspaces : ∀ x ∈ [' '], isSpace x = true := by simp [isSpace]
    have hblank := skipSpace_append hspaces (behind + 1) (c :: others ++ more)
    exact hblank.trans (skipSpace_of_false hspace _ _)
  have htext : keyChars key ++ (cs ++ more) =
      '"' :: (key.toList.flatMap charEscape ++ '"' :: ':' :: ' ' :: (cs ++ more)) := by
    rw [keyChars, List.append_assoc, stringText_append]
    rfl
  rw [htext, members]
  simp only [Cursor.advance, List.drop_succ_cons, List.drop_zero, hstring, Except.bind, bind,
    skipSpace_of_false (c := ':') rfl, hskip]
  rewrite [hread]
  rfl

theorem members_last (hkey : Text.hasHalf key = false) (hopens : Opens cs)
    (hv : Reads (value room fuel) cs (breakChars level ++ '\x7d' :: rest) v) :
    Reads (members room (fuel + 1)) (keyChars key ++ cs ++ (breakChars level ++ ['\x7d'])) rest [(key, v)] := by
  intro position
  obtain ⟨after, hread⟩ := members_head hkey hopens position hv
  have hskip := skipSpace_break level after (c := '\x7d') rfl rest
  refine ⟨after + (breakChars level).length + 1, ?_⟩
  rw [List.append_assoc, List.append_assoc, List.append_assoc, List.singleton_append, hread]
  simp only [hskip]
  rfl

theorem members_next (hkey : Text.hasHalf key = false) (hcs : Opens cs)
    (hv : Reads (value room fuel) cs (',' :: (breakChars level ++ (more ++ rest))) v)
    (hopens : Opens more) (h : Reads (members room fuel) more rest entries) :
    Reads (members room (fuel + 1)) (keyChars key ++ cs ++ ',' :: (breakChars level ++ more)) rest
      ((key, v) :: entries) := by
  intro position
  obtain ⟨behind, hread⟩ := members_head hkey hcs position hv
  have hskip := hopens.skipSpace_break level (behind + 1) rest
  obtain ⟨after, hmore⟩ := h (behind + 1 + (breakChars level).length)
  refine ⟨after, ?_⟩
  rw [List.append_assoc, List.append_assoc, List.cons_append, List.append_assoc, hread]
  simp only [skipSpace_of_false (c := ',') rfl, Cursor.advance, List.drop_succ_cons, List.drop_zero, hskip, hmore]
  rfl

end Nested

/-- The fuel that is enough to read the items or entries of some lines. -/
def linesFuel (texts : List String) : Nat := (texts.map fun t => t.toList.length + 1).sum

theorem linesFuel_lt (closing : Char) (level : Nat) (t : String) (ts : List String) :
    linesFuel (t :: ts) < (lines closing level (t :: ts)).length := by
  induction ts generalizing t with
  | nil =>
      simp only [linesFuel, lines, breakChars, List.map_cons, List.map_nil, List.sum_cons, List.sum_nil,
        List.length_append, List.length_cons, List.length_nil]
      omega
  | cons u ts ih =>
      have hrest := ih u
      simp only [linesFuel, List.map_cons, List.sum_cons] at hrest ⊢
      simp only [lines, List.length_append, List.length_cons]
      omega

theorem opens_stringText (s : String) : Opens (stringText s).toList := by
  refine ⟨'"', s.toList.flatMap charEscape ++ ['"'], ?_, by decide, by decide, by decide, by decide⟩
  have htext := stringText_append s []
  rwa [List.append_nil] at htext

theorem opens_lines {closing : Char} {level : Nat} {t : String} (h : Opens t.toList) (ts : List String) :
    Opens (lines closing level (t :: ts)) := by
  cases ts with
  | nil => exact h.append _
  | cons u ts => exact h.append _

theorem indentedItems_cons {level : Nat} {v : Value} {items : List Value} {texts : List String}
    (h : indentedItems level (v :: items) = some texts) :
    ∃ t ts, texts = t :: ts ∧ indented level v = some t ∧ indentedItems level items = some ts := by
  obtain ⟨t, ht, h⟩ := Option.bind_eq_some_iff.mp h
  obtain ⟨ts, hts, h⟩ := Option.bind_eq_some_iff.mp h
  exact ⟨t, ts, (Option.some.inj h).symm, ht, hts⟩

theorem indentedEntries_cons {level : Nat} {key : String} {v : Value} {entries : List (String × Value)}
    {texts : List String} (h : indentedEntries level ((key, v) :: entries) = some texts) :
    ∃ t ts, texts = (stringText key ++ ": " ++ t) :: ts ∧ indented level v = some t ∧
      indentedEntries level entries = some ts := by
  obtain ⟨t, ht, h⟩ := Option.bind_eq_some_iff.mp h
  obtain ⟨ts, hts, h⟩ := Option.bind_eq_some_iff.mp h
  exact ⟨t, ts, (Option.some.inj h).symm, ht, hts⟩

theorem entryText_toList (key t : String) : (stringText key ++ ": " ++ t).toList = keyChars key ++ t.toList := by
  simp [keyChars]

mutual

/-- A value is read back from its text, and every level of nesting is read back with it. -/
theorem value_written (v : Value) (hv : v.isJson = true) {level : Nat} {s : String}
    (hs : indented level v = some s) {room : Nat} (hroom : v.depth ≤ room) (fuel : Nat) (hfuel : s.toList.length ≤ fuel)
    {rest : List Char} (hrest : Ends rest) : Opens s.toList ∧ Reads (value room fuel) s.toList rest v := by
  cases v with
  | list items =>
      obtain ⟨texts, htexts, hblock⟩ := Option.bind_eq_some_iff.mp hs
      obtain rfl := Option.some.inj hblock
      obtain ⟨room, rfl⟩ : ∃ r, room = r + 1 := Nat.exists_eq_add_one.mpr (Nat.lt_of_lt_of_le (Nat.succ_pos _) hroom)
      cases items with
      | nil =>
          cases htexts
          have htext : (block "[" "]" level []).toList = ['[', ']'] := by simp [block]
          rw [htext] at hfuel ⊢
          obtain ⟨fuel, rfl⟩ : ∃ f, fuel = f + 1 := Nat.exists_eq_add_one.mpr (Nat.lt_of_lt_of_le Nat.two_pos hfuel)
          exact ⟨⟨'[', _, rfl, by decide, by decide, by decide, by decide⟩, value_nil room fuel rest⟩
      | cons w items =>
          obtain ⟨t, ts, rfl, -, -⟩ := indentedItems_cons htexts
          have htext := block_toList '[' ']' level t ts
          have hlength := linesFuel_lt ']' level t ts
          rw [show String.singleton '[' = "[" from rfl, show String.singleton ']' = "]" from rfl] at htext
          rw [htext, List.length_cons, List.length_append] at hfuel
          obtain ⟨fuel, rfl⟩ : ∃ f, fuel = f + 1 := ⟨fuel - 1, by omega⟩
          obtain ⟨hopens, hread⟩ := elements_written (w :: items) hv htexts (Nat.le_of_succ_le_succ hroom)
            fuel (by omega) rest
          rw [htext]
          exact ⟨⟨'[', _, rfl, by decide, by decide, by decide, by decide⟩, value_list (opens_lines hopens ts) hread⟩
  | dict entries =>
      obtain ⟨texts, htexts, hblock⟩ := Option.bind_eq_some_iff.mp hs
      obtain rfl := Option.some.inj hblock
      obtain ⟨room, rfl⟩ : ∃ r, room = r + 1 := Nat.exists_eq_add_one.mpr (Nat.lt_of_lt_of_le (Nat.succ_pos _) hroom)
      rw [Value.isJson, Bool.and_eq_true, decide_eq_true_eq] at hv
      cases entries with
      | nil =>
          cases htexts
          have htext : (block "\x7b" "\x7d" level []).toList = ['\x7b', '\x7d'] := by simp [block]
          rw [htext] at hfuel ⊢
          obtain ⟨fuel, rfl⟩ : ∃ f, fuel = f + 1 := Nat.exists_eq_add_one.mpr (Nat.lt_of_lt_of_le Nat.two_pos hfuel)
          exact ⟨⟨'\x7b', _, rfl, by decide, by decide, by decide, by decide⟩, value_empty room fuel rest⟩
      | cons e entries =>
          obtain ⟨t, ts, rfl, -, -⟩ := indentedEntries_cons htexts
          have htext := block_toList '\x7b' '\x7d' level (stringText e.1 ++ ": " ++ t) ts
          have hlength := linesFuel_lt '\x7d' level (stringText e.1 ++ ": " ++ t) ts
          rw [show String.singleton '\x7b' = "\x7b" from rfl, show String.singleton '\x7d' = "\x7d" from rfl] at htext
          rw [htext, List.length_cons, List.length_append] at hfuel
          obtain ⟨fuel, rfl⟩ : ∃ f, fuel = f + 1 := ⟨fuel - 1, by omega⟩
          obtain ⟨hopens, hread⟩ := members_written (e :: entries) hv.2 htexts (Nat.le_of_succ_le_succ hroom)
            fuel (by omega) rest
          rw [htext]
          exact ⟨⟨'\x7b', _, rfl, by decide, by decide, by decide, by decide⟩,
            value_dict (opens_lines hopens ts) hv.1 hread⟩
  | null | bool _ | int _ | real _ | text _ =>
      have hleaf := leaf_written hv hs room (fuel - 1) hrest
      obtain ⟨c, others, hcons, -⟩ := hleaf.1
      rw [hcons, List.length_cons] at hfuel
      rwa [show fuel - 1 + 1 = fuel by omega] at hleaf
  | _ => exact nomatch hv

theorem elements_written (items : List Value) (hv : Value.isJsonItems items = true) {level : Nat} {t : String}
    {ts : List String} (hs : indentedItems (level + 1) items = some (t :: ts)) {room : Nat}
    (hroom : Value.depthItems items ≤ room) (fuel : Nat) (hfuel : linesFuel (t :: ts) ≤ fuel) (rest : List Char) :
    Opens t.toList ∧ Reads (elements room fuel) (lines ']' level (t :: ts)) rest items := by
  cases items with
  | nil => exact nomatch hs
  | cons v items =>
      obtain ⟨t', ts', hcons, ht, hts⟩ := indentedItems_cons hs
      obtain ⟨rfl, rfl⟩ := List.cons.inj hcons
      rw [Value.isJsonItems, Bool.and_eq_true] at hv
      rw [Value.depthItems, Nat.max_le] at hroom
      simp only [linesFuel, List.map_cons, List.sum_cons] at hfuel
      obtain ⟨fuel, rfl⟩ : ∃ f, fuel = f + 1 := ⟨fuel - 1, by omega⟩
      have hvalue := fun {more : List Char} (hmore : Ends more) =>
        value_written v hv.1 ht hroom.1 fuel (by omega) hmore
      cases items with
      | nil =>
          cases hts
          obtain ⟨hopens, hread⟩ := hvalue (ends_break level (']' :: rest))
          exact ⟨hopens, elements_last hread⟩
      | cons w items =>
          obtain ⟨u, us, rfl, -, -⟩ := indentedItems_cons hts
          obtain ⟨hnext, hmore⟩ := elements_written (w :: items) hv.2 hts hroom.2 fuel
            (by simp only [linesFuel, List.map_cons, List.sum_cons] at hfuel ⊢; omega) rest
          obtain ⟨hopens, hread⟩ := hvalue (ends_comma (breakChars (level + 1) ++ (lines ']' level (u :: us) ++ rest)))
          exact ⟨hopens, elements_next hread (opens_lines hnext us) hmore⟩

theorem members_written (entries : List (String × Value)) (hv : Value.isJsonEntries entries = true) {level : Nat}
    {t : String} {ts : List String} (hs : indentedEntries (level + 1) entries = some (t :: ts)) {room : Nat}
    (hroom : Value.depthEntries entries ≤ room) (fuel : Nat) (hfuel : linesFuel (t :: ts) ≤ fuel) (rest : List Char) :
    Opens t.toList ∧ Reads (members room fuel) (lines '\x7d' level (t :: ts)) rest entries := by
  cases entries with
  | nil => exact nomatch hs
  | cons e entries =>
      obtain ⟨key, v⟩ := e
      obtain ⟨t', ts', hcons, ht, hts⟩ := indentedEntries_cons hs
      obtain ⟨rfl, rfl⟩ := List.cons.inj hcons
      rw [Value.isJsonEntries, Bool.and_eq_true, Bool.and_eq_true, Bool.not_eq_true'] at hv
      rw [Value.depthEntries, Nat.max_le] at hroom
      simp only [linesFuel, List.map_cons, List.sum_cons, entryText_toList, List.length_append] at hfuel
      obtain ⟨fuel, rfl⟩ : ∃ f, fuel = f + 1 := ⟨fuel - 1, by omega⟩
      have hvalue := fun {more : List Char} (hmore : Ends more) =>
        value_written v hv.1.2 ht hroom.1 fuel (by omega) hmore
      have hkey : Opens (stringText key ++ ": " ++ t').toList := by
        rw [String.toList_append, String.toList_append]
        exact ((opens_stringText key).append _).append _
      refine ⟨hkey, ?_⟩
      cases entries with
      | nil =>
          cases hts
          obtain ⟨hopens, hread⟩ := hvalue (ends_break level ('\x7d' :: rest))
          rw [lines, entryText_toList]
          exact members_last hv.1.1 hopens hread
      | cons f entries =>
          obtain ⟨u, us, rfl, -, -⟩ := indentedEntries_cons hts
          obtain ⟨hnext, hmore⟩ := members_written (f :: entries) hv.2 hts hroom.2 fuel
            (by simp only [linesFuel, List.map_cons, List.sum_cons] at hfuel ⊢; omega) rest
          obtain ⟨hopens, hread⟩ := hvalue (ends_comma (breakChars (level + 1) ++
            (lines '\x7d' level ((stringText f.1 ++ ": " ++ u) :: us) ++ rest)))
          rw [lines_cons_cons, entryText_toList]
          exact members_next hv.1.1 hopens hread (opens_lines hnext us) hmore

end

theorem read_indented {v : Value} (hv : v.isJson = true) (hdepth : v.depth ≤ deepest) {s : String}
    (hs : indented 0 v = some s) : read s = .ok v := by
  obtain ⟨hopens, hread⟩ := value_written v hv hs hdepth (2 * s.toList.length + 2) (by omega) ends_nil
  obtain ⟨after, hread⟩ := hread 0
  rw [List.append_nil] at hread
  have hskip : (⟨0, s.toList⟩ : Cursor).skipSpace = ⟨0, s.toList⟩ := by
    obtain ⟨c, others, hcons, hspace, -⟩ := hopens
    rw [hcons, skipSpace_of_false hspace]
  have hmark : (s.toList.head? == some byteOrderMark) = false := by
    obtain ⟨c, others, hcons, -, -, -, hmark⟩ := hopens
    simpa [hcons] using hmark
  rw [read]
  simp only [hmark, Bool.false_eq_true, if_false, hskip, hread]
  rfl

end Json

end TableSteward

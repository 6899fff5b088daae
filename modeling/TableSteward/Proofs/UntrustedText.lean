import TableSteward.Http.Parameter
import TableSteward.Proofs.DayBounds
import TableSteward.Proofs.JsonLimits
import TableSteward.Proofs.PoolRegistry
import TableSteward.Proofs.StoreDocuments
import TableSteward.Query.Order

/-!
# Lists in texts that anyone may write

The setting with the databases and the parameters with filters and orders are lists in JSON.  Whatever stands in such a
text, it gives one entry for an item, in order, or is answered as malformed.  Two kinds of texts are not: an integer
with too many digits and a nesting that is too deep end in faults that nothing catches.
-/
set_option autoImplicit false

namespace TableSteward

/-! ## Trimmed texts -/

namespace Text

theorem isBlank_of_isSpace {c : Char} (h : Json.isSpace c = true) : isBlank c = true := by
  simp only [Json.isSpace, Bool.or_eq_true, beq_iff_eq] at h
  rcases h with ((rfl | rfl) | rfl) | rfl <;> rfl

theorem not_isBlank_of_isDigit {c : Char} (h : c.isDigit = true) : isBlank c = false := by
  have hrange : 48 ≤ c.toNat ∧ c.toNat ≤ 57 := by simpa [Char.isDigit, UInt32.le_iff_toNat_le] using h
  have hdigit : isDigit c = true := by rw [isDigit, digitValue?, if_pos (by omega), if_pos h, Option.isSome_some]
  rw [Bool.eq_false_iff]
  intro hblank
  rw [not_isDigit_of_isBlank hblank] at hdigit
  cases hdigit

theorem starts_strip (p : Char → Bool) (cs : List Char) : strip p cs <+: cs.dropWhile p := by
  have h : (cs.dropWhile p).reverse.dropWhile p <:+ (cs.dropWhile p).reverse := List.dropWhile_suffix p
  simpa [strip] using List.reverse_prefix.mpr h

theorem not_blank_of_trim {raw : String} {c : Char} {rest : List Char} (h : (trim raw).toList = c :: rest) :
    isBlank c = false := by
  rw [trim, String.toList_ofList] at h
  obtain ⟨behind, hbehind⟩ := starts_strip isBlank raw.toList
  have hhead := List.head?_dropWhile_not isBlank raw.toList
  rw [← hbehind, h] at hhead
  exact hhead

theorem trim_of_not_blank {cs : List Char} (h : ∀ c ∈ cs, isBlank c = false) :
    trim (String.ofList cs) = String.ofList cs := by
  have hdrop : ∀ ds : List Char, (∀ c ∈ ds, isBlank c = false) → ds.dropWhile isBlank = ds := by
    intro ds hds
    cases ds with
    | nil => rfl
    | cons c ds => exact List.dropWhile_cons_of_neg (by simp [hds c List.mem_cons_self])
  rw [trim, String.toList_ofList, strip, hdrop cs h, hdrop cs.reverse (by simpa using h), List.reverse_reverse]

end Text

/-- The reader comes to a limit in the text, which accounts for it, and this is the fault that it becomes. -/
inductive Strains (s : String) : Fault → Prop
  | digits : Json.read s = .error .tooManyDigits → Json.HasLongRun s.toList → Strains s .unreadableNumber
  | levels : Json.read s = .error .tooDeep → Json.deepest < Json.openings s.toList → Strains s .tooDeep

theorem strains_of_digits {s : String} (h : Json.read s = .error .tooManyDigits) : Strains s .unreadableNumber :=
  .digits h (Json.hasLongRun_of_read h)

theorem strains_of_levels {s : String} (h : Json.read s = .error .tooDeep) : Strains s .tooDeep :=
  .levels h (Json.openings_of_read h)

namespace DatabaseAddress

/-! ## The list of databases -/

/-- The item is a dictionary with a name and an address that count as true, and they are those of the database. -/
def IsOf (v : Value) (d : DatabaseAddress) : Prop :=
  ∃ name url, v.entry? "name" = some name ∧ v.entry? "url" = some url ∧ name.truthy = true ∧ url.truthy = true ∧
    d = ⟨name.display, url.display⟩

theorem ofItem?_eq_some_iff {v : Value} {d : DatabaseAddress} : ofItem? v = some d ↔ IsOf v d := by
  unfold ofItem? IsOf
  cases v.entry? "name" with
  | none => simp
  | some name =>
      cases v.entry? "url" with
      | none => simp
      | some url =>
          show (if name.truthy && url.truthy then some ⟨name.display, url.display⟩ else none) = some d ↔ _
          constructor
          · intro h
            split at h
            · rename_i hboth
              obtain ⟨hname, hurl⟩ := Bool.and_eq_true_iff.mp hboth
              exact ⟨name, url, rfl, rfl, hname, hurl, (Option.some.inj h).symm⟩
            · cases h
          · rintro ⟨_, _, ⟨⟩, ⟨⟩, hname, hurl, rfl⟩
            rw [hname, hurl]
            rfl

/-- The databases of the items that have one, in their order. -/
inductive Listed : List Value → List DatabaseAddress → Prop
  | nil : Listed [] []
  | taken {v : Value} {d : DatabaseAddress} {vs : List Value} {ds : List DatabaseAddress} :
      IsOf v d → Listed vs ds → Listed (v :: vs) (d :: ds)
  | passedOver {v : Value} {vs : List Value} {ds : List DatabaseAddress} :
      (∀ d, ¬ IsOf v d) → Listed vs ds → Listed (v :: vs) ds

theorem listed_filterMap (vs : List Value) : Listed vs (vs.filterMap ofItem?) := by
  induction vs with
  | nil => exact .nil
  | cons v vs ih =>
      rw [List.filterMap_cons]
      cases hv : ofItem? v with
      | none =>
          refine .passedOver (fun d hd => ?_) ih
          rw [ofItem?_eq_some_iff.mpr hd] at hv
          cases hv
      | some d => exact .taken (ofItem?_eq_some_iff.mp hv) ih

/-- The databases that a trimmed text lists. -/
structure Told (text : String) (ds : List DatabaseAddress) : Prop where
  listed : ∀ items, Json.read text = .ok (.list items) → Listed items ds
  alone : (∃ rest, text = "postgres://" ++ rest ∨ text = "postgresql://" ++ rest) → ds = [⟨"Default", text⟩]
  nothing : (∀ items, Json.read text ≠ .ok (.list items)) →
    (∀ rest, text ≠ "postgres://" ++ rest ∧ text ≠ "postgresql://" ++ rest) → ds = []

theorem isUrl_iff {text : String} :
    isUrl text = true ↔ ∃ rest, text = "postgres://" ++ rest ∨ text = "postgresql://" ++ rest := by
  rw [isUrl, Bool.or_eq_true, startsWith_iff, startsWith_iff, exists_or]

theorem bracket_iff {raw : String} {v : Value} (h : Json.read (Text.trim raw) = .ok v) :
    (∃ items, v = .list items) ↔ (Text.trim raw).startsWith "[" = true := by
  have hskip : (Json.Cursor.skipSpace ⟨0, (Text.trim raw).toList⟩).rest = (Text.trim raw).toList := by
    cases htext : (Text.trim raw).toList with
    | nil => rfl
    | cons c rest =>
        have hblank := Text.not_blank_of_trim htext
        have hspace : Json.isSpace c = false := by
          rw [Bool.eq_false_iff]
          intro hspace
          rw [Text.isBlank_of_isSpace hspace] at hblank
          cases hblank
        rw [Json.skipSpace_of_false hspace]
  rw [Json.read_bracket h, hskip, String.startsWith_string_iff]
  constructor
  · rintro ⟨tail, htail⟩
    exact ⟨tail, htail.symm⟩
  · rintro ⟨tail, htail⟩
    exact ⟨tail, htail.symm⟩

theorem not_isUrl_of_bracket {text : String} (h : text.startsWith "[" = true) : isUrl text = false := by
  obtain ⟨rest, rfl⟩ := startsWith_iff.mp h
  rw [Bool.eq_false_iff]
  intro hurl
  obtain ⟨rest', hrest | hrest⟩ := isUrl_iff.mp hurl <;> simpa using congrArg String.toList hrest

theorem parse_of_strains {raw : String} {fault : Fault} (hbracket : (Text.trim raw).startsWith "[" = true)
    (h : Strains (Text.trim raw) fault) : parse raw = .error fault := by
  unfold parse
  extract_lets text
  rw [if_pos hbracket]
  cases h with
  | digits hread => simp only [text, hread]
  | levels hread => simp only [text, hread]

theorem parse_told {raw : String}
    (h : ¬ ∃ fault, (Text.trim raw).startsWith "[" = true ∧ Strains (Text.trim raw) fault) :
    ∃ ds, parse raw = .ok ds ∧ Told (Text.trim raw) ds := by
  unfold parse
  extract_lets text
  by_cases hbracket : text.startsWith "[" = true
  · have hurl : ¬ ∃ rest, text = "postgres://" ++ rest ∨ text = "postgresql://" ++ rest := by
      rw [← isUrl_iff, not_isUrl_of_bracket hbracket]
      exact Bool.false_ne_true
    rw [if_pos hbracket]
    cases hread : Json.read text with
    | error fault =>
        cases fault with
        | malformed position =>
            refine ⟨[], rfl, fun items hitems => ?_, fun h => absurd h hurl, fun _ _ => rfl⟩
            cases hread.symm.trans hitems
        | tooManyDigits => exact absurd ⟨_, hbracket, strains_of_digits hread⟩ h
        | tooDeep => exact absurd ⟨_, hbracket, strains_of_levels hread⟩ h
    | ok v =>
        obtain ⟨items, rfl⟩ := (bracket_iff hread).mpr hbracket
        refine ⟨_, rfl, fun items' hitems' => ?_, fun h => absurd h hurl, fun h => absurd hread (h items)⟩
        cases hread.symm.trans hitems'
        exact listed_filterMap items
  · have hlist : ∀ items, Json.read text ≠ .ok (.list items) :=
      fun items hread => hbracket ((bracket_iff hread).mp ⟨items, rfl⟩)
    rw [if_neg hbracket]
    by_cases hurl : isUrl text = true
    · rw [if_pos hurl]
      refine ⟨_, rfl, fun items h => absurd h (hlist items), fun _ => rfl, fun _ h => ?_⟩
      obtain ⟨rest, hrest⟩ := isUrl_iff.mp hurl
      exact (hrest.elim (h rest).1 (h rest).2).elim
    · rw [if_neg hurl]
      exact ⟨[], rfl, fun items h => absurd h (hlist items), fun h => absurd (isUrl_iff.mpr h) hurl, fun _ _ => rfl⟩

/-- Of three items one has a name and an address. -/
example : parse "[\x7b\"name\": \"Prod\", \"url\": \"postgres://a/b\"\x7d, \x7b\"name\": \"NoUrl\"\x7d, \"junk\"]" =
    .ok [⟨"Prod", "postgres://a/b"⟩] := by
  decide +kernel

end DatabaseAddress

/-! ## Lists of checked items -/

namespace Checked

variable {α β : Type}

theorem map_ok_iff {f : α → β} {x : Checked α} {b : β} : f <$> x = .ok b ↔ ∃ a, x = .ok a ∧ f a = b := by
  constructor
  · exact of_map_ok
  · rintro ⟨a, rfl, rfl⟩
    rfl

theorem seq_ok_iff {f : Checked (α → β)} {x : Checked α} {b : β} :
    f <*> x = .ok b ↔ ∃ g a, f = .ok g ∧ x = .ok a ∧ g a = b := by
  constructor
  · exact of_seq_ok
  · rintro ⟨g, a, rfl, rfl, rfl⟩
    rfl

theorem within_ok_iff {step : PathStep} {x : Checked α} {a : α} : within step x = .ok a ↔ x = .ok a := by
  constructor
  · exact of_within_ok
  · rintro rfl
    rfl

theorem text_ok_iff {v : Value} {s : String} : text v = .ok s ↔ v = .text s := by
  constructor
  · exact of_text_ok
  · rintro rfl
    rfl

theorem required_text_iff {es : List (String × Value)} {name s : String} :
    required es [name] text = .ok s ↔ List.lookup name es = some (.text s) := by
  rw [required, findField]
  cases List.lookup name es with
  | none => simp [findField, complain, within]
  | some v => simp [within_ok_iff, text_ok_iff]

theorem withDefault_iff {es : List (String × Value)} {name : String} {default a : α} {check : Value → Checked α} :
    withDefault es [name] default check = .ok a ↔
      match List.lookup name es with
      | some v => check v = .ok a
      | none => default = a := by
  rw [withDefault, findField]
  cases List.lookup name es with
  | none => simp [findField]
  | some v => simp [within_ok_iff]

/-- A list checks out just if each of its items does. -/
theorem items_cases (check : Value → Checked α) (vs : List Value) :
    (∃ as, items check vs = .ok as ∧ List.Forall₂ (fun v a => check v = .ok a) vs as) ∨
    (∃ is, items check vs = .wrong is) ∧ ∃ v ∈ vs, ∀ a, check v ≠ .ok a := by
  have hfrom : ∀ i, (∃ as, itemsFrom check i vs = .ok as ∧ List.Forall₂ (fun v a => check v = .ok a) vs as) ∨
      (∃ is, itemsFrom check i vs = .wrong is) ∧ ∃ v ∈ vs, ∀ a, check v ≠ .ok a := by
    induction vs with
    | nil => exact fun i => .inl ⟨[], rfl, .nil⟩
    | cons v vs ih =>
        intro i
        rw [itemsFrom]
        cases hv : check v with
        | wrong is =>
            refine .inr ⟨?_, v, List.mem_cons_self, fun a ha => ?_⟩
            · cases itemsFrom check (i + 1) vs <;> exact ⟨_, rfl⟩
            · cases hv.symm.trans ha
        | ok a =>
            rcases ih (i + 1) with ⟨as, has, hall⟩ | ⟨⟨is, his⟩, w, hw, hwrong⟩
            · rw [has]
              exact .inl ⟨a :: as, rfl, .cons hv hall⟩
            · rw [his]
              exact .inr ⟨⟨_, rfl⟩, w, List.mem_cons_of_mem v hw, hwrong⟩
  exact hfrom 0

end Checked

/-- The item is a dictionary with the column, the operator and the value of the filter, the value being null if it has
none. -/
def FilterSpec.IsOf (v : Value) (f : FilterSpec) : Prop :=
  v.entry? "column" = some (.text f.column) ∧ v.entry? "operator" = some (.text f.operator) ∧
    f.value = (v.entry? "value").getD .null

theorem FilterSpec.check_ok_iff {v : Value} {f : FilterSpec} : check .document v = .ok f ↔ IsOf v f := by
  cases v with
  | dict es =>
      simp only [check, Checked.recordIn, Checked.seq_ok_iff, Checked.map_ok_iff, Checked.required_text_iff,
        Checked.withDefault_iff, IsOf, Value.entry?]
      cases List.lookup "value" es with
      | none =>
          constructor
          · rintro ⟨_, value, ⟨_, operator, ⟨column, hcolumn, rfl⟩, hoperator, rfl⟩, hvalue, rfl⟩
            exact ⟨hcolumn, hoperator, hvalue.symm⟩
          · rintro ⟨hcolumn, hoperator, hvalue⟩
            exact ⟨_, f.value, ⟨_, f.operator, ⟨f.column, hcolumn, rfl⟩, hoperator, rfl⟩, hvalue.symm, rfl⟩
      | some v =>
          constructor
          · rintro ⟨_, value, ⟨_, operator, ⟨column, hcolumn, rfl⟩, hoperator, rfl⟩, hvalue, rfl⟩
            exact ⟨hcolumn, hoperator, (Checked.ok.inj hvalue).symm⟩
          · rintro ⟨hcolumn, hoperator, hvalue⟩
            exact ⟨_, f.value, ⟨_, f.operator, ⟨f.column, hcolumn, rfl⟩, hoperator, rfl⟩,
              congrArg Checked.ok hvalue.symm, rfl⟩
  | _ =>
      refine iff_of_false (fun h => ?_) (fun h => ?_)
      · cases h
      · cases h.1

/-- The item is a dictionary with the column and the direction of the order, which is upwards if it has none. -/
def SortSpec.IsOf (v : Value) (s : SortSpec) : Prop :=
  v.entry? "column" = some (.text s.column) ∧ (v.entry? "direction").getD (.text "asc") = .text s.direction

theorem SortSpec.check_ok_iff {v : Value} {s : SortSpec} : check .document v = .ok s ↔ IsOf v s := by
  cases v with
  | dict es =>
      simp only [check, Checked.recordIn, Checked.seq_ok_iff, Checked.map_ok_iff, Checked.required_text_iff,
        Checked.withDefault_iff, IsOf, Value.entry?]
      cases List.lookup "direction" es with
      | none =>
          constructor
          · rintro ⟨_, direction, ⟨column, hcolumn, rfl⟩, hdirection, rfl⟩
            exact ⟨hcolumn, congrArg Value.text hdirection⟩
          · rintro ⟨hcolumn, hdirection⟩
            exact ⟨_, s.direction, ⟨s.column, hcolumn, rfl⟩, Value.text.inj hdirection, rfl⟩
      | some v =>
          constructor
          · rintro ⟨_, direction, ⟨column, hcolumn, rfl⟩, hdirection, rfl⟩
            exact ⟨hcolumn, Checked.text_ok_iff.mp hdirection⟩
          · rintro ⟨hcolumn, hdirection⟩
            exact ⟨_, s.direction, ⟨s.column, hcolumn, rfl⟩, Checked.text_ok_iff.mpr hdirection, rfl⟩
  | _ =>
      refine iff_of_false (fun h => ?_) (fun h => ?_)
      · cases h
      · cases h.1

namespace Http

/-- A refusal of what a client wrote. -/
def Refuses {α : Type} (message : String) (result : Result α) : Prop :=
  ∃ r, result = refuse r ∧ r.kind = "invalid_value" ∧ r.status = 400 ∧ r.message = message

/-- What a parameter comes to, where an item stands for an entry as told. -/
inductive Heard {α : Type} (IsOf : Value → α → Prop) (name : String) : Option String → Result (List α) → Prop
  | absent {raw : Option String} : raw = none ∨ raw = some "" → Heard IsOf name raw (.ok [])
  | listed {s : String} {items : List Value} {as : List α} : s ≠ "" → Json.read s = .ok (.list items) →
      List.Forall₂ IsOf items as → Heard IsOf name (some s) (.ok as)
  | malformed {s : String} {position : Nat} {result : Result (List α)} : s ≠ "" →
      Json.read s = .error (.malformed position) → Refuses ("Malformed '" ++ name ++ "' parameter") result →
      Heard IsOf name (some s) result
  | wrongItem {s : String} {items : List Value} {v : Value} {result : Result (List α)} : s ≠ "" →
      Json.read s = .ok (.list items) → v ∈ items → (∀ a, ¬ IsOf v a) →
      Refuses ("Malformed '" ++ name ++ "' parameter") result → Heard IsOf name (some s) result
  | noArray {s : String} {v : Value} {result : Result (List α)} : s ≠ "" → Json.read s = .ok v →
      (∀ items, v ≠ .list items) → Refuses ("'" ++ name ++ "' must be a JSON array") result →
      Heard IsOf name (some s) result
  | strained {s : String} {fault : Fault} : s ≠ "" → Strains s fault → Heard IsOf name (some s) (.error fault)

theorem heard_listParameter {α : Type} {check : Value → Checked α} {IsOf : Value → α → Prop}
    (hcheck : ∀ {v a}, check v = .ok a ↔ IsOf v a) (name : String) (raw : Option String) :
    Heard IsOf name raw (listParameter check name raw) := by
  cases raw with
  | none => exact .absent (.inl rfl)
  | some s =>
      by_cases hs : s = ""
      · subst hs
        exact .absent (.inr rfl)
      · have hsome : (some s).filter (!·.isEmpty) = some s := by simp [hs]
        rw [listParameter, hsome]
        dsimp only
        cases hread : Json.read s with
        | error fault =>
            cases fault with
            | malformed position => exact .malformed hs hread ⟨_, rfl, rfl, rfl, rfl⟩
            | tooManyDigits => exact .strained hs (strains_of_digits hread)
            | tooDeep => exact .strained hs (strains_of_levels hread)
        | ok v =>
            cases v with
            | list items =>
                rcases Checked.items_cases check items with ⟨as, has, hall⟩ | ⟨⟨is, his⟩, w, hw, hwrong⟩
                · simp only [has]
                  exact .listed hs hread (hall.imp fun _ _ => hcheck.mp)
                · simp only [his]
                  exact .wrongItem hs hread hw (fun a ha => hwrong a (hcheck.mpr ha)) ⟨_, rfl, rfl, rfl, rfl⟩
            | _ => exact .noArray hs hread (by simp) ⟨_, rfl, rfl, rfl, rfl⟩

theorem listParameter_of_strains {α : Type} (check : Value → Checked α) (name : String) {s : String} (hs : s ≠ "")
    {fault : Fault} (h : Strains s fault) : listParameter check name (some s) = .error fault := by
  have hsome : (some s).filter (!·.isEmpty) = some s := by simp [hs]
  rw [listParameter, hsome]
  cases h with
  | digits hread => simp only [hread]
  | levels hread => simp only [hread]

end Http

/-! ## Whatever a text holds -/

/-- Lists in JSON that go beyond a limit of the reader, and the fault that they end in. -/
inductive Exceeds : String → Fault → Prop
  | digits {whole : List Char} : Json.IsWhole whole → Text.maxDigits < whole.length →
      Exceeds (String.ofList ('[' :: (whole ++ [']']))) .unreadableNumber
  | levels {n : Nat} : Json.deepest < n →
      Exceeds (String.ofList (List.replicate n '[' ++ List.replicate n ']')) .tooDeep

namespace Exceeds

variable {text : String} {fault : Fault}

theorem opens (h : Exceeds text fault) : ∃ rest, text.toList = '[' :: rest := by
  cases h with
  | digits hwhole hlong => exact ⟨_, String.toList_ofList⟩
  | @levels n hn =>
      obtain ⟨more, rfl⟩ := Nat.exists_eq_add_of_le' (Nat.lt_of_le_of_lt (Nat.zero_le _) hn)
      rw [String.toList_ofList, List.replicate_succ, List.cons_append]
      exact ⟨_, rfl⟩

theorem trim (h : Exceeds text fault) : Text.trim text = text := by
  cases h with
  | @digits whole hwhole hlong =>
      apply Text.trim_of_not_blank
      intro c hc
      rw [List.mem_cons, List.mem_append, List.mem_singleton] at hc
      rcases hc with rfl | hc | rfl
      · rfl
      · exact Text.not_isBlank_of_isDigit (hwhole.digits c hc)
      · rfl
  | @levels n hn =>
      apply Text.trim_of_not_blank
      intro c hc
      rcases List.mem_append.mp hc with hc | hc <;>
        rw [List.eq_of_mem_replicate hc] <;>
        rfl

theorem strains (h : Exceeds text fault) : Strains text fault := by
  cases h with
  | digits hwhole hlong =>
      have hbreaks : Json.Breaks [']'] := by
        rintro c ⟨⟩
        decide
      exact strains_of_digits (Json.read_long hwhole hlong hbreaks)
  | levels hn => exact strains_of_levels (Json.read_deep hn _)

theorem parse (h : Exceeds text fault) : DatabaseAddress.parse text = .error fault := by
  obtain ⟨rest, hrest⟩ := h.opens
  have hbracket : text.startsWith "[" = true := by
    rw [String.startsWith_string_iff]
    exact ⟨rest, hrest.symm⟩
  have htrim := h.trim
  exact DatabaseAddress.parse_of_strains (htrim.symm ▸ hbracket) (htrim.symm ▸ h.strains)

theorem listParameter (h : Exceeds text fault) {α : Type} (check : Value → Checked α) (name : String) :
    Http.listParameter check name (some text) = .error fault := by
  obtain ⟨rest, hrest⟩ := h.opens
  have htext : text ≠ "" := by
    rintro rfl
    cases hrest
  exact Http.listParameter_of_strains check name htext h.strains

end Exceeds

/-- Whatever text the setting with the databases holds, it lists the databases of its items in order, a single one or
none, just if the reader does not come to a limit behind an opening bracket; and whatever text a parameter holds, there
is one filter or one order for an item, or the parameter is refused as an invalid value, or the reader comes to a limit.
A limit is a fault of its own, in the setting and in the parameters alike, and lists beyond the limits do come to it. -/
theorem untrusted_lists_read (raw name : String) (parameter : Option String) :
    ((∃ ds, DatabaseAddress.parse raw = .ok ds ∧ DatabaseAddress.Told (Text.trim raw) ds) ↔
      ¬ ∃ fault, (Text.trim raw).startsWith "[" = true ∧ Strains (Text.trim raw) fault) ∧
    (∀ fault, (Text.trim raw).startsWith "[" = true → Strains (Text.trim raw) fault →
      DatabaseAddress.parse raw = .error fault) ∧
    Http.Heard FilterSpec.IsOf name parameter (Http.listParameter (FilterSpec.check .document) name parameter) ∧
    Http.Heard SortSpec.IsOf name parameter (Http.listParameter (SortSpec.check .document) name parameter) ∧
    ∀ fault, Exceeds raw fault →
      DatabaseAddress.parse raw = .error fault ∧
      Http.listParameter (FilterSpec.check .document) name (some raw) = .error fault ∧
      Http.listParameter (SortSpec.check .document) name (some raw) = .error fault := by
  refine ⟨⟨?_, DatabaseAddress.parse_told⟩, fun fault => DatabaseAddress.parse_of_strains, ?_, ?_,
    fun fault h => ⟨h.parse, h.listParameter _ name, h.listParameter _ name⟩⟩
  · rintro ⟨ds, hds, -⟩ ⟨fault, hbracket, hstrains⟩
    cases hds.symm.trans (DatabaseAddress.parse_of_strains hbracket hstrains)
  · exact Http.heard_listParameter FilterSpec.check_ok_iff name parameter
  · exact Http.heard_listParameter SortSpec.check_ok_iff name parameter

theorem exceeds_ones {n : Nat} (hn : Text.maxDigits ≤ n) :
    Exceeds (String.ofList ('[' :: (List.replicate (n + 1) '1' ++ [']']))) .unreadableNumber := by
  refine .digits ⟨?_, ?_, ?_⟩ ?_
  · exact List.cons_ne_nil _ _
  · intro c hc
    rw [List.eq_of_mem_replicate hc]
    rfl
  · rw [List.replicate_succ]
    rintro ⟨⟩
  · rw [List.length_replicate]
    exact Nat.lt_succ_of_le hn

/-- An integer of 4301 digits in a list: the setting ends in a fault where it should list nothing, and the parameters
are neither read nor refused as invalid values. -/
theorem long_integer_unanswered :
    let text := String.ofList ('[' :: (List.replicate 4301 '1' ++ [']']))
    (¬ ∃ ds, DatabaseAddress.parse text = .ok ds) ∧
    ((¬ ∃ filters, Http.listParameter (FilterSpec.check .document) "filters" (some text) = .ok filters) ∧
      ¬ ∃ message, Http.Refuses message (Http.listParameter (FilterSpec.check .document) "filters" (some text))) ∧
    (¬ ∃ orders, Http.listParameter (SortSpec.check .document) "sort" (some text) = .ok orders) ∧
      ¬ ∃ message, Http.Refuses message (Http.listParameter (SortSpec.check .document) "sort" (some text)) := by
  intro text
  have htext : Exceeds text .unreadableNumber := exceeds_ones (Nat.le_refl 4300)
  rw [htext.parse, htext.listParameter, htext.listParameter]
  simp [Http.Refuses, refuse]

end TableSteward

import TableSteward.Proofs.PacificDay
import TableSteward.Proofs.Result
import TableSteward.Query.Where
import TableSteward.Value.Equality

/-!
# Filters by days

A day as an upper bound stands for the first instant of the next day, and `lte` and `between` compare with it by `<=`.
So they select the instants of all days up to the bound, as the clocks of the Pacific coast show them, and beside those
the first instant of the next day.  That one instant is selected for both of two days that follow each other.
-/
set_option autoImplicit false

namespace TableSteward

/-! ## What a condition selects -/

def Comparison.Holds : Comparison → Int → Int → Prop
  | eq, a, b => a = b
  | gt, a, b => b < a
  | gte, a, b => b ≤ a
  | lt, a, b => a < b
  | lte, a, b => a ≤ b

/-- A timestamp meets a condition whose values are timestamps.  A range includes both its ends. -/
inductive Condition.Selects (t : Timestamp) : Condition → Prop
  | compare {column : ColumnExpr} {operator : Comparison} {bound : Timestamp} :
      operator.Holds t.instant bound.instant → Selects t (.compare column operator (.timestamp bound))
  | between {column : ColumnExpr} {low high : Timestamp} :
      low.instant ≤ t.instant → t.instant ≤ high.instant →
      Selects t (.between column (.timestamp low) (.timestamp high))
  | oneOf {column : ColumnExpr} {values : List Value} {bound : Timestamp} :
      .timestamp bound ∈ values → t.instant = bound.instant → Selects t (.oneOf column values)

theorem Condition.selects_lte_iff {t bound : Timestamp} {column : ColumnExpr} :
    Selects t (.compare column .lte (.timestamp bound)) ↔ t.instant ≤ bound.instant :=
  ⟨fun | .compare h => h, fun h => .compare h⟩

theorem Condition.selects_between_iff {t low high : Timestamp} {column : ColumnExpr} :
    Selects t (.between column (.timestamp low) (.timestamp high)) ↔
      low.instant ≤ t.instant ∧ t.instant ≤ high.instant :=
  ⟨fun | .between hlow hhigh => ⟨hlow, hhigh⟩, fun ⟨hlow, hhigh⟩ => .between hlow hhigh⟩

/-! ## First instants -/

/-- The instant, as a timestamp of Greenwich, from which on the clocks show a day. -/
structure IsFirstInstant (d : Date) (first : Timestamp) : Prop where
  greenwich : first.offset = some 0
  shows : Pacific.shownDay first = d.dayNumber
  least : ∀ t : Timestamp, t.offset = some 0 →
    (first.instant ≤ t.instant ↔ (d.dayNumber : Int) ≤ Pacific.shownDay t)

theorem Timestamp.instant_of_greenwich {t : Timestamp} (h : t.offset = some 0) :
    t.instant = (t.second + 86400) * 1000000 + t.time.micro := by
  have hpos := t.date.dayNumber_pos
  rw [instant, h]
  unfold second
  simp only [Option.getD_some]
  omega

theorem isFirstInstant_of_second {d : Date} {first : Timestamp} (hoffset : first.offset = some 0)
    (hsecond : first.second = Pacific.midnight d) (hmicro : first.time.micro = 0) : IsFirstInstant d first := by
  refine ⟨hoffset, Pacific.shownDay_of_midnight hsecond, fun t ht => ?_⟩
  rw [← Pacific.midnight_le_iff, Timestamp.instant_of_greenwich hoffset, Timestamp.instant_of_greenwich ht,
    hsecond, hmicro]
  have := t.time.inDay.2.2.2
  omega

theorem Bound.startOf_eq (d : Date) : ∃ first, Bound.startOf d = .ok first ∧ IsFirstInstant d first := by
  obtain ⟨hpos, hend⟩ := Pacific.midnight_bounds d
  obtain ⟨first, hfirst, hoffset, hsecond, hmicro⟩ := Timestamp.ofUtcSeconds?_eq_some hpos hend
  refine ⟨first, ?_, isFirstInstant_of_second hoffset hsecond hmicro⟩
  rw [Bound.startOf, Bound.timestamp, hfirst]

theorem Bound.startOfNext_eq {d next : Date} (h : d.next? = some next) :
    Bound.startOfNext d = Bound.startOf next := by
  rw [Bound.startOfNext, h]

/-! ## Spellings of a day -/

def Spells (s : String) (d : Date) : Prop := DateText.read? s = some (.day d.year d.month d.day)

instance (s : String) (d : Date) : Decidable (Spells s d) := inferInstanceAs (Decidable (_ = _))

theorem Text.toList_padded (width n : Nat) :
    (Text.padded width n).toList =
      List.replicate (width - (Nat.toDigits 10 n).length) '0' ++ Nat.toDigits 10 n := by
  have hdigits : (toString n).toList = Nat.toDigits 10 n := Nat.toList_repr
  have hlength : (toString n).length = (Nat.toDigits 10 n).length := by
    rw [← String.length_toList, hdigits]
  rw [Text.padded, String.toList_append, String.toList_ofList, hdigits, hlength]

theorem Text.toList_padded_one {n : Nat} (hn : n < 10) : (Text.padded 1 n).toList = [n.digitChar] := by
  rw [Text.toList_padded, Nat.toDigits_of_lt_base hn]
  rfl

/-- A wider number has one more digit in front of its last digit. -/
theorem Text.toList_padded_succ {width : Nat} (hwidth : 1 ≤ width) (n : Nat) :
    (Text.padded (width + 1) n).toList = (Text.padded width (n / 10)).toList ++ [(n % 10).digitChar] := by
  rw [Text.toList_padded, Text.toList_padded]
  by_cases hn : n < 10
  · obtain ⟨w, rfl⟩ := Nat.exists_eq_add_of_le' hwidth
    rw [Nat.toDigits_of_lt_base hn, Nat.div_eq_of_lt hn, Nat.mod_eq_of_lt hn,
      Nat.toDigits_of_lt_base (show 0 < 10 by decide)]
    simp only [List.length_singleton, Nat.add_sub_cancel]
    rw [List.replicate_succ', List.append_assoc, List.append_assoc]
    rfl
  · rw [Nat.toDigits_of_base_le (by decide) (Nat.le_of_not_lt hn), List.length_append,
      List.length_singleton, Nat.add_sub_add_right, List.append_assoc]

theorem Text.digitValue?_digitChar {n : Nat} (hn : n < 10) : Text.digitValue? n.digitChar = some n := by
  revert n
  decide

theorem Text.isDigit_digitChar {n : Nat} (hn : n < 10) : Text.isDigit n.digitChar = true := by
  rw [Text.isDigit, Text.digitValue?_digitChar hn]
  rfl

/-- Every day is spelled by its text, so there are filters by any day. -/
theorem spells_text (d : Date) : Spells d.text d := by
  obtain ⟨-, hyear, -, hmonth, -, hday⟩ := d.isDay
  have hlength := (daysInMonth_bounds d.year d.month).2
  have hfour : ∀ n, n < 10000 → (Text.padded 4 n).toList =
      [(n / 10 / 10 / 10).digitChar, (n / 10 / 10 % 10).digitChar, (n / 10 % 10).digitChar,
        (n % 10).digitChar] := by
    intro n hn
    rw [Text.toList_padded_succ (by decide), Text.toList_padded_succ (by decide),
      Text.toList_padded_succ (by decide), Text.toList_padded_one (by omega)]
    rfl
  have htwo : ∀ n, n < 100 → (Text.padded 2 n).toList = [(n / 10).digitChar, (n % 10).digitChar] := by
    intro n hn
    rw [Text.toList_padded_succ (by decide), Text.toList_padded_one (by omega)]
    rfl
  have hyear' : d.year < 10000 := Nat.lt_succ_of_le hyear
  have hdigits : ∀ n, Text.isDigit (n % 10).digitChar = true ∧
      Text.digitValue? (n % 10).digitChar = some (n % 10) := fun n =>
    ⟨Text.isDigit_digitChar (by omega), Text.digitValue?_digitChar (by omega)⟩
  have hthousands : d.year / 10 / 10 / 10 = d.year / 10 / 10 / 10 % 10 := by omega
  have htens : d.month / 10 = d.month / 10 % 10 ∧ d.day / 10 = d.day / 10 % 10 := by omega
  have hchars : d.text.toList =
      [(d.year / 10 / 10 / 10 % 10).digitChar, (d.year / 10 / 10 % 10).digitChar,
        (d.year / 10 % 10).digitChar, (d.year % 10).digitChar, '-', (d.month / 10 % 10).digitChar,
        (d.month % 10).digitChar, '-', (d.day / 10 % 10).digitChar, (d.day % 10).digitChar] := by
    simp only [Date.text, String.toList_append, hfour d.year hyear', htwo d.month (by omega),
      htwo d.day (by omega)]
    rw [← hthousands, ← htens.1, ← htens.2]
    rfl
  unfold Spells DateText.read?
  rw [hchars]
  simp only [DateText.readDay?, List.all_cons, List.all_nil, hdigits, Bool.and_self, if_true,
    Text.digitsValue, List.foldl_cons, List.foldl_nil, Option.getD_some, Option.some.injEq,
    DateText.day.injEq]
  omega

theorem Bound.ofText_of_spells {s : String} {d : Date} (h : Spells s d) (upper : Bool) :
    Bound.ofText s upper = if upper then Bound.startOfNext d else Bound.startOf d := by
  have hday : Bound.dayOf s d.year d.month d.day = .ok d := by
    rw [Bound.dayOf, Date.ofParts?, dif_pos d.isDay]
  unfold Bound.ofText
  rw [show DateText.read? s = _ from h]
  simp only [hday]
  rfl

theorem Bound.ofValue_of_spells {s : String} {d : Date} (h : Spells s d) (upper : Bool) :
    Bound.ofValue (.text s) upper =
      (if upper then Bound.startOfNext d else Bound.startOf d).map Value.timestamp := by
  have hread : (DateText.read? s).isSome = true := by rw [show DateText.read? s = _ from h]; rfl
  rw [Bound.ofValue, if_pos hread, Bound.ofText_of_spells h]
  rfl

theorem Bound.ofValue_of_ofText {s : String} {upper : Bool} {t : Timestamp} (h : Bound.ofText s upper = .ok t) :
    Bound.ofValue (.text s) upper = .ok (.timestamp t) := by
  have hread : (DateText.read? s).isSome = true := by
    unfold Bound.ofText at h
    cases hread : DateText.read? s with
    | none =>
        rw [hread] at h
        cases h
    | some _ => rfl
  rw [Bound.ofValue, if_pos hread, h]
  rfl

/-! ## Filters -/

section

variable {resolve : Resolver} {name first last : String} {column : ColumnExpr} {low high next : Date}

theorem Where.condition_eq {f : FilterSpec} {operator : Operator} (hcolumn : resolve f.column = .ok column)
    (hoperator : Operator.ofName f.operator = .ok operator) :
    Where.condition resolve f = Condition.ofFilter f column operator := by
  rw [Where.condition, hoperator, Result.ok_bind, hcolumn, Result.ok_bind]

theorem Where.ofFilters_singleton {f : FilterSpec} {c : Condition} (h : Where.condition resolve f = .ok c) :
    Where.ofFilters resolve [f] = .ok ⟨[c], 0⟩ := by
  rw [Where.ofFilters, List.mapM_cons, h]
  rfl

theorem Where.ofFilters_between {start stop : Timestamp} (hcolumn : resolve name = .ok column)
    (hstart : Bound.ofText first false = .ok start) (hstop : Bound.ofText last true = .ok stop) :
    Where.ofFilters resolve [⟨name, "between", .list [.text first, .text last]⟩] =
      .ok ⟨[.between column (.timestamp start) (.timestamp stop)], 0⟩ := by
  apply Where.ofFilters_singleton
  rw [Where.condition_eq hcolumn (rfl : Operator.ofName "between" = .ok .between)]
  simp only [Condition.ofFilter, FilterSpec.scalars, List.all_cons, List.all_nil, Value.isScalar,
    Bool.and_self, if_true, Result.ok_bind, Bound.ofValue_of_ofText hstart, Bound.ofValue_of_ofText hstop]
  rfl

theorem Where.ofFilters_lte {stop : Timestamp} (hcolumn : resolve name = .ok column)
    (hlast : Spells last high) (hstop : Bound.startOfNext high = .ok stop) :
    Where.ofFilters resolve [⟨name, "lte", .text last⟩] =
      .ok ⟨[.compare column .lte (.timestamp stop)], 0⟩ := by
  have hhigh : Bound.ofValue (.text last) true = .ok (.timestamp stop) := by
    rw [Bound.ofValue_of_spells hlast, if_pos rfl, hstop]
    rfl
  apply Where.ofFilters_singleton
  rw [Where.condition_eq hcolumn (rfl : Operator.ofName "lte" = .ok (.compare .lte))]
  simp only [Condition.ofFilter, FilterSpec.scalar, Value.isScalar, if_true, Result.ok_bind,
    Comparison.isUpper, hhigh]
  rfl

/-- Days up to a bound, and the first instant of the day after it. -/
theorem le_first_iff {stop t : Timestamp} (hnext : high.next? = some next) (hstop : IsFirstInstant next stop)
    (ht : t.offset = some 0) :
    t.instant ≤ stop.instant ↔ Pacific.shownDay t ≤ high.dayNumber ∨ t.instant = stop.instant := by
  have hnumber := Date.dayNumber_next hnext
  have hreached := hstop.least t ht
  omega

/-- A range of days selects the instants of its days and one more, the first instant of the day after its last day; an
upper bound selects the instants of all days up to its day, and the same one more. -/
theorem Where.day_filters_select (hcolumn : resolve name = .ok column) (hfirst : Spells first low)
    (hlast : Spells last high) (hdays : low.dayNumber ≤ high.dayNumber) (hnext : high.next? = some next) :
    ∃ range upTo stop, IsFirstInstant next stop ∧
      Where.ofFilters resolve [⟨name, "between", .list [.text first, .text last]⟩] = .ok ⟨[range], 0⟩ ∧
      range.sql 1 = column.sql ++ " BETWEEN :p1 AND :p2" ∧
      Where.ofFilters resolve [⟨name, "lte", .text last⟩] = .ok ⟨[upTo], 0⟩ ∧
      upTo.sql 1 = column.sql ++ " <= :p1" ∧
      ∀ t : Timestamp, t.offset = some 0 →
        (range.Selects t ↔
          (low.dayNumber ≤ Pacific.shownDay t ∧ Pacific.shownDay t ≤ high.dayNumber) ∨
            t.instant = stop.instant) ∧
        (upTo.Selects t ↔ Pacific.shownDay t ≤ high.dayNumber ∨ t.instant = stop.instant) := by
  obtain ⟨start, hstart, hstartFirst⟩ := Bound.startOf_eq low
  obtain ⟨stop, hstop, hstopFirst⟩ := Bound.startOf_eq next
  have hstop' : Bound.startOfNext high = .ok stop := (Bound.startOfNext_eq hnext).trans hstop
  refine ⟨.between column (.timestamp start) (.timestamp stop), .compare column .lte (.timestamp stop), stop,
    hstopFirst, Where.ofFilters_between hcolumn ((Bound.ofText_of_spells hfirst false).trans hstart)
      ((Bound.ofText_of_spells hlast true).trans hstop'), ?_,
    Where.ofFilters_lte hcolumn hlast hstop', ?_, fun t ht => ?_⟩
  · simp only [Condition.sql, String.append_assoc]
    rfl
  · simp only [Condition.sql, String.append_assoc]
    rfl
  have hupper := le_first_iff hnext hstopFirst ht
  have hlower := hstartFirst.least t ht
  have hnumber := Date.dayNumber_next hnext
  have hreached := hstopFirst.least t ht
  rw [Condition.selects_between_iff, Condition.selects_lte_iff, hlower, hupper]
  refine ⟨?_, Iff.rfl⟩
  omega

end

/-- A whole hour of the sixteenth of January 2025, by the clocks of Greenwich. -/
def januaryHour (hour : Nat) (h : hour < 24) : Timestamp :=
  ⟨⟨2025, 1, 16, by decide⟩, ⟨hour, 0, 0, 0, h, by decide⟩, some 0⟩

theorem Where.day_filters_select_january :
    ∃ range upTo,
      Where.ofFilters (Resolver.ofColumns [.text "ts"])
        [⟨"ts", "between", .list [.text "2025-01-14", .text "2025-01-15"]⟩] = .ok ⟨[range], 0⟩ ∧
      Where.ofFilters (Resolver.ofColumns [.text "ts"]) [⟨"ts", "lte", .text "2025-01-15"⟩] = .ok ⟨[upTo], 0⟩ ∧
      (range.Selects (januaryHour 7 (by decide)) ∧ upTo.Selects (januaryHour 7 (by decide))) ∧
      ¬ range.Selects (januaryHour 9 (by decide)) ∧ ¬ upTo.Selects (januaryHour 9 (by decide)) := by
  obtain ⟨range, upTo, stop, hstop, hrange, -, hupTo, -, hselects⟩ :=
    @Where.day_filters_select (Resolver.ofColumns [.text "ts"]) "ts" "2025-01-14" "2025-01-15"
      ⟨none, ⟨"ts", by decide⟩⟩ ⟨2025, 1, 14, by decide⟩ ⟨2025, 1, 15, by decide⟩ ⟨2025, 1, 16, by decide⟩
      rfl (by decide) (by decide) (by decide) (by decide)
  have hearlier := hselects (januaryHour 7 (by decide)) rfl
  have hlater := hselects (januaryHour 9 (by decide)) rfl
  have height := hstop.least (januaryHour 8 (by decide)) rfl
  have hreached : stop.instant ≤ (januaryHour 8 (by decide)).instant := height.mpr (by decide)
  have hbefore : (januaryHour 8 (by decide)).instant < (januaryHour 9 (by decide)).instant := by decide
  refine ⟨range, upTo, hrange, hupTo, ⟨hearlier.1.mpr (.inl (by decide)), hearlier.2.mpr (.inl (by decide))⟩,
    fun h => ?_, fun h => ?_⟩
  · rcases hlater.1.mp h with hday | hsame
    · exact absurd hday (by decide)
    · omega
  · rcases hlater.2.mp h with hday | hsame
    · exact absurd hday (by decide)
    · omega

/-- Midnight between two days is selected for both, although the clocks show the second of them. -/
theorem Where.consecutive_days_overlap :
    ∃ fifteenth sixteenth,
      Where.ofFilters (Resolver.ofColumns [.text "ts"])
        [⟨"ts", "between", .list [.text "2025-01-15", .text "2025-01-15"]⟩] = .ok ⟨[fifteenth], 0⟩ ∧
      Where.ofFilters (Resolver.ofColumns [.text "ts"])
        [⟨"ts", "between", .list [.text "2025-01-16", .text "2025-01-16"]⟩] = .ok ⟨[sixteenth], 0⟩ ∧
      fifteenth.Selects (januaryHour 8 (by decide)) ∧ sixteenth.Selects (januaryHour 8 (by decide)) ∧
      Pacific.shownDay (januaryHour 8 (by decide)) = (⟨2025, 1, 16, by decide⟩ : Date).dayNumber := by
  have hfifteenth : Bound.ofText "2025-01-15" false =
      .ok ⟨⟨2025, 1, 15, by decide⟩, ⟨8, 0, 0, 0, by decide⟩, some 0⟩ := by decide +kernel
  have hsixteenth : Bound.ofText "2025-01-15" true =
      .ok ⟨⟨2025, 1, 16, by decide⟩, ⟨8, 0, 0, 0, by decide⟩, some 0⟩ := by decide +kernel
  have hsixteenth' : Bound.ofText "2025-01-16" false =
      .ok ⟨⟨2025, 1, 16, by decide⟩, ⟨8, 0, 0, 0, by decide⟩, some 0⟩ := by decide +kernel
  have hseventeenth : Bound.ofText "2025-01-16" true =
      .ok ⟨⟨2025, 1, 17, by decide⟩, ⟨8, 0, 0, 0, by decide⟩, some 0⟩ := by decide +kernel
  have hcolumn : Resolver.ofColumns [.text "ts"] "ts" = .ok ⟨none, ⟨"ts", by decide⟩⟩ := rfl
  exact ⟨_, _, Where.ofFilters_between hcolumn hfifteenth hsixteenth,
    Where.ofFilters_between hcolumn hsixteenth' hseventeenth,
    .between (by decide) (by decide), .between (by decide) (by decide), by decide⟩

end TableSteward

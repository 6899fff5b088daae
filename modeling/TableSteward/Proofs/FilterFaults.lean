import TableSteward.Proofs.ConditionReading
import TableSteward.Proofs.DayFilters

/-!
# Faults of filters

Filters that are not compiled are refused, and the refusal says whether a name, an operator or a value is wrong.  Only
one fault has no words of its own: the calendar ends with the year 9999, and a bound may lie behind its end, be it the
day after its last day or an evening hour of that day on the Pacific coast.
-/
set_option autoImplicit false

namespace TableSteward

/-! ## Instants behind the calendar -/

theorem Date.eq_last_of_dayNumber {d : Date} (h : d.dayNumber = lastNumber) :
    d.year = 9999 ∧ d.month = 12 ∧ d.day = 31 := by
  rcases next?_cases d with ⟨e, he, -⟩ | ⟨-, hyear, hmonth, hday⟩
  · rw [next?_eq_none_iff.mpr h] at he
    exact nomatch he
  · exact ⟨hyear, hmonth, hday⟩

def Date.last : Date := ⟨9999, 12, 31, by decide⟩

theorem Date.last_iff {d : Date} : d = last ↔ d.dayNumber = lastNumber := by
  refine ⟨?_, fun h => ?_⟩
  · rintro rfl
    decide
  · obtain ⟨year, month, day, isDay⟩ := d
    obtain ⟨rfl, rfl, rfl⟩ := eq_last_of_dayNumber h
    rfl

/-- Clocks on the last day of the calendar run by standard time. -/
theorem Pacific.toUtc_last (second : Nat) :
    toUtc Date.last second = ((Date.lastNumber : Int) - 1) * 86400 + second + 28800 := by
  have hnumber : Date.last.dayNumber = Date.lastNumber := Date.last_iff.mp rfl
  have hreached : (autumn 9999).instant + max (autumn 9999).before (autumn 9999).after ≤
      localSecond Date.last second := by
    have hstart : (autumn 9999).instant + max (autumn 9999).before (autumn 9999).after ≤
        localSecond Date.last 0 := by decide
    unfold localSecond at *
    omega
  have hoffset : offsetOfLocal 9999 (localSecond Date.last second) = standard := by
    simp only [offsetOfLocal, offsetWhere, changesIn, lastOfHistory, Nat.reduceLeDiff, if_false,
      List.foldl_cons, List.foldl_nil]
    rw [if_pos (decide_eq_true hreached)]
    rfl
  rw [toUtc, show Date.last.year = 9999 from rfl, hoffset, localSecond, hnumber, standard]
  omega

namespace Bound

theorem timestamp_cases {n : Int} (hpos : 0 ≤ n) :
    (n < Timestamp.endOfCalendar ∧ ∃ t, timestamp n = .ok t) ∨
      (Timestamp.endOfCalendar ≤ n ∧ timestamp n = .error .overflow) := by
  by_cases hend : n < Timestamp.endOfCalendar
  · obtain ⟨t, ht, -⟩ := Timestamp.ofUtcSeconds?_eq_some hpos hend
    exact .inl ⟨hend, t, by rw [timestamp, ht]⟩
  · have hend : Timestamp.endOfCalendar ≤ n := by omega
    exact .inr ⟨hend, by rw [timestamp, Timestamp.ofUtcSeconds?_eq_none hend]⟩

/-- Sixteen hours of the last day are over before the calendar ends in Greenwich. -/
theorem timestamp_toUtc_cases (d : Date) {second : Nat} (hsecond : second < 86400) :
    (∃ t, timestamp (Pacific.toUtc d second) = .ok t) ∨
      (timestamp (Pacific.toUtc d second) = .error .overflow ∧ d = Date.last ∧ 57600 ≤ second) := by
  obtain ⟨hpos, hbound⟩ := Pacific.toUtc_bounds d hsecond
  rcases timestamp_cases hpos with ⟨-, hok⟩ | ⟨hend, hfault⟩
  · exact .inl hok
  · have hlast : d = Date.last := by
      have hnumber := d.dayNumber_le_lastNumber
      unfold Timestamp.endOfCalendar at hend
      exact Date.last_iff.mpr (by omega)
    subst hlast
    rw [Pacific.toUtc_last] at hend
    unfold Timestamp.endOfCalendar at hend
    exact .inr ⟨hfault, rfl, by omega⟩

theorem timestamp_toUtc_last {second : Nat} (hsecond : 57600 ≤ second) :
    timestamp (Pacific.toUtc Date.last second) = .error .overflow := by
  have hend : Timestamp.endOfCalendar ≤ Pacific.toUtc Date.last second := by
    rw [Pacific.toUtc_last, Timestamp.endOfCalendar]
    omega
  rw [timestamp, Timestamp.ofUtcSeconds?_eq_none hend]

theorem startOfNext_cases (d : Date) :
    (∃ t, startOfNext d = .ok t) ∨ (startOfNext d = .error .overflow ∧ d = Date.last) := by
  unfold startOfNext
  cases hnext : d.next? with
  | some next =>
      obtain ⟨t, ht, -⟩ := startOf_eq next
      exact .inl ⟨t, ht⟩
  | none => exact .inr ⟨rfl, Date.last_iff.mpr (Date.next?_eq_none_iff.mp hnext)⟩

theorem startOfNext_last : startOfNext Date.last = .error .overflow := by
  rw [startOfNext, Date.next?_eq_none_iff.mpr (Date.last_iff.mp rfl)]

end Bound

/-! ## Texts of bounds -/

/-- A text of a bound behind the calendar: the last day as an upper bound, or one of its last eight hours. -/
inductive IsBehindCalendar (s : String) (upper : Bool) : Prop
  | day : upper = true → DateText.read? s = some (.day 9999 12 31) → IsBehindCalendar s upper
  | moment {hour minute second : Nat} : DateText.read? s = some (.moment 9999 12 31 hour minute second) →
      16 ≤ hour → hour < 24 → minute < 60 → second < 60 → IsBehindCalendar s upper

namespace Bound

theorem dayOf_cases (given : String) (year month dayOfMonth : Nat) :
    (∃ d : Date, dayOf given year month dayOfMonth = .ok d ∧
        d.year = year ∧ d.month = month ∧ d.day = dayOfMonth) ∨
      dayOf given year month dayOfMonth = refuse (.invalidValue (.noSuchDay given)) := by
  unfold dayOf
  cases hparts : Date.ofParts? year month dayOfMonth with
  | some d => exact .inl ⟨d, rfl, Date.ofParts?_eq_some hparts⟩
  | none => exact .inr rfl

theorem dayOf_last (given : String) : dayOf given 9999 12 31 = .ok Date.last := rfl

theorem ofText_cases (s : String) (upper : Bool) :
    (∃ t, ofText s upper = .ok t) ∨ (∃ p, ofText s upper = refuse (.invalidValue p)) ∨
      (ofText s upper = .error .overflow ∧ IsBehindCalendar s upper) := by
  unfold ofText
  cases hread : DateText.read? s with
  | none => exact .inr (.inl ⟨_, rfl⟩)
  | some read =>
      cases read with
      | day year month dayOfMonth =>
          rcases dayOf_cases s year month dayOfMonth with ⟨d, hd, rfl, rfl, rfl⟩ | hd
          · simp only [hd, Result.ok_bind]
            cases upper with
            | false =>
                obtain ⟨t, ht, -⟩ := startOf_eq d
                exact .inl ⟨t, ht⟩
            | true =>
                rcases startOfNext_cases d with hok | ⟨hfault, rfl⟩
                · exact .inl hok
                · exact .inr (.inr ⟨hfault, .day rfl hread⟩)
          · simp only [hd]
            exact .inr (.inl ⟨_, rfl⟩)
      | moment year month dayOfMonth hour minute second =>
          rcases dayOf_cases s year month dayOfMonth with ⟨d, hd, rfl, rfl, rfl⟩ | hd
          · simp only [hd, Result.ok_bind]
            by_cases hstart : (hour, minute, second) = (0, 0, 0)
            · rw [if_pos hstart]
              obtain ⟨t, ht, -⟩ := startOf_eq d
              exact .inl ⟨t, ht⟩
            rw [if_neg hstart]
            by_cases hend : (hour, minute, second) = (23, 59, 59)
            · rw [if_pos hend]
              obtain ⟨rfl, rfl, rfl⟩ : hour = 23 ∧ minute = 59 ∧ second = 59 := by simpa using hend
              rcases startOfNext_cases d with hok | ⟨hfault, rfl⟩
              · exact .inl hok
              · exact .inr (.inr ⟨hfault, .moment hread (by decide) (by decide) (by decide) (by decide)⟩)
            rw [if_neg hend]
            by_cases htime : hour < 24 ∧ minute < 60 ∧ second < 60 ∧ 0 < 1000000
            · simp only [TimeOfDay.ofParts?, dif_pos htime]
              have hsecond := TimeOfDay.secondOfDay_lt ⟨hour, minute, second, 0, htime⟩
              rcases timestamp_toUtc_cases d hsecond with hok | ⟨hfault, rfl, hlate⟩
              · exact .inl hok
              · have hhour : 16 ≤ hour := by
                  simp only [TimeOfDay.secondOfDay] at hlate
                  omega
                exact .inr (.inr ⟨hfault, .moment hread hhour htime.1 htime.2.1 htime.2.2.1⟩)
            · simp only [TimeOfDay.ofParts?, dif_neg htime]
              exact .inr (.inl ⟨_, rfl⟩)
          · simp only [hd]
            exact .inr (.inl ⟨_, rfl⟩)

theorem ofText_of_behind {s : String} {upper : Bool} (h : IsBehindCalendar s upper) :
    ofText s upper = .error .overflow := by
  unfold ofText
  cases h with
  | day hupper hread =>
      simp only [hread, dayOf_last, Result.ok_bind, hupper, if_true]
      exact startOfNext_last
  | @moment hour minute second hread hhour hhour' hminute hsecond =>
      simp only [hread, dayOf_last, Result.ok_bind]
      rw [if_neg (by simp only [Prod.mk.injEq]; omega)]
      by_cases hend : (hour, minute, second) = (23, 59, 59)
      · rw [if_pos hend]
        exact startOfNext_last
      · have htime : hour < 24 ∧ minute < 60 ∧ second < 60 ∧ 0 < 1000000 := by omega
        rw [if_neg hend]
        simp only [TimeOfDay.ofParts?, dif_pos htime]
        exact timestamp_toUtc_last (by simp only [TimeOfDay.secondOfDay]; omega)

end Bound

/-! ## Outcomes -/

/-- What the compilation of filters is refused for. -/
def Refusal.IsOfFilter (r : Refusal) : Prop :=
  r.kind ∈ ["invalid_identifier", "invalid_column", "invalid_operator", "invalid_value"] ∧ r.status = 400

theorem isOfFilter_invalidValue (p : ValueProblem) : Refusal.IsOfFilter (.invalidValue p) :=
  ⟨List.Mem.tail _ (.tail _ (.tail _ (.head _))), rfl⟩

/-- A computation on filters has a value, is refused or overflows, the last of these just if `P` holds. -/
inductive Concludes {α : Type} (P : Prop) : Result α → Prop
  | value {a : α} : ¬ P → Concludes P (.ok a)
  | refusal {r : Refusal} : r.IsOfFilter → ¬ P → Concludes P (.error (.refused r))
  | overflow : P → Concludes P (.error .overflow)

namespace Concludes

variable {α β : Type} {P : Prop} {x : Result α}

theorem exhaustive (h : Concludes P x) :
    (∃ a, x = .ok a) ∨ (∃ r, x = refuse r ∧ r.IsOfFilter) ∨ x = .error .overflow := by
  cases h with
  | value _ => exact .inl ⟨_, rfl⟩
  | refusal hr _ => exact .inr (.inl ⟨_, rfl, hr⟩)
  | overflow _ => exact .inr (.inr rfl)

theorem congr {Q : Prop} (h : Concludes P x) (hiff : P ↔ Q) : Concludes Q x := by
  rwa [← propext hiff]

theorem of_false (h : Concludes False x) (hP : ¬ P) : Concludes P x :=
  h.congr ⟨False.elim, hP⟩

theorem bind {f : α → Result β} {Q : α → Prop} (hx : Concludes P x)
    (hf : ∀ a, x = .ok a → Concludes (Q a) (f a)) : Concludes (P ∨ ∃ a, x = .ok a ∧ Q a) (x >>= f) := by
  cases hx with
  | @value a hP =>
      refine (hf a rfl).congr ⟨fun hQ => .inr ⟨a, rfl, hQ⟩, ?_⟩
      rintro (h | ⟨_, ⟨⟩, hQ⟩)
      · exact absurd h hP
      · exact hQ
  | refusal hr hP =>
      refine .refusal hr ?_
      rintro (h | ⟨_, ⟨⟩, -⟩)
      exact hP h
  | overflow hP => exact .overflow (.inl hP)

/-- A step that cannot overflow. -/
theorem bind_of_false {f : α → Result β} {Q : α → Prop} (hx : Concludes False x)
    (hf : ∀ a, x = .ok a → Concludes (Q a) (f a)) : Concludes (∃ a, x = .ok a ∧ Q a) (x >>= f) :=
  (hx.bind hf).congr (or_iff_right id)

/-- A step after which nothing can overflow. -/
theorem map (hx : Concludes P x) (f : α → β) : Concludes P (x >>= fun a => .ok (f a)) := by
  cases hx with
  | value hP => exact .value hP
  | refusal hr hP => exact .refusal hr hP
  | overflow hP => exact .overflow hP

theorem pure (a : α) : Concludes False (.ok a) := .value id

theorem invalidValue (p : ValueProblem) : Concludes (α := α) False (refuse (.invalidValue p)) :=
  .refusal (isOfFilter_invalidValue p) id

end Concludes

/-! ## Faults of one filter -/

/-- A value that is a text of a bound behind the calendar. -/
inductive Value.IsBehindCalendar (upper : Bool) : Value → Prop
  | text {s : String} : TableSteward.IsBehindCalendar s upper → IsBehindCalendar upper (.text s)

theorem Bound.concludes_ofText (s : String) (upper : Bool) :
    Concludes (IsBehindCalendar s upper) (Bound.ofText s upper) := by
  have hbehind : IsBehindCalendar s upper → Bound.ofText s upper = .error .overflow :=
    fun h => Bound.ofText_of_behind h
  rcases Bound.ofText_cases s upper with ⟨t, ht⟩ | ⟨p, hp⟩ | ⟨hfault, h⟩
  · rw [ht] at hbehind ⊢
    exact .value fun h => nomatch hbehind h
  · rw [hp] at hbehind ⊢
    exact .refusal (isOfFilter_invalidValue p) fun h => nomatch hbehind h
  · rw [hfault]
    exact .overflow h

theorem IsBehindCalendar.isSome_read {s : String} {upper : Bool} (h : IsBehindCalendar s upper) :
    (DateText.read? s).isSome = true := by
  cases h with
  | day _ hread => rw [hread]; rfl
  | moment hread => rw [hread]; rfl

theorem Bound.concludes_ofValue (v : Value) (upper : Bool) :
    Concludes (v.IsBehindCalendar upper) (Bound.ofValue v upper) := by
  cases v with
  | text s =>
      simp only [Bound.ofValue]
      by_cases hread : (DateText.read? s).isSome = true
      · rw [if_pos hread]
        exact ((concludes_ofText s upper).map Value.timestamp).congr ⟨.text, by rintro ⟨h⟩; exact h⟩
      · rw [if_neg hread]
        refine .value ?_
        rintro ⟨h⟩
        exact hread h.isSome_read
  | _ => exact .value (by rintro ⟨⟩)

/-- The value of a filter has a bound behind the calendar, and nothing about it is wrong before that bound is read. -/
inductive Operator.Overflows : Operator → Value → Prop
  | compare {c : Comparison} {v : Value} : v.IsBehindCalendar c.isUpper → Overflows (.compare c) v
  | low {v w : Value} : v.IsBehindCalendar false → w.isScalar = true → Overflows .between (.list [v, w])
  | high {v w : Value} : v.isScalar = true → (∃ low, Bound.ofValue v false = .ok low) →
      w.IsBehindCalendar true → Overflows .between (.list [v, w])

theorem Value.IsBehindCalendar.isScalar {v : Value} {upper : Bool} (h : v.IsBehindCalendar upper) :
    v.isScalar = true := by
  cases h
  rfl

theorem FilterSpec.concludes_scalar (f : FilterSpec) : Concludes False f.scalar := by
  unfold scalar
  split
  · exact .pure _
  · exact .invalidValue _

theorem FilterSpec.concludes_scalars (f : FilterSpec) : Concludes False f.scalars := by
  unfold scalars
  split
  · dsimp only
    split
    · exact .pure _
    · exact .invalidValue _
  · exact .invalidValue _

theorem FilterSpec.isScalar_of_scalars (f : FilterSpec) {vs : List Value} (h : f.scalars = .ok vs) :
    ∀ v ∈ vs, v.isScalar = true := by
  have hvalue := value_of_scalars h
  unfold scalars at h
  rw [hvalue] at h
  dsimp only at h
  by_cases hall : vs.all Value.isScalar = true
  · exact List.all_eq_true.mp hall
  · rw [if_neg hall] at h
    exact nomatch h

theorem FilterSpec.scalars_of_value (f : FilterSpec) {vs : List Value} (hvalue : f.value = .list vs)
    (hscalar : ∀ v ∈ vs, v.isScalar = true) : f.scalars = .ok vs := by
  unfold scalars
  rw [hvalue]
  exact if_pos (List.all_eq_true.mpr hscalar)

theorem Operator.Overflows.scalars {v : Value} (h : Operator.Overflows .between v) :
    ∃ vs, v = .list vs ∧ ∀ w ∈ vs, w.isScalar = true := by
  cases h with
  | low hlow hhigh => exact ⟨_, rfl, by simp [hlow.isScalar, hhigh]⟩
  | high hlow _ hhigh => exact ⟨_, rfl, by simp [hlow, hhigh.isScalar]⟩

/-- The lower end of a range is read first. -/
theorem Condition.concludes_range (column : ColumnExpr) {v w : Value} (hv : v.isScalar = true)
    (hw : w.isScalar = true) :
    Concludes (Operator.Overflows .between (.list [v, w])) (do
      let low ← Bound.ofValue v false
      let high ← Bound.ofValue w true
      return Condition.between column low high) := by
  refine ((Bound.concludes_ofValue v false).bind fun low _ =>
    (Bound.concludes_ofValue w true).map (Condition.between column low)).congr ⟨?_, ?_⟩
  · rintro (h | ⟨low, hlow, h⟩)
    · exact .low h hw
    · exact .high hv ⟨low, hlow⟩ h
  · rintro (_ | ⟨h, -⟩ | ⟨-, ⟨low, hlow⟩, h⟩)
    · exact .inl h
    · exact .inr ⟨low, hlow, h⟩

theorem Condition.concludes_ofFilter (f : FilterSpec) (column : ColumnExpr) (operator : Operator) :
    Concludes (operator.Overflows f.value) (Condition.ofFilter f column operator) := by
  cases operator with
  | compare c =>
      refine (f.concludes_scalar.bind_of_false (Q := fun v => v.IsBehindCalendar c.isUpper) fun v _ =>
        (Bound.concludes_ofValue v c.isUpper).map _).congr ⟨?_, ?_⟩
      · rintro ⟨v, hv, h⟩
        rw [FilterSpec.value_of_scalar hv]
        exact .compare h
      · rintro ⟨h⟩
        exact ⟨f.value, by rw [FilterSpec.scalar, if_pos h.isScalar], h⟩
  | contains => exact (f.concludes_scalar.map _).of_false (by rintro ⟨⟩)
  | oneOf =>
      refine (f.concludes_scalars.bind_of_false (Q := fun _ => False) fun vs _ => ?_).congr
        ⟨by rintro ⟨_, _, ⟨⟩⟩, by rintro ⟨⟩⟩
      cases vs with
      | nil => exact .invalidValue _
      | cons v rest => exact .pure _
  | between =>
      refine (f.concludes_scalars.bind_of_false (Q := fun vs => Operator.Overflows .between (.list vs))
        fun vs hvs => ?_).congr ⟨?_, ?_⟩
      · rcases vs with _ | ⟨v, _ | ⟨w, _ | ⟨third, rest⟩⟩⟩
        · exact (Concludes.invalidValue _).of_false (by rintro ⟨⟩)
        · exact (Concludes.invalidValue _).of_false (by rintro ⟨⟩)
        · exact concludes_range column (f.isScalar_of_scalars hvs v (by simp))
            (f.isScalar_of_scalars hvs w (by simp))
        · exact (Concludes.invalidValue _).of_false (by rintro ⟨⟩)
      · rintro ⟨vs, hvs, h⟩
        rwa [FilterSpec.value_of_scalars hvs]
      · intro h
        obtain ⟨vs, hvalue, hscalar⟩ := h.scalars
        exact ⟨vs, f.scalars_of_value hvalue hscalar, hvalue ▸ h⟩

/-! ## Faults of names -/

theorem Identifier.concludes_ofText (role s : String) : Concludes False (Identifier.ofText role s) := by
  unfold ofText
  split
  · exact .pure _
  · exact .refusal ⟨.head _, rfl⟩ id

theorem Operator.concludes_ofName (s : String) : Concludes False (Operator.ofName s) := by
  unfold ofName
  split
  · exact .pure _
  · exact .refusal ⟨.tail _ (.tail _ (.head _)), rfl⟩ id

theorem Operator.ofName_name (operator : Operator) : Operator.ofName operator.name = .ok operator := by
  cases operator with
  | compare c => cases c <;> rfl
  | _ => rfl

/-- A filter whose operator and column are in order and whose value overflows. -/
def FilterSpec.Overflows (known : List String) (f : FilterSpec) : Prop :=
  ∃ operator : Operator, operator.name = f.operator ∧
    (f.column ∈ known ∧ Name.isIdentifier f.column = true) ∧ operator.Overflows f.value

/-- A list overflows at the first of its items that has no value, if that one overflows. -/
inductive Result.OverflowsAt {α β : Type} (P : α → Prop) (f : α → Result β) : List α → Prop
  | here {a : α} {rest : List α} : P a → OverflowsAt P f (a :: rest)
  | later {a : α} {b : β} {rest : List α} : f a = .ok b → OverflowsAt P f rest → OverflowsAt P f (a :: rest)

theorem Concludes.mapM {α β : Type} {P : α → Prop} {f : α → Result β} (hf : ∀ a, Concludes (P a) (f a))
    (xs : List α) : Concludes (Result.OverflowsAt P f xs) (xs.mapM f) := by
  induction xs with
  | nil => exact .value fun h => (nomatch h)
  | cons x rest ih =>
      rw [List.mapM_cons]
      refine ((hf x).bind fun b _ => ih.map (b :: ·)).congr ⟨?_, ?_⟩
      · rintro (h | ⟨b, hb, h⟩)
        · exact .here h
        · exact .later hb h
      · rintro (h | ⟨hb, h⟩)
        · exact .inl h
        · exact .inr ⟨_, hb, h⟩

end TableSteward

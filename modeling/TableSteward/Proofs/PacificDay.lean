import TableSteward.Calendar.Pacific
import TableSteward.Proofs.DayNumber

/-!
# The days of the Pacific clocks

The clocks run ahead or back now and then, but never across midnight.  So the first instant of a day, which is found
from its local time, parts the instants at which the clocks show that day or a later one from all earlier instants,
whether the days before and after it have 23, 24 or 25 hours.
-/
set_option autoImplicit false

namespace TableSteward.Pacific

/-! ## Lists of changes -/

namespace Change

/-- The clocks show the same day just before the change and just after it. -/
def WithinDay (c : Change) : Prop := (c.instant + c.before) / 86400 = (c.instant + c.after) / 86400

/-- What the clocks show at the change, by the one of its two offsets that shows more. -/
def shown (c : Change) : Int := c.instant + max c.before c.after

/-- An offset by which the clocks are less than a day behind. -/
def IsOffset (offset : Int) : Prop := -86400 < offset ∧ offset ≤ 0

instance (c : Change) : Decidable c.WithinDay := inferInstanceAs (Decidable (_ = _))

instance (offset : Int) : Decidable (IsOffset offset) := inferInstanceAs (Decidable (_ ∧ _))

end Change

/-- Changes in order of time from an offset on, each of which takes over the offset of the one before it. -/
def Orderly : Int → List Change → Prop
  | _, [] => True
  | start, c :: rest =>
      c.before = start ∧ c.WithinDay ∧ Change.IsOffset c.after ∧
        (∀ d ∈ rest, c.instant ≤ d.instant ∧ c.shown ≤ d.shown) ∧ Orderly c.after rest

def decideOrderly : (start : Int) → (changes : List Change) → Decidable (Orderly start changes)
  | _, [] => .isTrue trivial
  | start, c :: rest =>
      have := decideOrderly c.after rest
      inferInstanceAs (Decidable (c.before = start ∧ c.WithinDay ∧ Change.IsOffset c.after ∧
        (∀ d ∈ rest, c.instant ≤ d.instant ∧ c.shown ≤ d.shown) ∧ Orderly c.after rest))

instance (start : Int) (changes : List Change) : Decidable (Orderly start changes) :=
  decideOrderly start changes

/-- The offset after the changes that are reached. -/
def offsetAfter (reached : Change → Bool) (start : Int) (changes : List Change) : Int :=
  changes.foldl (fun offset c => if reached c then c.after else offset) start

section

variable {reached : Change → Bool} {start : Int} {changes : List Change}

theorem offsetAfter_cons_of_reached {c : Change} (h : reached c = true) :
    offsetAfter reached start (c :: changes) = offsetAfter reached c.after changes := by
  simp only [offsetAfter, List.foldl_cons, h, if_true]

theorem offsetAfter_cons_of_not_reached {c : Change} (h : reached c = false) :
    offsetAfter reached start (c :: changes) = offsetAfter reached start changes := by
  simp [offsetAfter, h]

theorem offsetAfter_of_not_reached (h : ∀ c ∈ changes, reached c = false) :
    offsetAfter reached start changes = start := by
  induction changes with
  | nil => rfl
  | cons c rest ih =>
      rw [offsetAfter_cons_of_not_reached (h c List.mem_cons_self)]
      exact ih fun d hd => h d (List.mem_cons_of_mem c hd)

theorem isOffset_offsetAfter (hstart : Change.IsOffset start)
    (hchanges : ∀ c ∈ changes, Change.IsOffset c.after) :
    Change.IsOffset (offsetAfter reached start changes) := by
  induction changes generalizing start with
  | nil => exact hstart
  | cons c rest ih =>
      have hrest : ∀ d ∈ rest, Change.IsOffset d.after := fun d hd =>
        hchanges d (List.mem_cons_of_mem c hd)
      cases hreached : reached c with
      | true =>
          rw [offsetAfter_cons_of_reached hreached]
          exact ih (hchanges c List.mem_cons_self) hrest
      | false =>
          rw [offsetAfter_cons_of_not_reached hreached]
          exact ih hstart hrest

theorem Orderly.isOffset (h : Orderly start changes) : ∀ c ∈ changes, Change.IsOffset c.after := by
  induction changes generalizing start with
  | nil => exact fun c hc => (nomatch hc)
  | cons c rest ih =>
      obtain ⟨-, -, hoffset, -, hrest⟩ := h
      intro d hd
      rcases List.mem_cons.mp hd with rfl | hd
      · exact hoffset
      · exact ih hrest d hd

end

/-- A local time whose change is behind an instant, or an instant whose change is behind a local time: where the two
disagree, the day begins on the same side of both. -/
theorem Orderly.le_iff {start : Int} {changes : List Change} (h : Orderly start changes) (day instant : Int) :
    day * 86400 - offsetAfter (fun c => c.shown ≤ day * 86400) start changes ≤ instant ↔
      day * 86400 ≤ instant + offsetAfter (fun c => c.instant ≤ instant) start changes := by
  induction changes generalizing start with
  | nil =>
      simp only [offsetAfter, List.foldl_nil]
      omega
  | cons c rest ih =>
      obtain ⟨hbefore, hwithin, -, hlater, hrest⟩ := h
      have hstep := ih hrest
      unfold Change.WithinDay at hwithin
      unfold Change.shown at *
      by_cases hday : c.instant + max c.before c.after ≤ day * 86400
      · rw [offsetAfter_cons_of_reached (decide_eq_true hday)]
        by_cases hinstant : c.instant ≤ instant
        · rw [offsetAfter_cons_of_reached (decide_eq_true hinstant)]
          exact hstep
        · -- the change is still to come, and the day begins after it
          have hunreached : ∀ d ∈ rest, decide (d.instant ≤ instant) = false := fun d hd => by
            have := (hlater d hd).1
            exact decide_eq_false (by omega)
          rw [offsetAfter_of_not_reached hunreached] at hstep
          rw [offsetAfter_cons_of_not_reached (decide_eq_false hinstant),
            offsetAfter_of_not_reached hunreached]
          omega
      · have hunreached : ∀ d ∈ rest, decide (d.instant + max d.before d.after ≤ day * 86400) = false :=
          fun d hd => by
            have := (hlater d hd).2
            exact decide_eq_false (by omega)
        rw [offsetAfter_of_not_reached hunreached] at hstep
        rw [offsetAfter_cons_of_not_reached (decide_eq_false hday),
          offsetAfter_of_not_reached hunreached]
        by_cases hinstant : c.instant ≤ instant
        · -- the change is over, and the day of the change, or an earlier one, begins before it
          rw [offsetAfter_cons_of_reached (decide_eq_true hinstant)]
          omega
        · have hahead : ∀ d ∈ rest, decide (d.instant ≤ instant) = false := fun d hd => by
            have := (hlater d hd).1
            exact decide_eq_false (by omega)
          rw [offsetAfter_cons_of_not_reached (decide_eq_false hinstant),
            offsetAfter_of_not_reached hahead]
          omega

/-! ## The changes of each year -/

theorem orderly_history : Orderly meanTime (history ++ [autumn lastOfHistory]) := by
  decide +kernel

theorem sunday_bounds (year month n : Nat) (hn : 1 ≤ n) :
    7 * (n - 1) + 1 ≤ sunday year month n ∧ sunday year month n ≤ 7 * n := by
  simp only [sunday]
  omega

/-- Both changes are made at two in the morning, and March is followed by equally many days in every year. -/
theorem orderly_springAutumn {year : Nat} : Orderly standard [spring year, autumn year] := by
  have hspring := sunday_bounds year 3 2 (by decide)
  have hautumn := sunday_bounds year 11 1 (by decide)
  have hlength : Date.daysBeforeMonth year 11 = Date.daysBeforeMonth year 3 + 245 := rfl
  have hwithin : (spring year).WithinDay ∧ (autumn year).WithinDay := by
    simp only [Change.WithinDay, spring, autumn, secondsAt, standard, daylight]
    omega
  have horder : (spring year).instant ≤ (autumn year).instant := by
    simp only [spring, autumn, secondsAt]
    omega
  have hshown : (spring year).shown ≤ (autumn year).shown := by
    simp only [Change.shown, spring, autumn, standard, daylight] at horder ⊢
    omega
  have hoffset : Change.IsOffset daylight ∧ Change.IsOffset standard := by decide
  refine ⟨rfl, hwithin.1, hoffset.1, ?_, rfl, hwithin.2, hoffset.2, ?_, trivial⟩
  · intro c hc
    rw [List.mem_singleton.mp hc]
    exact ⟨horder, hshown⟩
  · exact fun c hc => (nomatch hc)

theorem orderly_changesIn (year : Nat) : Orderly (offsetBefore year) (changesIn year) := by
  unfold offsetBefore changesIn
  by_cases hyear : year ≤ lastOfHistory
  · rw [if_pos hyear, if_pos hyear]
    exact orderly_history
  · rw [if_neg hyear, if_neg hyear]
    exact orderly_springAutumn

theorem isOffset_offsetWhere (reached : Change → Bool) (year : Nat) :
    Change.IsOffset (offsetWhere reached year) := by
  refine isOffset_offsetAfter ?_ (orderly_changesIn year).isOffset
  unfold offsetBefore
  split <;> decide

/-! ## Days -/

/-- The number of the day that the clocks show at a timestamp of Greenwich. -/
def shownDay (t : Timestamp) : Int := (t.second + offsetAt t.date.year t.second) / 86400 + 1

/-- The first instant of a day is reached just if the clocks show that day or a later one. -/
theorem midnight_le_iff (d : Date) (t : Timestamp) :
    midnight d ≤ t.second ↔ (d.dayNumber : Int) ≤ shownDay t := by
  have hshown : (d.dayNumber : Int) ≤ shownDay t ↔
      ((d.dayNumber : Int) - 1) * 86400 ≤ t.second + offsetAt t.date.year t.second := by
    unfold shownDay
    omega
  have hlocal : localSecond d 0 = ((d.dayNumber : Int) - 1) * 86400 := by simp [localSecond]
  rw [hshown, midnight, toUtc, hlocal]
  by_cases hyear : d.year = t.date.year
  · rw [hyear]
    exact (orderly_changesIn t.date.year).le_iff _ _
  · -- in different years, the offsets are too small to matter
    have hread : Change.IsOffset (offsetOfLocal d.year (((d.dayNumber : Int) - 1) * 86400)) :=
      isOffset_offsetWhere _ _
    have hclock : Change.IsOffset (offsetAt t.date.year t.second) := isOffset_offsetWhere _ _
    have hsecond := t.second_bounds
    unfold Change.IsOffset at hread hclock
    rcases Nat.lt_or_gt_of_ne hyear with hearlier | hlater
    · have hdays : d.dayNumber < t.date.dayNumber := by
        refine Nat.lt_of_not_le fun hle => ?_
        have := Date.year_le_of_dayNumber_le hle
        omega
      omega
    · have hdays : t.date.dayNumber < d.dayNumber := by
        refine Nat.lt_of_not_le fun hle => ?_
        have := Date.year_le_of_dayNumber_le hle
        omega
      omega

/-- At the first instant of a day the clocks show that day and no later one. -/
theorem shownDay_of_midnight {d : Date} {t : Timestamp} (h : t.second = midnight d) :
    shownDay t = d.dayNumber := by
  have hleast : (d.dayNumber : Int) ≤ shownDay t := (midnight_le_iff d t).mp (Int.le_of_eq h.symm)
  have hread : Change.IsOffset (offsetOfLocal d.year (localSecond d 0)) := isOffset_offsetWhere _ _
  have hclock : Change.IsOffset (offsetAt t.date.year t.second) := isOffset_offsetWhere _ _
  unfold Change.IsOffset at hread hclock
  unfold shownDay at *
  unfold midnight toUtc at h
  unfold localSecond at *
  omega

/-- No local time before the last day of the calendar is an instant behind the calendar, and none is one before it. -/
theorem toUtc_bounds (d : Date) {second : Nat} (hsecond : second < 86400) :
    0 ≤ toUtc d second ∧ toUtc d second < ((d.dayNumber : Int) + 1) * 86400 := by
  have hoffset : Change.IsOffset (offsetOfLocal d.year (localSecond d second)) := isOffset_offsetWhere _ _
  have hpos := d.dayNumber_pos
  unfold Change.IsOffset at hoffset
  unfold toUtc
  unfold localSecond at *
  omega

theorem midnight_bounds (d : Date) : 0 ≤ midnight d ∧ midnight d < Timestamp.endOfCalendar := by
  have hoffset : Change.IsOffset (offsetOfLocal d.year (localSecond d 0)) := isOffset_offsetWhere _ _
  have hpos := d.dayNumber_pos
  have hlast := d.dayNumber_le_lastNumber
  unfold Change.IsOffset at hoffset
  unfold midnight toUtc Timestamp.endOfCalendar
  unfold localSecond at *
  omega

end TableSteward.Pacific

import TableSteward.Calendar.Timestamp

/-!
# Days and their numbers

The days of the calendar follow one another without a gap.  The day after a day has the next number, every number from
that of the first day to that of the last one is the number of a day, and no other number is.  So a count of seconds
is written as a timestamp just if it falls within the calendar.
-/
set_option autoImplicit false

namespace TableSteward

/-! ## Lengths of months and years -/

theorem isLeapYear_iff {year : Nat} :
    isLeapYear year = true ↔ year % 4 = 0 ∧ (year % 100 ≠ 0 ∨ year % 400 = 0) := by
  simp [isLeapYear]

def daysInYear (year : Nat) : Nat := if isLeapYear year then 366 else 365

theorem daysInMonth_bounds (year month : Nat) :
    28 ≤ daysInMonth year month ∧ daysInMonth year month ≤ 31 := by
  unfold daysInMonth
  split
  · split <;> omega
  all_goals omega

namespace Date

theorem daysBeforeYear_succ {year : Nat} (hyear : 1 ≤ year) :
    daysBeforeYear (year + 1) = daysBeforeYear year + daysInYear year := by
  -- each of the three quotients grows by one just in the years that its divisor divides
  have hfour : year / 4 = (year - 1) / 4 + if year % 4 = 0 then 1 else 0 := by split <;> omega
  have hhundred : year / 100 = (year - 1) / 100 + if year % 100 = 0 then 1 else 0 := by split <;> omega
  have hfourHundred : year / 400 = (year - 1) / 400 + if year % 400 = 0 then 1 else 0 := by
    split <;> omega
  have hless : (year - 1) / 100 ≤ (year - 1) / 4 := by omega
  have hleap : daysInYear year =
      365 + (if year % 4 = 0 then 1 else 0) + (if year % 400 = 0 then 1 else 0) -
        (if year % 100 = 0 then 1 else 0) := by
    unfold daysInYear
    by_cases h : isLeapYear year = true
    · rw [if_pos h]
      have := isLeapYear_iff.mp h
      split <;> split <;> split <;> omega
    · rw [if_neg h]
      have := mt isLeapYear_iff.mpr h
      split <;> split <;> split <;> omega
  have hdivides : year % 100 = 0 → year % 4 = 0 := by omega
  simp only [daysBeforeYear, Nat.add_sub_cancel, hfour, hhundred, hfourHundred, hleap]
  split <;> split <;> split <;> omega

theorem daysBeforeYear_mono {year later : Nat} (hle : year ≤ later) :
    daysBeforeYear year ≤ daysBeforeYear later := by
  induction hle with
  | refl => exact Nat.le_refl _
  | @step later hle ih =>
      cases later with
      | zero => exact ih
      | succ later =>
          rw [daysBeforeYear_succ (Nat.succ_pos later)]
          exact Nat.le_trans ih (Nat.le_add_right _ _)

theorem daysBeforeMonth_succ (year : Nat) {month : Nat} (hmonth : 1 ≤ month) :
    daysBeforeMonth year (month + 1) = daysBeforeMonth year month + daysInMonth year month := by
  obtain ⟨n, rfl⟩ := Nat.exists_eq_add_of_le' hmonth
  rfl

theorem daysBeforeMonth_mono (year : Nat) {month later : Nat} (hle : month ≤ later) :
    daysBeforeMonth year month ≤ daysBeforeMonth year later := by
  induction hle with
  | refl => exact Nat.le_refl _
  | @step later hle ih =>
      cases later with
      | zero => exact ih
      | succ later => exact Nat.le_trans ih (Nat.le_add_right _ _)

theorem daysBeforeMonth_thirteen (year : Nat) : daysBeforeMonth year 13 = daysInYear year := by
  unfold daysInYear
  by_cases hleap : isLeapYear year = true <;> simp [daysBeforeMonth, daysInMonth, hleap]

/-! ## The number of a day -/

def lastNumber : Nat := daysBeforeYear (lastYear + 1)

theorem lastNumber_eq : lastNumber = 3652059 := by decide

/-- The number of the first day of a month; month 13 is January of the next year. -/
def monthStart (year month : Nat) : Nat := daysBeforeYear year + daysBeforeMonth year month + 1

theorem monthStart_one (year : Nat) : monthStart year 1 = daysBeforeYear year + 1 := rfl

theorem monthStart_thirteen {year : Nat} (hyear : 1 ≤ year) : monthStart year 13 = monthStart (year + 1) 1 := by
  rw [monthStart, monthStart, daysBeforeYear_succ hyear, daysBeforeMonth_thirteen]
  rfl

theorem monthStart_mono (year : Nat) {month later : Nat} (hle : month ≤ later) :
    monthStart year month ≤ monthStart year later := by
  have := daysBeforeMonth_mono year hle
  unfold monthStart
  omega

/-- Day, month and year as one sum: the month lies in its year, and the day in its month. -/
theorem month_within_year (d : Date) :
    daysBeforeYear d.year < monthStart d.year d.month ∧
      monthStart d.year (d.month + 1) ≤ daysBeforeYear (d.year + 1) + 1 := by
  obtain ⟨hyear, -, hmonth, hmonth', -, -⟩ := d.isDay
  have hbegin := monthStart_mono d.year hmonth
  have hend := monthStart_mono d.year (show d.month + 1 ≤ 13 by omega)
  rw [monthStart_one] at hbegin
  rw [monthStart_thirteen hyear, monthStart_one] at hend
  exact ⟨hbegin, hend⟩

theorem dayNumber_within_month (d : Date) :
    monthStart d.year d.month ≤ d.dayNumber ∧ d.dayNumber < monthStart d.year (d.month + 1) := by
  obtain ⟨-, -, hmonth, -, hday, hday'⟩ := d.isDay
  have hwithin := daysBeforeMonth_succ d.year hmonth
  unfold monthStart dayNumber
  omega

theorem dayNumber_bounds (d : Date) :
    daysBeforeYear d.year < d.dayNumber ∧ d.dayNumber ≤ daysBeforeYear (d.year + 1) := by
  have hmonth := d.month_within_year
  have hday := d.dayNumber_within_month
  omega

theorem dayNumber_pos (d : Date) : 1 ≤ d.dayNumber := by
  have := d.dayNumber_bounds
  omega

theorem dayNumber_le_lastNumber (d : Date) : d.dayNumber ≤ lastNumber := by
  have hbound := d.dayNumber_bounds.2
  have hyear : d.year + 1 ≤ lastYear + 1 := Nat.succ_le_succ d.isDay.2.1
  exact Nat.le_trans hbound (daysBeforeYear_mono hyear)

theorem year_le_of_dayNumber_le {d e : Date} (hle : d.dayNumber ≤ e.dayNumber) : d.year ≤ e.year := by
  refine Nat.le_of_not_lt fun hyear => ?_
  have hmono := daysBeforeYear_mono (show e.year + 1 ≤ d.year by omega)
  have hd := d.dayNumber_bounds
  have he := e.dayNumber_bounds
  omega

/-- The days of a month are those with numbers from that of its first day to that of the first day after it. -/
theorem within_month_iff (d e : Date) :
    monthStart d.year d.month ≤ e.dayNumber ∧ e.dayNumber < monthStart d.year (d.month + 1) ↔
      e.year = d.year ∧ e.month = d.month := by
  constructor
  · rintro ⟨hfirst, hlast⟩
    have hyear : e.year = d.year := by
      have hmonth := d.month_within_year
      have he := e.dayNumber_bounds
      rcases Nat.lt_trichotomy e.year d.year with hearlier | hsame | hlater
      · have := daysBeforeYear_mono (show e.year + 1 ≤ d.year from hearlier)
        omega
      · exact hsame
      · have := daysBeforeYear_mono (show d.year + 1 ≤ e.year from hlater)
        omega
    have he := e.dayNumber_within_month
    rw [hyear] at he
    refine ⟨hyear, ?_⟩
    rcases Nat.lt_trichotomy e.month d.month with hearlier | hsame | hlater
    · have := monthStart_mono d.year (show e.month + 1 ≤ d.month from hearlier)
      omega
    · exact hsame
    · have := monthStart_mono d.year (show d.month + 1 ≤ e.month from hlater)
      omega
  · rintro ⟨hyear, hmonth⟩
    rw [← hyear, ← hmonth]
    exact e.dayNumber_within_month

/-- A day is determined by its number. -/
theorem dayNumber_inj {d e : Date} (h : d.dayNumber = e.dayNumber) : d = e := by
  obtain ⟨hyear, hmonth⟩ := (within_month_iff d e).mp (h ▸ d.dayNumber_within_month)
  obtain ⟨dyear, dmonth, dday, hd⟩ := d
  obtain ⟨eyear, emonth, eday, he⟩ := e
  obtain rfl : eyear = dyear := hyear
  obtain rfl : emonth = dmonth := hmonth
  obtain rfl : dday = eday := Nat.add_left_cancel h
  rfl

/-! ## The next day -/

theorem ofParts?_eq_some {year month day : Nat} {d : Date} (h : ofParts? year month day = some d) :
    d.year = year ∧ d.month = month ∧ d.day = day := by
  unfold ofParts? at h
  split at h
  · cases h
    exact ⟨rfl, rfl, rfl⟩
  · cases h

theorem ofParts?_eq_none {year month day : Nat} (h : ofParts? year month day = none) :
    ¬ IsDay year month day := by
  intro hday
  simp [ofParts?, hday] at h

/-- The day after a day: in the same month, the first of the next month, or the first of the next year. -/
def IsNext (d e : Date) : Prop :=
  (e.year = d.year ∧ e.month = d.month ∧ e.day = d.day + 1) ∨
    (d.day = daysInMonth d.year d.month ∧ e.year = d.year ∧ e.month = d.month + 1 ∧ e.day = 1) ∨
    (d.month = 12 ∧ d.day = 31 ∧ e.year = d.year + 1 ∧ e.month = 1 ∧ e.day = 1)

instance (d e : Date) : Decidable (d.IsNext e) := inferInstanceAs (Decidable (_ ∨ _))

theorem IsNext.dayNumber_eq {d e : Date} (h : d.IsNext e) : e.dayNumber = d.dayNumber + 1 := by
  obtain ⟨hyear, -, hmonth, -, -, -⟩ := d.isDay
  rcases h with ⟨hy, hm, hd⟩ | ⟨hlast, hy, hm, hd⟩ | ⟨hdecember, hlast, hy, hm, hd⟩
  · simp only [dayNumber, hy, hm, hd]
    omega
  · have hbefore := daysBeforeMonth_succ d.year hmonth
    simp only [dayNumber, hy, hm, hd]
    omega
  · have htotal := daysBeforeMonth_thirteen d.year
    have hbefore : daysBeforeMonth d.year 13 = daysBeforeMonth d.year 12 + 31 := rfl
    have hnext := daysBeforeYear_succ hyear
    have hjanuary : daysBeforeMonth (d.year + 1) 1 = 0 := rfl
    simp only [dayNumber, hy, hm, hd, hdecember, hlast]
    omega

/-- The last day of a month is followed by the first of the next month, and the last day of a year by the first of
the next year. -/
theorem next?_cases (d : Date) :
    (∃ e, d.next? = some e ∧ d.IsNext e) ∨
      (d.next? = none ∧ d.year = lastYear ∧ d.month = 12 ∧ d.day = 31) := by
  obtain ⟨hyear, hyear', hmonth, hmonth', hday, hday'⟩ := d.isDay
  unfold next?
  cases hsame : ofParts? d.year d.month (d.day + 1) with
  | some e => exact .inl ⟨e, rfl, .inl (ofParts?_eq_some hsame)⟩
  | none =>
      have hlast : d.day = daysInMonth d.year d.month := by
        have hover := ofParts?_eq_none hsame
        unfold IsDay at hover
        omega
      cases hturn : ofParts? d.year (d.month + 1) 1 with
      | some e => exact .inl ⟨e, rfl, .inr (.inl ⟨hlast, ofParts?_eq_some hturn⟩)⟩
      | none =>
          have hdecember : d.month = 12 := by
            have hover := ofParts?_eq_none hturn
            have hlength := daysInMonth_bounds d.year (d.month + 1)
            unfold IsDay at hover
            omega
          have hthirtyone : d.day = 31 := by rw [hlast, hdecember]; rfl
          cases hfirst : ofParts? (d.year + 1) 1 1 with
          | some e => exact .inl ⟨e, rfl, .inr (.inr ⟨hdecember, hthirtyone, ofParts?_eq_some hfirst⟩)⟩
          | none =>
              have hend : d.year = lastYear := by
                have hover := ofParts?_eq_none hfirst
                have hjanuary := daysInMonth_bounds (d.year + 1) 1
                unfold IsDay at hover
                omega
              exact .inr ⟨rfl, hend, hdecember, hthirtyone⟩

theorem isNext_of_next?_eq {d e : Date} (h : d.next? = some e) : d.IsNext e := by
  rcases next?_cases d with ⟨e', he, hnext⟩ | ⟨hnone, -⟩
  · rw [h] at he
    cases he
    exact hnext
  · rw [h] at hnone
    cases hnone

theorem dayNumber_next {d e : Date} (h : d.next? = some e) : e.dayNumber = d.dayNumber + 1 :=
  (isNext_of_next?_eq h).dayNumber_eq

theorem next?_eq_none_iff {d : Date} : d.next? = none ↔ d.dayNumber = lastNumber := by
  rcases next?_cases d with ⟨e, he, hnext⟩ | ⟨hnone, hyear, hmonth, hday⟩
  · have hnumber := hnext.dayNumber_eq
    have hlast := e.dayNumber_le_lastNumber
    rw [he]
    refine ⟨fun h => (nomatch h), fun h => ?_⟩
    omega
  · refine ⟨fun _ => ?_, fun _ => hnone⟩
    unfold dayNumber
    rw [hyear, hmonth, hday]
    decide

theorem IsNext.next?_eq {d e : Date} (h : d.IsNext e) : d.next? = some e := by
  rcases next?_cases d with ⟨e', he', hnext⟩ | ⟨hnone, -⟩
  · rw [he', dayNumber_inj (hnext.dayNumber_eq.trans h.dayNumber_eq.symm)]
  · have hlast := next?_eq_none_iff.mp hnone
    have hnext := h.dayNumber_eq
    have hbound := e.dayNumber_le_lastNumber
    omega

/-! ## The day with a number -/

theorem yearFrom_spec {n fuel year : Nat} (hlow : daysBeforeYear year < n)
    (hhigh : n ≤ daysBeforeYear (year + fuel)) :
    year ≤ yearFrom n fuel year ∧ daysBeforeYear (yearFrom n fuel year) < n ∧
      n ≤ daysBeforeYear (yearFrom n fuel year + 1) := by
  induction fuel generalizing year with
  | zero =>
      rw [Nat.add_zero] at hhigh
      omega
  | succ fuel ih =>
      unfold yearFrom
      by_cases hreached : n ≤ daysBeforeYear (year + 1)
      · rw [if_pos hreached]
        exact ⟨Nat.le_refl _, hlow, hreached⟩
      · rw [if_neg hreached]
        have hlow' : daysBeforeYear (year + 1) < n := by omega
        have hhigh' : n ≤ daysBeforeYear (year + 1 + fuel) := by
          rwa [show year + 1 + fuel = year + (fuel + 1) by omega]
        obtain ⟨hstart, hrest⟩ := ih hlow' hhigh'
        exact ⟨by omega, hrest⟩

/-- The search gives up only behind the years it was to look at. -/
theorem yearFrom_ge {n fuel year later : Nat} (hlater : later ≤ year + fuel)
    (hn : daysBeforeYear later < n) : later ≤ yearFrom n fuel year := by
  induction fuel generalizing year with
  | zero => exact hlater
  | succ fuel ih =>
      unfold yearFrom
      by_cases hreached : n ≤ daysBeforeYear (year + 1)
      · rw [if_pos hreached]
        refine Nat.le_of_not_lt fun hyear => ?_
        have hmono := daysBeforeYear_mono (show year + 1 ≤ later by omega)
        omega
      · rw [if_neg hreached]
        exact ih (by omega)

theorem monthFrom_spec {year n fuel month : Nat} (hmonth : 1 ≤ month) (hn : 1 ≤ n)
    (hhigh : daysBeforeMonth year month + n ≤ daysBeforeMonth year (month + fuel)) :
    ∃ found day, monthFrom year n fuel month = (found, day) ∧ 1 ≤ found ∧ found < month + fuel ∧
      1 ≤ day ∧ day ≤ daysInMonth year found ∧
      daysBeforeMonth year found + day = daysBeforeMonth year month + n := by
  induction fuel generalizing n month with
  | zero =>
      rw [Nat.add_zero] at hhigh
      omega
  | succ fuel ih =>
      unfold monthFrom
      by_cases hwithin : n ≤ daysInMonth year month
      · rw [if_pos hwithin]
        exact ⟨month, n, rfl, hmonth, by omega, hn, hwithin, rfl⟩
      · rw [if_neg hwithin]
        have hsucc := daysBeforeMonth_succ year hmonth
        have hhigh' : daysBeforeMonth year (month + 1) + (n - daysInMonth year month) ≤
            daysBeforeMonth year (month + 1 + fuel) := by
          rw [show month + 1 + fuel = month + (fuel + 1) by omega]
          omega
        obtain ⟨found, day, hfound, hpos, hlt, hday, hday', hsum⟩ :=
          ih (by omega) (by omega) hhigh'
        exact ⟨found, day, hfound, hpos, by omega, hday, hday', by omega⟩

theorem ofDayNumber?_eq_some {n : Nat} (hpos : 1 ≤ n) (hlast : n ≤ lastNumber) :
    ∃ d, ofDayNumber? n = some d ∧ d.dayNumber = n := by
  rw [lastNumber_eq] at hlast
  have hbefore : daysBeforeYear ((n - 1) / 366 + 1) < n := by
    simp only [daysBeforeYear]
    omega
  have hwithin : n ≤ daysBeforeYear ((n - 1) / 366 + 1 + 64) := by
    simp only [daysBeforeYear]
    omega
  obtain ⟨hstart, hlow, hhigh⟩ := yearFrom_spec hbefore hwithin
  have hyear : yearFrom n 64 ((n - 1) / 366 + 1) ≤ lastYear := by
    refine Nat.le_of_not_lt fun hlate => ?_
    have hmono := daysBeforeYear_mono (show lastYear + 1 ≤ yearFrom n 64 ((n - 1) / 366 + 1) by omega)
    have hend : daysBeforeYear (lastYear + 1) = 3652059 := lastNumber_eq
    omega
  have hpositive : 1 ≤ yearFrom n 64 ((n - 1) / 366 + 1) := by omega
  have hlength := daysBeforeYear_succ hpositive
  unfold ofDayNumber?
  generalize yearFrom n 64 ((n - 1) / 366 + 1) = year at *
  have hrest : 1 ≤ n - daysBeforeYear year := by omega
  have hinside : daysBeforeMonth year 1 + (n - daysBeforeYear year) ≤ daysBeforeMonth year (1 + 12) := by
    have htotal : daysBeforeMonth year (1 + 12) = daysInYear year := daysBeforeMonth_thirteen year
    have hjanuary : daysBeforeMonth year 1 = 0 := rfl
    omega
  obtain ⟨month, day, hfound, hmonth, hmonth', hday, hday', hsum⟩ :=
    monthFrom_spec (Nat.le_refl 1) hrest hinside
  have hisDay : IsDay year month day := ⟨by omega, hyear, hmonth, by omega, hday, hday'⟩
  have hjanuary : daysBeforeMonth year 1 = 0 := rfl
  refine ⟨⟨year, month, day, hisDay⟩, ?_, ?_⟩
  · simp only [hfound, ofParts?, dif_pos hisDay]
  · simp only [dayNumber]
    omega

/-- A day so many days back is there unless the calendar begins after it. -/
theorem back?_eq_some_iff {d e : Date} {n : Nat} : d.back? n = some e ↔ e.dayNumber + n = d.dayNumber := by
  have hlast := d.dayNumber_le_lastNumber
  unfold back?
  constructor
  · intro h
    split at h
    · rename_i hless
      obtain ⟨e', he', hnumber⟩ :=
        ofDayNumber?_eq_some (n := d.dayNumber - n) (Nat.sub_pos_of_lt hless) (by omega)
      obtain rfl := Option.some.inj (he'.symm.trans h)
      omega
    · cases h
  · intro h
    have hpos := e.dayNumber_pos
    obtain ⟨e', he', hnumber⟩ := ofDayNumber?_eq_some hpos e.dayNumber_le_lastNumber
    obtain rfl := dayNumber_inj hnumber
    rw [if_pos (by omega), ← h, Nat.add_sub_cancel, he']

theorem ofDayNumber?_eq_none {n : Nat} (hlast : lastNumber < n) : ofDayNumber? n = none := by
  have hyear : lastYear + 1 ≤ yearFrom n 64 ((n - 1) / 366 + 1) := by
    refine yearFrom_ge ?_ hlast
    rw [lastNumber_eq] at hlast
    simp only [lastYear]
    omega
  unfold ofDayNumber?
  simp only [ofParts?]
  rw [dif_neg]
  intro hday
  have := hday.2.1
  omega

end Date

/-! ## Timestamps of seconds -/

theorem TimeOfDay.ofSecondOfDay?_eq {n : Nat} (hn : n < 86400) :
    ∃ t, TimeOfDay.ofSecondOfDay? n = some t ∧ t.secondOfDay = n ∧ t.micro = 0 := by
  have hparts : n / 3600 < 24 ∧ n / 60 % 60 < 60 ∧ n % 60 < 60 ∧ 0 < 1000000 := by omega
  refine ⟨⟨n / 3600, n / 60 % 60, n % 60, 0, hparts⟩, ?_, ?_, rfl⟩
  · simp only [TimeOfDay.ofSecondOfDay?, TimeOfDay.ofParts?, dif_pos hparts]
  · simp only [TimeOfDay.secondOfDay]
    omega

theorem TimeOfDay.secondOfDay_lt (t : TimeOfDay) : t.secondOfDay < 86400 := by
  have := t.inDay
  unfold TimeOfDay.secondOfDay
  omega

theorem TimeOfDay.ext_of_second {a b : TimeOfDay} (hsecond : a.secondOfDay = b.secondOfDay)
    (hmicro : a.micro = b.micro) : a = b := by
  obtain ⟨ahour, aminute, asecond, amicro, ha⟩ := a
  obtain ⟨bhour, bminute, bsecond, bmicro, hb⟩ := b
  simp only [secondOfDay] at hsecond hmicro
  obtain rfl : ahour = bhour := by omega
  obtain rfl : aminute = bminute := by omega
  obtain rfl : asecond = bsecond := by omega
  obtain rfl := hmicro
  rfl

namespace Timestamp

/-- The whole seconds from the first day of the calendar to a timestamp, by its own clock. -/
def second (t : Timestamp) : Int := ((t.date.dayNumber : Int) - 1) * 86400 + t.time.secondOfDay

/-- The first second after the calendar. -/
def endOfCalendar : Int := (Date.lastNumber : Int) * 86400

theorem ofUtcSeconds?_eq_some {n : Int} (hpos : 0 ≤ n) (hend : n < endOfCalendar) :
    ∃ t, ofUtcSeconds? n = some t ∧ t.offset = some 0 ∧ t.second = n ∧ t.time.micro = 0 := by
  unfold endOfCalendar at hend
  obtain ⟨d, hd, hnumber⟩ := Date.ofDayNumber?_eq_some (n := n.toNat / 86400 + 1) (by omega) (by omega)
  obtain ⟨c, hc, hsecond, hmicro⟩ :=
    TimeOfDay.ofSecondOfDay?_eq (n := n.toNat % 86400) (Nat.mod_lt _ (by decide))
  refine ⟨⟨d, c, some 0⟩, ?_, rfl, ?_, hmicro⟩
  · rw [ofUtcSeconds?, if_neg (by omega), hd, hc]
    rfl
  · simp only [second, hnumber, hsecond]
    omega

theorem ofUtcSeconds?_eq_none {n : Int} (hend : endOfCalendar ≤ n) : ofUtcSeconds? n = none := by
  unfold endOfCalendar at hend
  have hlate : Date.lastNumber < n.toNat / 86400 + 1 := by omega
  rw [ofUtcSeconds?, Date.ofDayNumber?_eq_none hlate]
  split <;> rfl

theorem second_bounds (t : Timestamp) :
    ((t.date.dayNumber : Int) - 1) * 86400 ≤ t.second ∧ t.second < (t.date.dayNumber : Int) * 86400 := by
  have := t.time.secondOfDay_lt
  unfold second
  omega

theorem ext_of_second {t u : Timestamp} (hoffset : t.offset = u.offset) (hsecond : t.second = u.second)
    (hmicro : t.time.micro = u.time.micro) : t = u := by
  have htime := t.time.secondOfDay_lt
  have htime' := u.time.secondOfDay_lt
  unfold second at hsecond
  obtain ⟨date, time, offset⟩ := t
  obtain ⟨date', time', offset'⟩ := u
  simp only at *
  obtain rfl := hoffset
  obtain rfl : date = date' := Date.dayNumber_inj (by omega)
  obtain rfl : time = time' := TimeOfDay.ext_of_second (by omega) hmicro
  rfl

end Timestamp

end TableSteward

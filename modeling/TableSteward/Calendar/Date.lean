import TableSteward.Text.Integer

/-!
# Calendar days

A `Date` is a day of the proleptic Gregorian calendar in the years 1 to 9999.  `dayNumber` counts the days,
with 1 for the first of January of the year 1, and `ofDayNumber?` is the way back.
-/
set_option autoImplicit false

namespace TableSteward

def isLeapYear (year : Nat) : Bool := year % 4 == 0 && (year % 100 != 0 || year % 400 == 0)

def daysInMonth (year : Nat) : Nat → Nat
  | 2 => if isLeapYear year then 29 else 28
  | 4 | 6 | 9 | 11 => 30
  | _ => 31

def lastYear : Nat := 9999

/-- The day `year`-`month`-`day` exists in the calendar. -/
def IsDay (year month day : Nat) : Prop :=
  1 ≤ year ∧ year ≤ lastYear ∧ 1 ≤ month ∧ month ≤ 12 ∧ 1 ≤ day ∧ day ≤ daysInMonth year month

instance (year month day : Nat) : Decidable (IsDay year month day) := by
  unfold IsDay
  infer_instance

structure Date where
  year : Nat
  month : Nat
  day : Nat
  isDay : IsDay year month day
  deriving DecidableEq, Repr

namespace Date

def ofParts? (year month day : Nat) : Option Date :=
  if h : IsDay year month day then some ⟨year, month, day, h⟩ else none

def daysBeforeYear (year : Nat) : Nat :=
  let y := year - 1
  365 * y + y / 4 - y / 100 + y / 400

def daysBeforeMonth (year : Nat) : Nat → Nat
  | 0 | 1 => 0
  | month + 2 => daysBeforeMonth year (month + 1) + daysInMonth year (month + 1)

def dayNumber (d : Date) : Nat := daysBeforeYear d.year + daysBeforeMonth d.year d.month + d.day

def yearFrom (n : Nat) : Nat → Nat → Nat
  | 0, year => year
  | fuel + 1, year => if n ≤ daysBeforeYear (year + 1) then year else yearFrom n fuel (year + 1)

def monthFrom (year n : Nat) : Nat → Nat → Nat × Nat
  | 0, month => (month, n)
  | fuel + 1, month =>
      if n ≤ daysInMonth year month then (month, n)
      else monthFrom year (n - daysInMonth year month) fuel (month + 1)

/-- The day with a number.  No year is longer than 366 days, so the search starts at or below the year
that holds the day, and at most a few dozen years below it. -/
def ofDayNumber? (n : Nat) : Option Date :=
  let year := yearFrom n 64 ((n - 1) / 366 + 1)
  let (month, day) := monthFrom year (n - daysBeforeYear year) 12 1
  ofParts? year month day

/-- The following day; the calendar ends with the year 9999. -/
def next? (d : Date) : Option Date :=
  match ofParts? d.year d.month (d.day + 1) with
  | some e => some e
  | none =>
      match ofParts? d.year (d.month + 1) 1 with
      | some e => some e
      | none => ofParts? (d.year + 1) 1 1

def back? (d : Date) (n : Nat) : Option Date :=
  if n < d.dayNumber then ofDayNumber? (d.dayNumber - n) else none

def weekday (d : Date) : Nat := (d.dayNumber + 6) % 7

def text (d : Date) : String :=
  Text.padded 4 d.year ++ "-" ++ Text.padded 2 d.month ++ "-" ++ Text.padded 2 d.day

end Date

end TableSteward

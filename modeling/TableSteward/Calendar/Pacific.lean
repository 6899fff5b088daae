import TableSteward.Calendar.Timestamp

/-!
# Pacific time

The clocks of America/Los_Angeles.  `history` lists the instants at which their offset from UTC changed up
to March 2007; in every later year daylight time runs from the second Sunday of March to the first Sunday of
November, two in the morning each.  Instants and local times are seconds since the beginning of the first
day of the calendar.

A local time that the clocks skip or show twice is read with the offset that a change to a later local
time has not yet reached: `offsetOfLocal` compares it with each change by the larger of its two offsets.
-/
set_option autoImplicit false

namespace TableSteward.Pacific

def standard : Int := -28800

def daylight : Int := -25200

def meanTime : Int := -28378

def secondsAt (year month day hour minute : Nat) : Int :=
  (((Date.daysBeforeYear year + Date.daysBeforeMonth year month + day - 1) * 86400
    + hour * 3600 + minute * 60 : Nat) : Int)

structure Entry where
  year : Nat
  month : Nat
  day : Nat
  hour : Nat
  minute : Nat
  offset : Int

def entries : List Entry := [
  ⟨1883, 11, 18, 20, 0, standard⟩, ⟨1918, 3, 31, 10, 0, daylight⟩, ⟨1918, 10, 27, 9, 0, standard⟩,
  ⟨1919, 3, 30, 10, 0, daylight⟩, ⟨1919, 10, 26, 9, 0, standard⟩, ⟨1942, 2, 9, 10, 0, daylight⟩,
  ⟨1945, 8, 14, 23, 0, daylight⟩, ⟨1945, 9, 30, 9, 0, standard⟩, ⟨1948, 3, 14, 10, 1, daylight⟩,
  ⟨1949, 1, 1, 9, 0, standard⟩, ⟨1950, 4, 30, 9, 0, daylight⟩, ⟨1950, 9, 24, 9, 0, standard⟩,
  ⟨1951, 4, 29, 9, 0, daylight⟩, ⟨1951, 9, 30, 9, 0, standard⟩, ⟨1952, 4, 27, 9, 0, daylight⟩,
  ⟨1952, 9, 28, 9, 0, standard⟩, ⟨1953, 4, 26, 9, 0, daylight⟩, ⟨1953, 9, 27, 9, 0, standard⟩,
  ⟨1954, 4, 25, 9, 0, daylight⟩, ⟨1954, 9, 26, 9, 0, standard⟩, ⟨1955, 4, 24, 9, 0, daylight⟩,
  ⟨1955, 9, 25, 9, 0, standard⟩, ⟨1956, 4, 29, 9, 0, daylight⟩, ⟨1956, 9, 30, 9, 0, standard⟩,
  ⟨1957, 4, 28, 9, 0, daylight⟩, ⟨1957, 9, 29, 9, 0, standard⟩, ⟨1958, 4, 27, 9, 0, daylight⟩,
  ⟨1958, 9, 28, 9, 0, standard⟩, ⟨1959, 4, 26, 9, 0, daylight⟩, ⟨1959, 9, 27, 9, 0, standard⟩,
  ⟨1960, 4, 24, 9, 0, daylight⟩, ⟨1960, 9, 25, 9, 0, standard⟩, ⟨1961, 4, 30, 9, 0, daylight⟩,
  ⟨1961, 9, 24, 9, 0, standard⟩, ⟨1962, 4, 29, 9, 0, daylight⟩, ⟨1962, 10, 28, 9, 0, standard⟩,
  ⟨1963, 4, 28, 9, 0, daylight⟩, ⟨1963, 10, 27, 9, 0, standard⟩, ⟨1964, 4, 26, 9, 0, daylight⟩,
  ⟨1964, 10, 25, 9, 0, standard⟩, ⟨1965, 4, 25, 9, 0, daylight⟩, ⟨1965, 10, 31, 9, 0, standard⟩,
  ⟨1966, 4, 24, 9, 0, daylight⟩, ⟨1966, 10, 30, 9, 0, standard⟩, ⟨1967, 4, 30, 10, 0, daylight⟩,
  ⟨1967, 10, 29, 9, 0, standard⟩, ⟨1968, 4, 28, 10, 0, daylight⟩, ⟨1968, 10, 27, 9, 0, standard⟩,
  ⟨1969, 4, 27, 10, 0, daylight⟩, ⟨1969, 10, 26, 9, 0, standard⟩, ⟨1970, 4, 26, 10, 0, daylight⟩,
  ⟨1970, 10, 25, 9, 0, standard⟩, ⟨1971, 4, 25, 10, 0, daylight⟩, ⟨1971, 10, 31, 9, 0, standard⟩,
  ⟨1972, 4, 30, 10, 0, daylight⟩, ⟨1972, 10, 29, 9, 0, standard⟩, ⟨1973, 4, 29, 10, 0, daylight⟩,
  ⟨1973, 10, 28, 9, 0, standard⟩, ⟨1974, 1, 6, 10, 0, daylight⟩, ⟨1974, 10, 27, 9, 0, standard⟩,
  ⟨1975, 2, 23, 10, 0, daylight⟩, ⟨1975, 10, 26, 9, 0, standard⟩, ⟨1976, 4, 25, 10, 0, daylight⟩,
  ⟨1976, 10, 31, 9, 0, standard⟩, ⟨1977, 4, 24, 10, 0, daylight⟩, ⟨1977, 10, 30, 9, 0, standard⟩,
  ⟨1978, 4, 30, 10, 0, daylight⟩, ⟨1978, 10, 29, 9, 0, standard⟩, ⟨1979, 4, 29, 10, 0, daylight⟩,
  ⟨1979, 10, 28, 9, 0, standard⟩, ⟨1980, 4, 27, 10, 0, daylight⟩, ⟨1980, 10, 26, 9, 0, standard⟩,
  ⟨1981, 4, 26, 10, 0, daylight⟩, ⟨1981, 10, 25, 9, 0, standard⟩, ⟨1982, 4, 25, 10, 0, daylight⟩,
  ⟨1982, 10, 31, 9, 0, standard⟩, ⟨1983, 4, 24, 10, 0, daylight⟩, ⟨1983, 10, 30, 9, 0, standard⟩,
  ⟨1984, 4, 29, 10, 0, daylight⟩, ⟨1984, 10, 28, 9, 0, standard⟩, ⟨1985, 4, 28, 10, 0, daylight⟩,
  ⟨1985, 10, 27, 9, 0, standard⟩, ⟨1986, 4, 27, 10, 0, daylight⟩, ⟨1986, 10, 26, 9, 0, standard⟩,
  ⟨1987, 4, 5, 10, 0, daylight⟩, ⟨1987, 10, 25, 9, 0, standard⟩, ⟨1988, 4, 3, 10, 0, daylight⟩,
  ⟨1988, 10, 30, 9, 0, standard⟩, ⟨1989, 4, 2, 10, 0, daylight⟩, ⟨1989, 10, 29, 9, 0, standard⟩,
  ⟨1990, 4, 1, 10, 0, daylight⟩, ⟨1990, 10, 28, 9, 0, standard⟩, ⟨1991, 4, 7, 10, 0, daylight⟩,
  ⟨1991, 10, 27, 9, 0, standard⟩, ⟨1992, 4, 5, 10, 0, daylight⟩, ⟨1992, 10, 25, 9, 0, standard⟩,
  ⟨1993, 4, 4, 10, 0, daylight⟩, ⟨1993, 10, 31, 9, 0, standard⟩, ⟨1994, 4, 3, 10, 0, daylight⟩,
  ⟨1994, 10, 30, 9, 0, standard⟩, ⟨1995, 4, 2, 10, 0, daylight⟩, ⟨1995, 10, 29, 9, 0, standard⟩,
  ⟨1996, 4, 7, 10, 0, daylight⟩, ⟨1996, 10, 27, 9, 0, standard⟩, ⟨1997, 4, 6, 10, 0, daylight⟩,
  ⟨1997, 10, 26, 9, 0, standard⟩, ⟨1998, 4, 5, 10, 0, daylight⟩, ⟨1998, 10, 25, 9, 0, standard⟩,
  ⟨1999, 4, 4, 10, 0, daylight⟩, ⟨1999, 10, 31, 9, 0, standard⟩, ⟨2000, 4, 2, 10, 0, daylight⟩,
  ⟨2000, 10, 29, 9, 0, standard⟩, ⟨2001, 4, 1, 10, 0, daylight⟩, ⟨2001, 10, 28, 9, 0, standard⟩,
  ⟨2002, 4, 7, 10, 0, daylight⟩, ⟨2002, 10, 27, 9, 0, standard⟩, ⟨2003, 4, 6, 10, 0, daylight⟩,
  ⟨2003, 10, 26, 9, 0, standard⟩, ⟨2004, 4, 4, 10, 0, daylight⟩, ⟨2004, 10, 31, 9, 0, standard⟩,
  ⟨2005, 4, 3, 10, 0, daylight⟩, ⟨2005, 10, 30, 9, 0, standard⟩, ⟨2006, 4, 2, 10, 0, daylight⟩,
  ⟨2006, 10, 29, 9, 0, standard⟩, ⟨2007, 3, 11, 10, 0, daylight⟩]

/-- A change of the clocks: the instant, and the offsets before and after it. -/
structure Change where
  instant : Int
  before : Int
  after : Int
  deriving Repr

/-- Changes in order of time, each with the offset left by the one before it. -/
def changesFrom : Int → List Entry → List Change
  | _, [] => []
  | before, e :: rest =>
      ⟨secondsAt e.year e.month e.day e.hour e.minute, before, e.offset⟩ :: changesFrom e.offset rest

def history : List Change := changesFrom meanTime entries

def sunday (year month n : Nat) : Nat :=
  let first := Date.daysBeforeYear year + Date.daysBeforeMonth year month + 1
  -- the day after a Saturday has a number divisible by seven
  (7 - first % 7) % 7 + 1 + 7 * (n - 1)

def spring (year : Nat) : Change :=
  ⟨secondsAt year 3 (sunday year 3 2) 10 0, standard, daylight⟩

def autumn (year : Nat) : Change :=
  ⟨secondsAt year 11 (sunday year 11 1) 9 0, daylight, standard⟩

def lastOfHistory : Nat := 2007

/-- The offset at the beginning of the stretch of changes that matters in a year. -/
def offsetBefore (year : Nat) : Int := if year ≤ lastOfHistory then meanTime else standard

def changesIn (year : Nat) : List Change :=
  if year ≤ lastOfHistory then history ++ [autumn lastOfHistory] else [spring year, autumn year]

def offsetWhere (reached : Change → Bool) (year : Nat) : Int :=
  (changesIn year).foldl (fun offset c => if reached c then c.after else offset) (offsetBefore year)

def offsetAt (year : Nat) (instant : Int) : Int := offsetWhere (fun c => c.instant ≤ instant) year

/-- The offset with which a local time of a year is read. -/
def offsetOfLocal (year : Nat) (localTime : Int) : Int :=
  offsetWhere (fun c => c.instant + max c.before c.after ≤ localTime) year

def localSecond (day : Date) (second : Nat) : Int := ((day.dayNumber : Int) - 1) * 86400 + second

def toUtc (day : Date) (second : Nat) : Int :=
  localSecond day second - offsetOfLocal day.year (localSecond day second)

def midnight (day : Date) : Int := toUtc day 0

end TableSteward.Pacific

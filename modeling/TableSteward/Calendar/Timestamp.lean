import TableSteward.Calendar.Date

/-!
# Times, timestamps and durations

A `TimeOfDay` has microseconds; a `Timestamp` is a day and a time, perhaps with an offset from UTC in
seconds; a `Duration` is a number of microseconds.  The texts follow the extended ISO 8601 form, with six
digits of a second only where they are not all zero.
-/
set_option autoImplicit false

namespace TableSteward

structure TimeOfDay where
  hour : Nat
  minute : Nat
  second : Nat
  micro : Nat
  inDay : hour < 24 ∧ minute < 60 ∧ second < 60 ∧ micro < 1000000
  deriving DecidableEq, Repr

namespace TimeOfDay

def ofParts? (hour minute second micro : Nat) : Option TimeOfDay :=
  if h : hour < 24 ∧ minute < 60 ∧ second < 60 ∧ micro < 1000000 then
    some ⟨hour, minute, second, micro, h⟩
  else none

def midnight : TimeOfDay := ⟨0, 0, 0, 0, by decide⟩

def secondOfDay (t : TimeOfDay) : Nat := 3600 * t.hour + 60 * t.minute + t.second

def ofSecondOfDay? (n : Nat) : Option TimeOfDay := ofParts? (n / 3600) (n / 60 % 60) (n % 60) 0

def text (t : TimeOfDay) : String :=
  Text.padded 2 t.hour ++ ":" ++ Text.padded 2 t.minute ++ ":" ++ Text.padded 2 t.second ++
  (if t.micro = 0 then "" else "." ++ Text.padded 6 t.micro)

end TimeOfDay

/-- An offset from UTC: a sign, hours and minutes, and seconds if there are any. -/
def offsetText (offset : Int) : String :=
  let n := offset.natAbs
  (if offset < 0 then "-" else "+") ++ Text.padded 2 (n / 3600) ++ ":" ++ Text.padded 2 (n / 60 % 60) ++
  (if n % 60 = 0 then "" else ":" ++ Text.padded 2 (n % 60))

def offsetSuffix : Option Int → String
  | some offset => offsetText offset
  | none => ""

structure Timestamp where
  date : Date
  time : TimeOfDay
  offset : Option Int
  deriving DecidableEq, Repr

namespace Timestamp

def textWith (sep : String) (t : Timestamp) : String :=
  t.date.text ++ sep ++ t.time.text ++ offsetSuffix t.offset

def text (t : Timestamp) : String := t.textWith "T"

def ofUtcSeconds? (n : Int) : Option Timestamp :=
  if n < 0 then none
  else do
    let date ← Date.ofDayNumber? (n.toNat / 86400 + 1)
    let time ← TimeOfDay.ofSecondOfDay? (n.toNat % 86400)
    return ⟨date, time, some 0⟩

end Timestamp

/-! ## Reading -/

def twoDigits? : List Char → Option (Nat × List Char)
  | a :: b :: rest =>
      if a.isDigit && b.isDigit then some (Text.digitsValue [a, b], rest) else none
  | _ => none

def Date.readParts? : List Char → Option ((Nat × Nat × Nat) × List Char)
  | a :: b :: c :: d :: '-' :: rest => do
      if [a, b, c, d].all Char.isDigit then
        let (month, rest) ← twoDigits? rest
        match rest with
        | '-' :: rest => do
            let (day, rest) ← twoDigits? rest
            return ((Text.digitsValue [a, b, c, d], month, day), rest)
        | _ => none
      else none
  | _ => none

def Date.read? (cs : List Char) : Option (Date × List Char) := do
  let ((year, month, day), rest) ← Date.readParts? cs
  let date ← Date.ofParts? year month day
  return (date, rest)

def Date.ofText? (s : String) : Option Date :=
  match Date.read? s.toList with
  | some (d, []) => some d
  | _ => none

def colonField? : List Char → Option (Nat × List Char)
  | ':' :: rest => twoDigits? rest
  | rest => some (0, rest)

def fraction? : List Char → Option (Nat × List Char)
  | '.' :: rest =>
      let digits := rest.takeWhile Char.isDigit
      if digits.isEmpty then none
      else some (Text.digitsValue ((digits ++ List.replicate 6 '0').take 6), rest.dropWhile Char.isDigit)
  | rest => some (0, rest)

/-- `Z`, nothing, or a sign and a time. -/
def readOffset? : List Char → Option (Option Int)
  | [] => some none
  | ['Z'] => some (some 0)
  | sign :: rest => do
      if sign == '+' || sign == '-' then
        let (hours, rest) ← twoDigits? rest
        let (minutes, rest) ← colonField? rest
        let (seconds, rest) ← colonField? rest
        if rest.isEmpty then
          let n : Int := (3600 * hours + 60 * minutes + seconds : Nat)
          some (some (if sign == '-' then -n else n))
        else none
      else none

def readTime? (cs : List Char) : Option (TimeOfDay × Option Int) := do
  let (hour, rest) ← twoDigits? cs
  let (minute, rest) ← colonField? rest
  let (second, rest) ← colonField? rest
  let (micro, rest) ← fraction? rest
  let offset ← readOffset? rest
  let time ← TimeOfDay.ofParts? hour minute second micro
  return (time, offset)

/-- A day, a separating character and a time with an offset; a day alone is its midnight. -/
def Timestamp.ofText? (s : String) : Option Timestamp :=
  match Date.read? s.toList with
  | some (date, []) => some ⟨date, .midnight, none⟩
  | some (date, _ :: rest) => (readTime? rest).map fun (time, offset) => ⟨date, time, offset⟩
  | none => none

/-! ## Durations -/

structure Duration where
  micros : Int
  deriving DecidableEq, Repr

namespace Duration

def ofParts (days seconds micros : Int) : Duration := ⟨(days * 86400 + seconds) * 1000000 + micros⟩

/-- Whole days, rounded down. -/
def days (d : Duration) : Int := d.micros.fdiv 86400000000

def seconds (d : Duration) : Nat := (d.micros.fmod 86400000000).toNat / 1000000

def microseconds (d : Duration) : Nat := (d.micros.fmod 86400000000).toNat % 1000000

def text (d : Duration) : String :=
  let n := d.seconds
  (if d.days = 0 then ""
   else toString d.days ++ (if d.days.natAbs = 1 then " day, " else " days, ")) ++
  toString (n / 3600) ++ ":" ++ Text.padded 2 (n / 60 % 60) ++ ":" ++ Text.padded 2 (n % 60) ++
  (if d.microseconds = 0 then "" else "." ++ Text.padded 6 d.microseconds)

end Duration

end TableSteward

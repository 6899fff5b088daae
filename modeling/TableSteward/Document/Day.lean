import TableSteward.Document.Checked

/-!
# Days in documents

A day is given as `YYYY-MM-DD`, as its midnight on the clocks of any place, or as the number of seconds or
milliseconds since the year 1970 began.  `Checked.day` reads all three; a moment that is no midnight is
refused as such.
-/
set_option autoImplicit false

namespace TableSteward

/-- A day as it is given.  The year zero can be given but is not in the calendar. -/
structure GivenDay where
  year : Nat
  month : Nat
  day : Nat
  /-- Whether a midnight is given, and no later time. -/
  exact : Bool := true

namespace GivenDay

def lastOffset : Nat := 24 * 60

def readDay? (cs : List Char) : Option (GivenDay × List Char) := do
  let ((year, month, day), rest) ← Date.readParts? cs
  if 1 ≤ month && month ≤ 12 && 1 ≤ day && day ≤ daysInMonth year month then
    some ({ year := year, month := month, day := day }, rest)
  else none

/-- The seconds behind a time, if there are any; digits beyond the sixth of a fraction are passed over. -/
def readSeconds? : List Char → Option ((Nat × Nat) × List Char)
  | ':' :: rest => do
      let (second, rest) ← twoDigits? rest
      match rest with
      | ',' :: digits => do
          let (micro, rest) ← fraction? ('.' :: digits)
          return ((second, micro), rest)
      | rest => do
          let (micro, rest) ← fraction? rest
          return ((second, micro), rest)
  | rest => some ((0, 0), rest)

def readTime? (cs : List Char) : Option (TimeOfDay × List Char) := do
  let (hour, rest) ← twoDigits? cs
  match rest with
  | ':' :: rest => do
      let (minute, rest) ← twoDigits? rest
      let ((second, micro), rest) ← readSeconds? rest
      let time ← TimeOfDay.ofParts? hour minute second micro
      return (time, rest)
  | _ => none

def isMinus (c : Char) : Bool := c == '-' || c.toNat == 0x2212

def isOffset : List Char → Bool
  | [] => true
  | [c] => c == 'Z' || c == 'z'
  | sign :: rest =>
      match twoDigits? rest with
      | none => false
      | some (hours, rest) =>
          let rest := match rest with
            | ':' :: rest => rest
            | rest => rest
          match twoDigits? rest with
          | some (minutes, []) =>
              (sign == '+' || isMinus sign) && minutes < 60 && 60 * hours + minutes < lastOffset
          | _ => false

def isSeparator (c : Char) : Bool := c == 'T' || c == 't' || c == ' ' || c == '_'

def ofText? (cs : List Char) : Option GivenDay := do
  match ← readDay? cs with
  | (d, []) => some d
  | (d, c :: rest) => do
      let (time, rest) ← readTime? rest
      if isSeparator c && isOffset rest then some { d with exact := time == .midnight } else none

/-! ## Numbers -/

/-- Seconds up to this magnitude count from 1970; greater numbers are milliseconds. -/
def secondsLimit : Nat := 20000000000

def firstSecond : Int := -11676096000

def lastSecond : Int := 253402300799

def secondsBefore1970 : Int := 62135596800

/-- The day of a number of seconds or milliseconds and some microseconds more. -/
def ofInteger? (n : Int) (micros : Nat) : Option GivenDay := do
  let (seconds, beyond) :=
    if n.natAbs ≤ secondsLimit then (n, 0) else (n.fdiv 1000, 1000 * (n.fmod 1000).toNat)
  let micros := micros + beyond
  let seconds := seconds + (micros / 1000000 : Nat)
  if firstSecond ≤ seconds && seconds ≤ lastSecond then
    let t ← Timestamp.ofUtcSeconds? (secondsBefore1970 + seconds)
    some ⟨t.date.year, t.date.month, t.date.day, t.time == .midnight && micros % 1000000 == 0⟩
  else none

def ofReal? (x : Binary64) : Option GivenDay := do
  let limit := Binary64.ofInt secondsLimit
  let scaled := if limit.lt x || x.lt limit.neg then x.div (Binary64.ofInt 1000) else x
  let seconds ← scaled.floor?
  let micros ← (((scaled.sub (Binary64.ofInt seconds)).mul (Binary64.ofInt 1000000)).roundPlaces 0).truncate?
  ofInteger? seconds micros.toNat

def ofNumberText? (cs : List Char) : Option GivenDay :=
  let (negative, cs) := match cs with
    | '-' :: rest => (true, rest)
    | '+' :: rest => (false, rest)
    | rest => (false, rest)
  let whole := cs.takeWhile Char.isDigit
  if whole.isEmpty then none
  else
    match cs.dropWhile Char.isDigit with
    | [] =>
        let n : Int := Text.digitsValue whole
        ofInteger? (if negative then -n else n) 0
    | '.' :: digits =>
        if digits.all Char.isDigit then
          ofReal? (Binary64.ofDecimal negative (Text.digitsValue (whole ++ digits)) (-(digits.length : Int)))
        else none
    | _ => none

end GivenDay

namespace Checked

def day : Value → Checked Date
  | .text s =>
      match (GivenDay.ofText? s.toList).or (GivenDay.ofNumberText? s.toList) with
      | none => complain .notADate
      | some d =>
          if d.exact then ofOption .notInCalendar (Date.ofParts? d.year d.month d.day)
          else complain .inexactDate
  | _ => complain .notADate

end Checked

end TableSteward

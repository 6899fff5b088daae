import TableSteward.Calendar.Timestamp

/-!
# Calendar values for other programs

The forms of ISO 8601 that every reader accepts: an offset from UTC has hours and minutes only, `Z` stands for
UTC itself, and a duration is a sign and its units, with years of 365 days.
-/
set_option autoImplicit false

namespace TableSteward

def offsetMark : Option Int → String
  | none => ""
  | some offset =>
      if offset = 0 then "Z"
      else
        let n := offset.natAbs
        (if offset < 0 then "-" else "+") ++ Text.padded 2 (n / 3600) ++ ":" ++ Text.padded 2 (n / 60 % 60)

def TimeOfDay.interchangeText (t : TimeOfDay) (offset : Option Int) : String := t.text ++ offsetMark offset

def Timestamp.interchangeText (t : Timestamp) : String :=
  t.date.text ++ "T" ++ t.time.interchangeText t.offset

namespace Duration

def units (n : Nat) (mark : String) : String := if n = 0 then "" else toString n ++ mark

def secondFraction (micros : Nat) : String :=
  if micros = 0 then ""
  else "." ++ String.ofList ((Text.padded 6 micros).toList.reverse.dropWhile (· == '0')).reverse

def clockUnits (micros : Nat) : String :=
  let n := micros / 1000000
  let second := n % 60
  let fraction := secondFraction (micros % 1000000)
  "T" ++ units (n / 3600) "H" ++ units (n / 60 % 60) "M" ++
  (if second = 0 && fraction.isEmpty then "" else toString second ++ fraction ++ "S")

def interchangeText (d : Duration) : String :=
  let total := d.micros.natAbs
  let days := total / 86400000000
  let below := total % 86400000000
  (if d.micros < 0 then "-" else "") ++ "P" ++ units (days / 365) "Y" ++ units (days % 365) "D" ++
  (if total = 0 then "T0S" else if below = 0 then "" else clockUnits below)

end Duration

end TableSteward

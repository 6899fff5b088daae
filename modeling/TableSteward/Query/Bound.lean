import TableSteward.Calendar.Pacific
import TableSteward.Fault
import TableSteward.Text.Blank

/-!
# Bounds of Pacific days

Users give days and times of day by the clocks of the Pacific coast; a query compares instants.  A day is
its first instant as a lower bound and the first instant of the next day as an upper bound, so that the
whole day lies below an upper bound.  A time of `00:00:00` or `23:59:59` stands for such a bound, too.
-/
set_option autoImplicit false

namespace TableSteward

/-- A text in the form of a date, or of a date and a time; the numbers need not make sense. -/
inductive DateText
  | day (year month dayOfMonth : Nat)
  | moment (year month dayOfMonth hour minute second : Nat)
  deriving DecidableEq, Repr

namespace DateText

/-- `dddd-dd-dd`, with digits of any script, and what follows. -/
def readDay? : List Char → Option ((Nat × Nat × Nat) × List Char)
  | a :: b :: c :: d :: '-' :: e :: f :: '-' :: g :: h :: rest =>
      if [a, b, c, d, e, f, g, h].all Text.isDigit then
        some ((Text.digitsValue [a, b, c, d], Text.digitsValue [e, f], Text.digitsValue [g, h]), rest)
      else none
  | _ => none

def readClock? : List Char → Option (Nat × Nat × Nat)
  | [a, b, ':', c, d, ':', e, f] =>
      if [a, b, c, d, e, f].all Text.isDigit then
        some (Text.digitsValue [a, b], Text.digitsValue [c, d], Text.digitsValue [e, f])
      else none
  | _ => none

def read? (s : String) : Option DateText :=
  match readDay? s.toList with
  | none => none
  | some ((year, month, dayOfMonth), []) => some (day year month dayOfMonth)
  | some ((year, month, dayOfMonth), c :: rest) =>
      if Text.isBlank c then
        (readClock? (rest.dropWhile Text.isBlank)).map fun (hour, minute, second) =>
          moment year month dayOfMonth hour minute second
      else none

end DateText

def Value.isDateLike : Value → Bool
  | .text s => (DateText.read? s).isSome
  | _ => false

namespace Bound

def timestamp (instant : Int) : Result Timestamp :=
  match Timestamp.ofUtcSeconds? instant with
  | some t => .ok t
  | none => .error .overflow

def startOf (day : Date) : Result Timestamp := timestamp (Pacific.midnight day)

def startOfNext (day : Date) : Result Timestamp :=
  match day.next? with
  | some next => startOf next
  | none => .error .overflow

def dayOf (given : String) (year month dayOfMonth : Nat) : Result Date :=
  match Date.ofParts? year month dayOfMonth with
  | some d => .ok d
  | none => refuse (.invalidValue (.noSuchDay given))

/-- The instant that a date or a date with a time means, as an upper bound if `upper`. -/
def ofText (s : String) (upper : Bool) : Result Timestamp :=
  match DateText.read? s with
  | none => refuse (.invalidValue (.notADate s))
  | some (.day year month dayOfMonth) => do
      let day ← dayOf s year month dayOfMonth
      if upper then startOfNext day else startOf day
  | some (.moment year month dayOfMonth hour minute second) => do
      let day ← dayOf s year month dayOfMonth
      if (hour, minute, second) = (0, 0, 0) then startOf day
      else if (hour, minute, second) = (23, 59, 59) then startOfNext day
      else
        match TimeOfDay.ofParts? hour minute second 0 with
        | some t => timestamp (Pacific.toUtc day t.secondOfDay)
        | none => refuse (.invalidValue (.noSuchTime s))

def ofValue (v : Value) (upper : Bool) : Result Value :=
  match v with
  | .text s =>
      if (DateText.read? s).isSome then do
        let t ← ofText s upper
        return .timestamp t
      else return v
  | v => return v

end Bound

end TableSteward

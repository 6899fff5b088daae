import TableSteward.Fault
import TableSteward.Text.Blank
import TableSteward.Text.Integer
import TableSteward.Value

/-!
# Days and moments in YAML

A day is written as a year, a month and a day; a moment has a time as well, and perhaps an offset from UTC.
`MomentText.ofText?` splits a text of this form into its numbers, which need not make sense; `value?` is the
day or moment that they name.
-/
set_option autoImplicit false

namespace TableSteward.Yaml

structure ClockText where
  hour : Nat
  minute : Nat
  second : Nat
  fraction : List Char
  offset : Option Int

structure MomentText where
  year : Nat
  month : Nat
  day : Nat
  clock : Option ClockText

def isSpaceOrTab (c : Char) : Bool := c == ' ' || c == '\t'

def shortNumber? (cs : List Char) : Option Nat :=
  if cs.all Char.isDigit && (cs.length == 1 || cs.length == 2) then some (Text.digitsValue cs) else none

def pairNumber? (cs : List Char) : Option Nat := if cs.length == 2 then shortNumber? cs else none

def momentOffset? (cs : List Char) : Option (Option Int) :=
  match cs.dropWhile isSpaceOrTab with
  | [] => if cs.isEmpty then some none else none
  | ['Z'] => some (some 0)
  | sign :: rest => do
      if sign == '+' || sign == '-' then
        let (hours, minutes) ←
          match Text.splitOn ':' rest with
          | [hours] => some (hours, ['0', '0'])
          | [hours, minutes] => some (hours, minutes)
          | _ => none
        let h ← shortNumber? hours
        let m ← pairNumber? minutes
        let n : Int := 3600 * h + 60 * m
        return some (if sign == '-' then -n else n)
      else none

def ClockText.ofText? (cs : List Char) : Option ClockText :=
  let inClock (c : Char) : Bool := c.isDigit || c == ':'
  match Text.splitOn ':' (cs.takeWhile inClock) with
  | [hour, minute, second] => do
      let h ← shortNumber? hour
      let m ← pairNumber? minute
      let s ← pairNumber? second
      let (fraction, rest) :=
        match cs.dropWhile inClock with
        | '.' :: rest => (rest.takeWhile Char.isDigit, rest.dropWhile Char.isDigit)
        | rest => ([], rest)
      return ⟨h, m, s, fraction, ← momentOffset? rest⟩
  | _ => none

namespace MomentText

def ofText? (cs : List Char) : Option MomentText :=
  let inDay (c : Char) : Bool := c.isDigit || c == '-'
  match Text.splitOn '-' (cs.takeWhile inDay) with
  | [year, month, day] => do
      if year.length != 4 then none
      else
        let m ← shortNumber? month
        let d ← shortNumber? day
        let rest := cs.dropWhile inDay
        let clock ←
          match rest with
          | [] => some none
          | sep :: rest =>
              let clock? :=
                if sep == 'T' || sep == 't' then some rest
                else if isSpaceOrTab sep then some (rest.dropWhile isSpaceOrTab)
                else none
              (clock?.bind ClockText.ofText?).map some
        return ⟨Text.digitsValue year, m, d, clock⟩
  | _ => none

def isOffset (n : Int) : Bool := n.natAbs < 86400

def value? (m : MomentText) : Option Value := do
  match m.clock with
  | none => return .date (← Date.ofParts? m.year m.month m.day)
  | some c => do
      let micro := Text.digitsValue ((c.fraction ++ List.replicate 6 '0').take 6)
      let date ← Date.ofParts? m.year m.month m.day
      let time ← TimeOfDay.ofParts? c.hour c.minute c.second micro
      if c.offset.all isOffset then return .timestamp ⟨date, time, c.offset⟩ else none

end MomentText

/-- Whether a plain scalar is a day or a moment.  A day alone has two digits for the month and the day. -/
def isPlainMoment (cs : List Char) : Bool :=
  match MomentText.ofText? cs with
  | some m => m.clock.isSome || cs.length == 10
  | none => false

end TableSteward.Yaml

import TableSteward.Number.Decimal
import TableSteward.Text.Case
import TableSteward.Text.Encoding
import TableSteward.Yaml.Tag

/-!
# Values of scalars

The value that a text stands for under a tag.  A tag may be given to any text, so that a text need not have
the form that the tag asks for: an integer or a real number has a first character, a truth value is one of six
words, and a moment has the form of one.
-/
set_option autoImplicit false

namespace TableSteward.Yaml

def withoutLines (s : String) : List Char := s.toList.filter (· != '_')

def signed (cs : List Char) : Result (Bool × List Char) :=
  match cs with
  | [] => .error .tooShort
  | '-' :: rest => .ok (true, rest)
  | '+' :: rest => .ok (false, rest)
  | cs => .ok (false, cs)

def readable {α : Type} (x : Option α) : Result α := x.elim (.error .unreadableNumber) .ok

def sixties : List Int → Int
  | [] => 0
  | d :: rest => d + 60 * sixties rest

def magnitude (cs : List Char) : Result Int :=
  match cs with
  | [] => .error .tooShort
  | ['0'] => .ok 0
  | '0' :: 'b' :: rest => readable (Text.readIntegerIn? 2 rest)
  | '0' :: 'x' :: rest => readable (Text.readIntegerIn? 16 rest)
  | '0' :: _ => readable (Text.readIntegerIn? 8 cs)
  | _ => do
      let pieces := (Text.splitOn ':' cs).map String.ofList
      let digits ← readable (pieces.mapM Text.readInteger?)
      return sixties digits.reverse

def integerValue (s : String) : Result Value := do
  let (negative, cs) ← signed (withoutLines s)
  let n ← magnitude cs
  return .int (if negative then -n else n)

/-- Digits to the base sixty as binary64 numbers, the last one first; `scale` is the weight of the next. -/
def sixtiesReal (sum : Binary64) (scale : Nat) : List Binary64 → Result Binary64
  | [] => .ok sum
  | d :: rest =>
      match Number.toBinary64 (.int scale) with
      | .ok weight => sixtiesReal (sum.add (d.mul weight)) (60 * scale) rest
      | .error f => .error (.ofArithmetic f)

def realValue (s : String) : Result Value := do
  let (negative, cs) ← signed ((Text.lower (String.ofList (withoutLines s))).toList)
  let word := String.ofList cs
  let x ←
    if word == ".inf" then Except.ok (Binary64.infinite false)
    else if word == ".nan" then Except.ok Binary64.nan
    else if cs.contains ':' then do
      let pieces := (Text.splitOn ':' cs).map String.ofList
      let digits ← readable (pieces.mapM Binary64.ofText?)
      sixtiesReal Binary64.zero 1 digits.reverse
    else readable (Binary64.ofText? word)
  return .real (if negative then x.neg else x)

def truthWords : List (String × Bool) :=
  [("yes", true), ("no", false), ("true", true), ("false", false), ("on", true), ("off", false)]

def truthValue (s : String) : Result Value :=
  let word := Text.lower s
  match truthWords.lookup word with
  | some b => .ok (.bool b)
  | none => .error (.missingKey word)

def momentValue (s : String) : Result Value :=
  match MomentText.ofText? (withoutFinalBreak s.toList) with
  | some m => readable m.value?
  | none => .error .notAMoment

def binaryValue (s : String) : Result Value :=
  match if s.toList.all fun c => c.toNat < 0x80 then Text.bytesOfBase64? s else none with
  | some bs => .ok (.bytes bs)
  | none => .error .unknownValue

def Tag.scalarValue (tag : Tag) (s : String) : Result Value :=
  match tag with
  | .null => .ok .null
  | .bool => truthValue s
  | .int => integerValue s
  | .real => realValue s
  | .binary => binaryValue s
  | .moment => momentValue s
  | .text => .ok (.text s)
  | _ => .error .unknownValue

end TableSteward.Yaml

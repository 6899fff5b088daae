import TableSteward.Fault

/-!
# Values as integers

The integer that a value stands for: numbers lose what follows the point, texts and bytes are read, and
an identifier of 128 bits is a number to the base sixteen.
-/
set_option autoImplicit false

namespace TableSteward.Value

/-- The text whose characters are the given bytes; only ASCII can write an integer. -/
def asciiText (bs : List UInt8) : String :=
  String.ofList (bs.map fun b => if b.toNat < 0x80 then Char.ofNat b.toNat else '?')

def readInteger (s : String) : Result Int :=
  match Text.readInteger? s with
  | some n => .ok n
  | none => .error .unreadableNumber

def identifierNumber (s : String) : Nat :=
  (s.toList.filterMap Text.hexValue?).foldl (fun n digit => 16 * n + digit) 0

def toInteger : Value → Result Int
  | bool b => .ok (if b then 1 else 0)
  | int n => .ok n
  | real x =>
      match x, x.truncate? with
      | _, some n => .ok n
      | .nan, none => .error .unreadableNumber
      | _, none => .error .overflow
  | decimal d =>
      match d, d.truncate? with
      | _, some n => .ok n
      | .nan .., none => .error .unreadableNumber
      | _, none => .error .overflow
  | uuid u => .ok (identifierNumber u)
  | text s => readInteger s
  | bytes bs | memory bs => readInteger (asciiText bs)
  | _ => .error .notANumber

def toNumber? : Value → Option Number
  | bool b => some (.int (if b then 1 else 0))
  | int n => some (.int n)
  | real x => some (.real x)
  | _ => none

end TableSteward.Value

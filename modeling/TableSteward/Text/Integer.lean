import TableSteward.Text.Blank

/-!
# Integers in text

The decimal digits of every script stand in runs of ten consecutive code points, in order of value.  A digit is a
character of one of these runs, and its value is its distance from the start of the run.

`readInteger?` reads an integer generously: blanks around it, a sign, digits of any script and single
underscores between digits are accepted, and at most `maxDigits` digits.  `grouped` writes an integer
with a comma between groups of three digits.
-/
set_option autoImplicit false

namespace TableSteward.Text

/-- The code points of the digits zero, in ascending order. -/
def digitZeros : Array Nat := #[
  0x30, 0x660, 0x6F0, 0x7C0, 0x966, 0x9E6, 0xA66, 0xAE6, 0xB66, 0xBE6, 0xC66, 0xCE6, 0xD66,
  0xDE6, 0xE50, 0xED0, 0xF20, 0x1040, 0x1090, 0x17E0, 0x1810, 0x1946, 0x19D0, 0x1A80, 0x1A90,
  0x1B50, 0x1BB0, 0x1C40, 0x1C50, 0xA620, 0xA8D0, 0xA900, 0xA9D0, 0xA9F0, 0xAA50, 0xABF0,
  0xFF10, 0x104A0, 0x10D30, 0x11066, 0x110F0, 0x11136, 0x111D0, 0x112F0, 0x11450, 0x114D0,
  0x11650, 0x116C0, 0x11730, 0x118E0, 0x11950, 0x11C50, 0x11D50, 0x11DA0, 0x16A60, 0x16AC0,
  0x16B50, 0x1D7CE, 0x1D7D8, 0x1D7E2, 0x1D7EC, 0x1D7F6, 0x1E140, 0x1E2F0, 0x1E950, 0x1FBF0
  ]

def digitValue? (c : Char) : Option Nat :=
  if c.toNat < 0x80 then
    if c.isDigit then some (c.toNat - 0x30) else none
  else
    (digitZeros.find? fun start => start ≤ c.toNat && c.toNat < start + 10).map fun start => c.toNat - start

def isDigit (c : Char) : Bool := (digitValue? c).isSome

def digitsValue (cs : List Char) : Nat :=
  cs.foldl (fun n c => 10 * n + (digitValue? c).getD 0) 0

def maxDigits : Nat := 4300

/-- The digits of a run of digits in which single underscores may stand between two digits. -/
def groupedDigits? : List Char → Option (List Char)
  | [] => none
  | [c] => if isDigit c then some [c] else none
  | c :: '_' :: rest => if isDigit c then (groupedDigits? rest).map (c :: ·) else none
  | c :: rest => if isDigit c then (groupedDigits? rest).map (c :: ·) else none

def readUnsigned? (cs : List Char) : Option Nat :=
  match groupedDigits? cs with
  | some digits => if digits.length ≤ maxDigits then some (digitsValue digits) else none
  | none => none

def readInteger? (s : String) : Option Int :=
  match strip isSpacing s.toList with
  | '-' :: rest => (readUnsigned? rest).map fun n => -(n : Int)
  | '+' :: rest => (readUnsigned? rest).map fun n => (n : Int)
  | cs => (readUnsigned? cs).map fun n => (n : Int)

/-- The value of a digit to a base: the decimal digits of every script, then letters in either case. -/
def digitIn? (base : Nat) (c : Char) : Option Nat :=
  let value? :=
    if 'a' ≤ c && c ≤ 'z' then some (c.toNat - 0x57)
    else if 'A' ≤ c && c ≤ 'Z' then some (c.toNat - 0x37)
    else digitValue? c
  value?.filter (· < base)

def baseMark : Nat → Option Char
  | 2 => some 'b'
  | 8 => some 'o'
  | 16 => some 'x'
  | _ => none

def withoutBaseMark (base : Nat) : List Char → List Char
  | '0' :: c :: rest => if baseMark base == some c.toLower then rest else '0' :: c :: rest
  | cs => cs

def readUnsignedIn? (base : Nat) (cs : List Char) : Option Nat := do
  let digits ← (withoutBaseMark base cs).mapM (digitIn? base)
  if digits.isEmpty then none else some (digits.foldl (fun n d => base * n + d) 0)

def readIntegerIn? (base : Nat) (cs : List Char) : Option Int :=
  match strip isSpacing cs with
  | '-' :: rest => (readUnsignedIn? base rest).map fun n => -(n : Int)
  | '+' :: rest => (readUnsignedIn? base rest).map fun n => (n : Int)
  | cs => (readUnsignedIn? base cs).map fun n => (n : Int)

/-- Digits in groups of three, counted from the right; the argument and the result are reversed. -/
def groupThrees : List Char → List Char
  | a :: b :: c :: d :: rest => a :: b :: c :: ',' :: groupThrees (d :: rest)
  | cs => cs

def grouped (n : Int) : String :=
  let digits := String.ofList (groupThrees (toString n.natAbs).toList.reverse).reverse
  if n < 0 then "-" ++ digits else digits

def padded (width n : Nat) : String :=
  let digits := toString n
  String.ofList (List.replicate (width - digits.length) '0') ++ digits

end TableSteward.Text

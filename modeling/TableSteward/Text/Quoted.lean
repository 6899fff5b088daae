import TableSteward.Text.Printable
import TableSteward.Text.Unit

/-!
# Quoted text

A text in quotes: single quotes, or double quotes when it holds a single quote and no double one.
A backslash, the quote in use and the characters that are not printable are written with escapes.
-/
set_option autoImplicit false

namespace TableSteward.Text

def hexDigits (width n : Nat) : List Char :=
  let digits := Nat.toDigits 16 n
  List.replicate (width - digits.length) '0' ++ digits

def singleQuote : Char := Char.ofNat 0x27

def quotedChar (quote c : Char) : List Char :=
  if c == quote || c == '\\' then ['\\', c]
  else if c == '\n' then ['\\', 'n']
  else if c == '\r' then ['\\', 'r']
  else if c == '\t' then ['\\', 't']
  else if isPrintable c then [c]
  else if let some n := half? c then '\\' :: 'u' :: hexDigits 4 n
  else if c.toNat < 0x100 then '\\' :: 'x' :: hexDigits 2 c.toNat
  else if c.toNat < 0x10000 then '\\' :: 'u' :: hexDigits 4 c.toNat
  else '\\' :: 'U' :: hexDigits 8 c.toNat

def quoteFor (cs : List Char) : Char :=
  if cs.contains singleQuote && !cs.contains '"' then '"' else singleQuote

def quoted (s : String) : String :=
  let quote := quoteFor s.toList
  String.ofList (quote :: s.toList.flatMap (quotedChar quote) ++ [quote])

/-- A string of bytes in quotes: the bytes of printable ASCII stand for themselves. -/
def quotedByte (quote : Char) (b : UInt8) : List Char :=
  let c := Char.ofNat b.toNat
  if c == quote || c == '\\' then ['\\', c]
  else if c == '\n' then ['\\', 'n']
  else if c == '\r' then ['\\', 'r']
  else if c == '\t' then ['\\', 't']
  else if 0x20 ≤ b.toNat && b.toNat < 0x7F then [c]
  else '\\' :: 'x' :: hexDigits 2 b.toNat

def quotedBytes (bs : List UInt8) : String :=
  let quote := quoteFor (bs.map fun b => Char.ofNat b.toNat)
  String.ofList ('b' :: quote :: bs.flatMap (quotedByte quote) ++ [quote])

def hexBytes (bs : List UInt8) : String :=
  String.ofList (bs.flatMap fun b => hexDigits 2 b.toNat)

def hexValue? (c : Char) : Option Nat :=
  if c.isDigit then some (c.toNat - 0x30)
  else if 'a' ≤ c && c ≤ 'f' then some (c.toNat - 0x57)
  else if 'A' ≤ c && c ≤ 'F' then some (c.toNat - 0x37)
  else none

def bytesOfHex? : List Char → Option (List UInt8)
  | [] => some []
  | a :: b :: rest => do
      let x ← hexValue? a
      let y ← hexValue? b
      let bs ← bytesOfHex? rest
      return UInt8.ofNat (16 * x + y) :: bs
  | [_] => none

end TableSteward.Text

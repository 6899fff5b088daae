import TableSteward.Text.Encoding
import TableSteward.Text.Unit

/-!
# Documents as bytes

A document in JSON begins with two characters of ASCII, so that its first bytes tell how it is encoded, with or
without a mark in front.  `textOfBytes?` is the text without the mark.
-/
set_option autoImplicit false

namespace TableSteward.Json

inductive Encoding
  | utf8
  | utf16 (bigEndian : Bool)
  | utf32 (bigEndian : Bool)
  deriving DecidableEq, Repr

namespace Encoding

def marks : List (List UInt8 × Encoding) :=
  [([0, 0, 0xFE, 0xFF], utf32 true), ([0xFF, 0xFE, 0, 0], utf32 false), ([0xFE, 0xFF], utf16 true),
   ([0xFF, 0xFE], utf16 false), ([0xEF, 0xBB, 0xBF], utf8)]

/-- The encoding of a text without a mark: the bytes of its first characters that are zero give it away. -/
def ofStart : List UInt8 → Encoding
  | a :: b :: c :: d :: _ =>
      if a == 0 then (if b == 0 then utf32 true else utf16 true)
      else if b == 0 then (if c == 0 && d == 0 then utf32 false else utf16 false)
      else utf8
  | [a, b] => if a == 0 then utf16 true else if b == 0 then utf16 false else utf8
  | _ => utf8

def detect (bs : List UInt8) : Encoding × List UInt8 :=
  match marks.find? fun (mark, _) => mark.isPrefixOf bs with
  | some (mark, encoding) => (encoding, bs.drop mark.length)
  | none => (ofStart bs, bs)

def number (bigEndian : Bool) (bs : List UInt8) : Nat :=
  (if bigEndian then bs else bs.reverse).foldl (fun n b => 256 * n + b.toNat) 0

def pairs? (bigEndian : Bool) : List UInt8 → Option (List Nat)
  | [] => some []
  | a :: b :: rest => (pairs? bigEndian rest).map (number bigEndian [a, b] :: ·)
  | _ => none

def quads? (bigEndian : Bool) : List UInt8 → Option (List Nat)
  | [] => some []
  | a :: b :: c :: d :: rest => (quads? bigEndian rest).map (number bigEndian [a, b, c, d] :: ·)
  | _ => none

def lastChar : Nat := 0x10FFFF

def decode? : Encoding → List UInt8 → Option (List Char)
  | utf8, bs => Text.decode? bs
  | utf16 bigEndian, bs => (pairs? bigEndian bs).map Text.joinUnits
  | utf32 bigEndian, bs => do
      let numbers ← quads? bigEndian bs
      if numbers.all (· ≤ lastChar) then some (numbers.map Text.unitChar) else none

end Encoding

def textOfBytes? (bs : List UInt8) : Option String :=
  let (encoding, bs) := Encoding.detect bs
  (encoding.decode? bs).map String.ofList

end TableSteward.Json

/-!
# Text as bytes

Texts in UTF-8.  `nextChar` reads one character from the front of some bytes; where there is none it passes
over the longest run of bytes that could begin one.  `decode?` reads bytes that are well-formed throughout, and
`decodeLossy` puts a replacement character for every run that is not.
-/
set_option autoImplicit false

namespace TableSteward.Text

def encode (s : String) : List UInt8 := s.toUTF8.toList

/-- How many bytes follow a leading byte, the bits of the character that it holds, and the range in which the
second byte lies. -/
structure Lead where
  more : Nat
  bits : Nat
  low : Nat := 0x80
  high : Nat := 0xBF

/-- Leading bytes of more than one byte.  The range of the second byte keeps out forms that are longer than
they need to be, surrogates and numbers beyond the last character. -/
def lead? (b : Nat) : Option Lead :=
  if 0xC2 ≤ b && b ≤ 0xDF then some { more := 1, bits := b - 0xC0 }
  else if b == 0xE0 then some { more := 2, bits := 0, low := 0xA0 }
  else if b == 0xED then some { more := 2, bits := 0xD, high := 0x9F }
  else if 0xE1 ≤ b && b ≤ 0xEF then some { more := 2, bits := b - 0xE0 }
  else if b == 0xF0 then some { more := 3, bits := 0, low := 0x90 }
  else if 0xF1 ≤ b && b ≤ 0xF3 then some { more := 3, bits := b - 0xF0 }
  else if b == 0xF4 then some { more := 3, bits := 4, high := 0x8F }
  else none

/-- The character of a sequence whose first bytes are read, and how many more bytes it takes.  On a byte that
does not fit there is no character, and the count tells how many bytes did. -/
def continued (bits : Nat) : Nat → Nat → Nat → List UInt8 → Option Char × Nat
  | 0, _, _, _ => (some (Char.ofNat bits), 0)
  | _ + 1, _, _, [] => (none, 0)
  | more + 1, low, high, b :: rest =>
      if low ≤ b.toNat && b.toNat ≤ high then
        let (c, n) := continued (64 * bits + (b.toNat - 0x80)) more 0x80 0xBF rest
        (c, n + 1)
      else (none, 0)

def nextChar (b : UInt8) (rest : List UInt8) : Option Char × Nat :=
  if b.toNat < 0x80 then (some (Char.ofNat b.toNat), 0)
  else
    match lead? b.toNat with
    | some l => continued l.bits l.more l.low l.high rest
    | none => (none, 0)

def decodeGaps : Nat → List UInt8 → List (Option Char)
  | 0, _ => []
  | _ + 1, [] => []
  | fuel + 1, b :: rest =>
      let (c, n) := nextChar b rest
      c :: decodeGaps fuel (rest.drop n)

def decode? (bs : List UInt8) : Option (List Char) := (decodeGaps bs.length bs).mapM id

def replacementChar : Char := Char.ofNat 0xFFFD

def decodeLossy (bs : List UInt8) : List Char :=
  (decodeGaps bs.length bs).map fun c => c.getD replacementChar

/-! ## Base sixty-four

Four characters write three bytes.  Characters that are no digits are passed over; padding ends the text as
soon as it completes a group of four.
-/

def base64Value? (c : Char) : Option Nat :=
  if c.isUpper then some (c.toNat - 0x41)
  else if c.isLower then some (c.toNat - 0x61 + 26)
  else if c.isDigit then some (c.toNat - 0x30 + 52)
  else if c == '+' then some 62
  else if c == '/' then some 63
  else none

/-- How far a group of four is read: the number of its digits, the bits that no byte has taken yet, and the
padding since the last digit. -/
structure Base64Group where
  digits : Nat := 0
  bits : Nat := 0
  padding : Nat := 0

def Base64Group.add (g : Base64Group) (digit : Nat) : Option UInt8 × Base64Group :=
  match g.digits with
  | 0 => (none, ⟨1, digit, 0⟩)
  | 1 => (some (UInt8.ofNat (4 * g.bits + digit / 16)), ⟨2, digit % 16, 0⟩)
  | 2 => (some (UInt8.ofNat (16 * g.bits + digit / 4)), ⟨3, digit % 4, 0⟩)
  | _ => (some (UInt8.ofNat (64 * g.bits + digit)), {})

def base64From (g : Base64Group) : List Char → Option (List UInt8)
  | [] => if g.digits = 0 then some [] else none
  | c :: rest =>
      if c == '=' then
        let padding := g.padding + 1
        if 2 ≤ g.digits then
          if 4 ≤ g.digits + padding then some [] else base64From { g with padding := padding } rest
        else base64From g rest
      else
        match base64Value? c with
        | none => base64From g rest
        | some digit =>
            let (byte, g) := g.add digit
            (base64From g rest).map (byte.toList ++ ·)

def bytesOfBase64? (s : String) : Option (List UInt8) := base64From {} s.toList

end TableSteward.Text

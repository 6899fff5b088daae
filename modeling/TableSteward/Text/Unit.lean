/-!
# Units of sixteen bits

A character is one unit of sixteen bits, or two from the ranges of surrogates.  Half of such a pair is no
character.  A text that holds one keeps it as the private character 0x100000 places above it, which `half?`
recognises, so that it can be written again as the unit that it is.
-/
set_option autoImplicit false

namespace TableSteward.Text

def isHigh (n : Nat) : Bool := 0xD800 ≤ n && n < 0xDC00

def isLow (n : Nat) : Bool := 0xDC00 ≤ n && n < 0xE000

def unitChar (n : Nat) : Char := Char.ofNat (if isHigh n || isLow n then 0x100000 + n else n)

def half? (c : Char) : Option Nat :=
  let n := c.toNat - 0x100000
  if 0x100000 ≤ c.toNat && (isHigh n || isLow n) then some n else none

def hasHalf (s : String) : Bool := s.toList.any fun c => (half? c).isSome

/-- Characters from units: a pair of surrogates is one character. -/
def joinUnits : List Nat → List Char
  | [] => []
  | [n] => [unitChar n]
  | n :: m :: rest =>
      if isHigh n && isLow m then Char.ofNat (0x10000 + (n - 0xD800) * 0x400 + (m - 0xDC00)) :: joinUnits rest
      else unitChar n :: joinUnits (m :: rest)

def unitsOf (c : Char) : List Nat :=
  match half? c with
  | some n => [n]
  | none =>
      if c.toNat < 0x10000 then [c.toNat]
      else
        let n := c.toNat - 0x10000
        [0xD800 + n / 0x400, 0xDC00 + n % 0x400]

end TableSteward.Text

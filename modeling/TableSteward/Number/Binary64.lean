/-!
# Binary64 numbers

A number of the 64-bit binary format is a value of its own here: NaN, a signed infinity, or `± m · 2^e`
in the one canonical form the format allows.  Every operation computes the exact rational result and
rounds it once, to the nearest number and to an even significand on a tie.
-/
set_option autoImplicit false

namespace TableSteward

/-! ## Scales -/

def powerOfTwo (k : Nat) : Nat := Nat.pow 2 k

def powerOfTen (k : Nat) : Nat := Nat.pow 10 k

/-! ## Numbers -/

/-- A binary64 number.  A finite one has `m < 2^53`, and `2^52 ≤ m` unless `e` is the least exponent. -/
inductive Binary64
  | nan
  | infinite (negative : Bool)
  | finite (negative : Bool) (m : Nat) (e : Int)
  deriving DecidableEq, Repr

namespace Binary64

def leastExponent : Int := -1074

def greatestExponent : Int := 971

def zero : Binary64 := .finite false 0 leastExponent

def signedZero (negative : Bool) : Binary64 := .finite negative 0 leastExponent

/-- `num / den`, rounded to the nearest integer, ties to even. -/
def roundQuotient (num den : Nat) : Nat :=
  let q := num / den
  let r := num % den
  if 2 * r < den then q
  else if den < 2 * r then q + 1
  else if q % 2 == 0 then q else q + 1

def scaleRound (num den : Nat) (e : Int) : Nat :=
  if 0 ≤ e then roundQuotient num (den * powerOfTwo e.toNat)
  else roundQuotient (num * powerOfTwo (-e).toNat) den

def exponentFor (num den : Nat) : Int :=
  let guess : Int := (num.log2 : Int) - (den.log2 : Int) - 52
  -- the quotient lies in `[2^51, 2^53)` units of `2^guess`
  let below : Bool :=
    if 0 ≤ guess then num < den * powerOfTwo guess.toNat * powerOfTwo 52
    else num * powerOfTwo (-guess).toNat < den * powerOfTwo 52
  max leastExponent (if below then guess - 1 else guess)

def ofRatio (negative : Bool) (num den : Nat) : Binary64 :=
  if num = 0 then signedZero negative
  else
    let e := exponentFor num den
    let m := scaleRound num den e
    let (m, e) := if m = powerOfTwo 53 then (powerOfTwo 52, e + 1) else (m, e)
    if greatestExponent < e then .infinite negative else .finite negative m e

def ofInt (n : Int) : Binary64 := ofRatio (n < 0) n.natAbs 1

def ofDecimal (negative : Bool) (digits : Nat) (exponent : Int) : Binary64 :=
  if digits = 0 then signedZero negative
  else
    let magnitude := exponent + ((toString digits).length : Int)
    -- beyond these magnitudes every number rounds to infinity or to zero
    if 400 < magnitude then .infinite negative
    else if magnitude < -400 then signedZero negative
    else if 0 ≤ exponent then ofRatio negative (digits * powerOfTen exponent.toNat) 1
    else ofRatio negative digits (powerOfTen (-exponent).toNat)

def magnitude (m : Nat) (e : Int) : Nat × Nat :=
  if 0 ≤ e then (m * powerOfTwo e.toNat, 1) else (m, powerOfTwo (-e).toNat)

def quotient (negative : Bool) (m : Nat) (e : Int) : Int × Nat :=
  let (num, den) := magnitude m e
  (if negative then -(num : Int) else num, den)

/-- The number nearest to a quotient; `negativeZero` gives the sign of zero. -/
def ofQuotient (num : Int) (den : Nat) (negativeZero : Bool) : Binary64 :=
  if num = 0 then signedZero negativeZero else ofRatio (num < 0) num.natAbs den

def neg : Binary64 → Binary64
  | .nan => .nan
  | .infinite s => .infinite !s
  | .finite s m e => .finite (!s) m e

def add : Binary64 → Binary64 → Binary64
  | .nan, _ => .nan
  | _, .nan => .nan
  | .infinite s, .infinite t => if s = t then .infinite s else .nan
  | .infinite s, .finite .. => .infinite s
  | .finite .., .infinite t => .infinite t
  | .finite s m e, .finite t n f =>
      let (a, b) := quotient s m e
      let (c, d) := quotient t n f
      ofQuotient (a * d + c * b) (b * d) (s && t)

def sub (x y : Binary64) : Binary64 := add x (neg y)

def mul : Binary64 → Binary64 → Binary64
  | .nan, _ => .nan
  | _, .nan => .nan
  | .infinite s, .infinite t => .infinite (s != t)
  | .infinite s, .finite t n _ => if n = 0 then .nan else .infinite (s != t)
  | .finite s m _, .infinite t => if m = 0 then .nan else .infinite (s != t)
  | .finite s m e, .finite t n f =>
      let (a, b) := magnitude m e
      let (c, d) := magnitude n f
      ofRatio (s != t) (a * c) (b * d)

def div : Binary64 → Binary64 → Binary64
  | .nan, _ => .nan
  | _, .nan => .nan
  | .infinite _, .infinite _ => .nan
  | .infinite s, .finite t _ _ => .infinite (s != t)
  | .finite s _ _, .infinite t => signedZero (s != t)
  | .finite s m e, .finite t n f =>
      let (a, b) := magnitude m e
      let (c, d) := magnitude n f
      if c = 0 then (if a = 0 then .nan else .infinite (s != t)) else ofRatio (s != t) (a * d) (b * c)

/-- The order of numbers; nothing is less than NaN or greater than it. -/
def lt : Binary64 → Binary64 → Bool
  | .nan, _ => false
  | _, .nan => false
  | .infinite s, .infinite t => s && !t
  | .infinite s, .finite .. => s
  | .finite .., .infinite t => !t
  | .finite s m e, .finite t n f =>
      let (a, b) := quotient s m e
      let (c, d) := quotient t n f
      a * d < c * b

/-- Numerical equality: the two zeros are equal and NaN equals nothing. -/
def equals (x y : Binary64) : Bool := x != .nan && y != .nan && !lt x y && !lt y x

def isFinite : Binary64 → Bool
  | finite .. => true
  | _ => false

def isZero : Binary64 → Bool
  | .finite _ m _ => m == 0
  | _ => false

def truncate? : Binary64 → Option Int
  | .finite s m e =>
      let (num, den) := magnitude m e
      some (if s then -((num / den : Nat) : Int) else ((num / den : Nat) : Int))
  | _ => none

def floor? : Binary64 → Option Int
  | .finite s m e =>
      let (num, den) := quotient s m e
      some (num.fdiv den)
  | _ => none

def ceil? : Binary64 → Option Int
  | .finite s m e =>
      let (num, den) := quotient s m e
      some (-((-num) / (den : Int)))
  | _ => none

def isInteger : Binary64 → Bool
  | .finite _ m e =>
      let (num, den) := magnitude m e
      num % den == 0
  | _ => false

/-- A number rounded to `places` decimal places: the nearest such decimal to its exact value, ties to
even, and then the nearest number to that decimal. -/
def roundPlaces (places : Nat) : Binary64 → Binary64
  | .finite s m e =>
      let (num, den) := magnitude m e
      let scaled := roundQuotient (num * powerOfTen places) den
      if scaled = 0 then signedZero s else ofRatio s scaled (powerOfTen places)
  | x => x

end Binary64

end TableSteward

import TableSteward.Number.Binary64
import TableSteward.Number.Shortest

/-!
# Numbers

A number is an integer of any size or a binary64 number.  Integers stay exact among themselves; an
integer meets a binary64 number as the nearest binary64 number, and comparisons are always exact.
-/
set_option autoImplicit false

namespace TableSteward

inductive Number
  | int (n : Int)
  | real (x : Binary64)
  deriving DecidableEq, Repr

inductive ArithmeticFault
  | overflow
  | divisionByZero
  deriving DecidableEq, Repr

namespace Number

def toBinary64 : Number → Except ArithmeticFault Binary64
  | .real x => .ok x
  | .int n =>
      match Binary64.ofInt n with
      | .infinite _ => .error .overflow
      | x => .ok x

/-- Comparison of an integer with a binary64 number, both exact. -/
def intLtReal (n : Int) : Binary64 → Bool
  | .nan => false
  | .infinite negative => !negative
  | .finite s m e =>
      let (a, b) := Binary64.quotient s m e
      n * b < a

def realLtInt (x : Binary64) (n : Int) : Bool :=
  match x with
  | .nan => false
  | .infinite negative => negative
  | .finite s m e =>
      let (a, b) := Binary64.quotient s m e
      a < n * b

def lt : Number → Number → Bool
  | .int a, .int b => a < b
  | .int a, .real y => intLtReal a y
  | .real x, .int b => realLtInt x b
  | .real x, .real y => x.lt y

instance : LT Number := ⟨fun x y => lt x y = true⟩

instance : DecidableLT Number := fun x y => inferInstanceAs (Decidable (lt x y = true))

def add : Number → Number → Except ArithmeticFault Number
  | .int a, .int b => .ok (.int (a + b))
  | x, y => do
      let a ← x.toBinary64
      let b ← y.toBinary64
      return .real (a.add b)

def isZero : Number → Bool
  | .int n => n == 0
  | .real x => x.isZero

/-- The quotient as a binary64 number.  The quotient of two integers is the exact one, rounded once. -/
def divide : Number → Number → Except ArithmeticFault Binary64
  | .int a, .int b =>
      if b = 0 then .error .divisionByZero
      else
        match Binary64.ofRatio ((a < 0) != (b < 0) && a != 0) a.natAbs b.natAbs with
        | .infinite _ => .error .overflow
        | x => .ok x
  | x, y => do
      if y.isZero then .error .divisionByZero
      let a ← x.toBinary64
      let b ← y.toBinary64
      return a.div b

end Number

end TableSteward

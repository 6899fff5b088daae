import TableSteward.Number.Binary64

/-!
# The shortest decimal that reads back

The reals that round to a finite binary64 number form an interval around it, whose ends belong to it
when the significand is even.  `shortest` finds the fewest digits that name a real in the interval and,
among the decimals with so many digits, the nearest to the number.  `text` writes it positionally when
its decimal exponent lies between -4 and 15 and with an exponent otherwise.
-/
set_option autoImplicit false

namespace TableSteward.Binary64

/-- The interval of a positive finite number in units of a quarter of its last place: lower end, the
number itself and upper end, the power of two of the unit, and whether the ends belong to it. -/
structure Neighbourhood where
  low : Nat
  mid : Nat
  high : Nat
  unit : Int
  closed : Bool

/-- The step down to the next smaller number is half as large at a power of two. -/
def neighbourhood (m : Nat) (e : Int) : Neighbourhood :=
  let narrow := m == powerOfTwo 52 && leastExponent < e
  { low := 4 * m - (if narrow then 1 else 2), mid := 4 * m, high := 4 * m + 2, unit := e - 2
    closed := m % 2 == 0 }

def common (a d : Nat) (unit k : Int) : Nat × Nat :=
  (a * powerOfTwo unit.toNat * powerOfTen (-k).toNat, d * powerOfTen k.toNat * powerOfTwo (-unit).toNat)

def Neighbourhood.holds (n : Neighbourhood) (d : Nat) (k : Int) : Bool :=
  let (low, x) := common n.low d n.unit k
  let (high, y) := common n.high d n.unit k
  if n.closed then low ≤ x && y ≤ high else low < x && y < high

def Neighbourhood.floor (n : Neighbourhood) (k : Int) : Nat :=
  let (a, b) := common n.mid 1 n.unit k
  a / b

def Neighbourhood.nearer (n : Neighbourhood) (d : Nat) (k : Int) : Nat :=
  let (a, b) := common n.mid 1 n.unit k
  let r := a % b
  if 2 * r < b then d else if b < 2 * r then d + 1 else if d % 2 == 0 then d else d + 1

/-- A multiple of `10^k` in the neighbourhood: the nearest to the middle if both neighbours of the
middle belong to it. -/
def Neighbourhood.point? (n : Neighbourhood) (k : Int) : Option Nat :=
  let d := n.floor k
  match n.holds d k && d != 0, n.holds (d + 1) k with
  | true, true => some (n.nearer d k)
  | true, false => some d
  | false, true => some (d + 1)
  | false, false => none

def Neighbourhood.search (n : Neighbourhood) : Nat → Int → Nat × Int
  | 0, k => (n.floor k, k)
  | fuel + 1, k =>
      match n.point? k with
      | some d => (d, k)
      | none => n.search fuel (k - 1)

/-- The digits and the power of ten of the shortest decimal; seventeen digits always suffice, so the
search ends within eighteen steps of the number's leading digit. -/
def shortest (m : Nat) (e : Int) : Nat × Int :=
  let (num, den) := magnitude m e
  let leading : Int :=
    if den ≤ num then ((toString (num / den)).length : Int) else -((toString (den / num)).length : Int) + 1
  (neighbourhood m e).search 24 (leading + 1)

def dropZeros : Nat → Nat → Int → Nat × Int
  | 0, d, k => (d, k)
  | fuel + 1, d, k => if d % 10 == 0 && d != 0 then dropZeros fuel (d / 10) (k + 1) else (d, k)

def exponentText (x : Int) : String :=
  let digits := toString x.natAbs
  (if x < 0 then "e-" else "e+") ++ (if digits.length < 2 then "0" ++ digits else digits)

def decimalText (d : Nat) (k : Int) : String :=
  let digits := (toString d).toList
  let count : Int := digits.length
  let point := count + k
  if -4 < point && point ≤ 16 then
    if point ≤ 0 then "0." ++ String.ofList (List.replicate (-point).toNat '0') ++ String.ofList digits
    else if count ≤ point then
      String.ofList digits ++ String.ofList (List.replicate (point - count).toNat '0') ++ ".0"
    else String.ofList (digits.take point.toNat) ++ "." ++ String.ofList (digits.drop point.toNat)
  else
    match digits with
    | [] => ""
    | [c] => String.singleton c ++ exponentText (point - 1)
    | c :: rest => String.singleton c ++ "." ++ String.ofList rest ++ exponentText (point - 1)

def text : Binary64 → String
  | .nan => "nan"
  | .infinite negative => if negative then "-inf" else "inf"
  | .finite negative m e =>
      let body :=
        if m = 0 then "0.0"
        else
          let (d, k) := shortest m e
          let (d, k) := dropZeros 400 d k
          decimalText d k
      if negative then "-" ++ body else body

end TableSteward.Binary64

import TableSteward.Number.Binary64
import TableSteward.Text.Blank
import TableSteward.Text.Integer

/-!
# Decimal numbers

Exact decimal numbers as a database returns them: a sign, a coefficient and a power of ten, or one of
the special values.  Trailing zeros are significant, so `9.50` and `9.5` are two values.
-/
set_option autoImplicit false

namespace TableSteward

inductive Decimal
  | finite (negative : Bool) (coefficient : Nat) (exponent : Int)
  | infinite (negative : Bool)
  | nan (negative signalling : Bool) (payload : List Char)
  deriving DecidableEq, Repr

namespace Decimal

def takeDigits (cs : List Char) : List Char × List Char :=
  (cs.takeWhile Text.isDigit, cs.dropWhile Text.isDigit)

def readExponent? : List Char → Option Int
  | [] => some 0
  | e :: rest =>
      if e == 'e' || e == 'E' then
        let (negative, rest) := match rest with
          | '-' :: r => (true, r)
          | '+' :: r => (false, r)
          | r => (false, r)
        if !rest.isEmpty && rest.all Text.isDigit then
          let n : Int := Text.digitsValue rest
          some (if negative then -n else n)
        else none
      else none

def readFinite? (negative : Bool) (cs : List Char) : Option Decimal :=
  let (whole, rest) := takeDigits cs
  let (fraction, rest) := match rest with
    | '.' :: r => takeDigits r
    | r => ([], r)
  if whole.isEmpty && fraction.isEmpty then none
  else
    (readExponent? rest).map fun exponent =>
      .finite negative (Text.digitsValue (whole ++ fraction)) (exponent - fraction.length)

def readUnsigned? (negative : Bool) (cs : List Char) : Option Decimal :=
  let word := String.ofList (cs.map Char.toLower)
  if word == "inf" || word == "infinity" then some (.infinite negative)
  else if word.startsWith "nan" && (cs.drop 3).all Text.isDigit then
    some (.nan negative false (cs.drop 3))
  else if word.startsWith "snan" && (cs.drop 4).all Text.isDigit then
    some (.nan negative true (cs.drop 4))
  else readFinite? negative cs

def read? (cs : List Char) : Option Decimal :=
  match cs.filter (· != '_') with
  | '-' :: rest => readUnsigned? true rest
  | '+' :: rest => readUnsigned? false rest
  | cs => readUnsigned? false cs

def ofText? (s : String) : Option Decimal := read? (Text.strip Text.isBlank s.toList)

def signText (negative : Bool) : String := if negative then "-" else ""

/-- The coefficient with its point: no exponent while the exponent is not positive and fewer than six
zeros follow the point, and one digit before the point otherwise. -/
def text : Decimal → String
  | .infinite negative => signText negative ++ "Infinity"
  | .nan negative signalling payload =>
      signText negative ++ (if signalling then "sNaN" else "NaN") ++ String.ofList payload
  | .finite negative coefficient exponent =>
      let digits := (toString coefficient).toList
      let count : Int := digits.length
      let left := exponent + count
      let point : Int := if exponent ≤ 0 && -6 < left then left else 1
      let body :=
        if point ≤ 0 then
          "0." ++ String.ofList (List.replicate (-point).toNat '0') ++ String.ofList digits
        else if count ≤ point then
          String.ofList digits ++ String.ofList (List.replicate (point - count).toNat '0')
        else String.ofList (digits.take point.toNat) ++ "." ++ String.ofList (digits.drop point.toNat)
      let shift := left - point
      let tail := if shift = 0 then "" else "E" ++ (if shift < 0 then "" else "+") ++ toString shift
      signText negative ++ body ++ tail

def toBinary64? : Decimal → Option Binary64
  | .finite negative coefficient exponent => some (Binary64.ofDecimal negative coefficient exponent)
  | .infinite negative => some (.infinite negative)
  | .nan _ signalling _ => if signalling then none else some .nan

def isZero : Decimal → Bool
  | .finite _ coefficient _ => coefficient == 0
  | _ => false

def truncate? : Decimal → Option Int
  | .finite negative coefficient exponent =>
      let n : Int :=
        if 0 ≤ exponent then (coefficient * powerOfTen exponent.toNat : Nat)
        else (coefficient / powerOfTen (-exponent).toNat : Nat)
      some (if negative then -n else n)
  | _ => none

end Decimal

/-- The binary64 number written by a text: a decimal, `inf`, `infinity` or `nan` in any case.  A single
underscore may stand between two digits only. -/
def Binary64.ofText? (s : String) : Option Binary64 :=
  let cs := Text.strip Text.isSpacing s.toList
  let rec spaced : Bool → List Char → Bool
    | before, '_' :: c :: rest => before && Text.isDigit c && spaced true rest
    | _, ['_'] => false
    | _, c :: rest => spaced (Text.isDigit c) rest
    | _, [] => true
  if spaced false cs then
    match Decimal.read? cs with
    | some (.nan _ false []) => some .nan
    | some (.nan ..) => none
    | some d => d.toBinary64?
    | none => none
  else none

end TableSteward

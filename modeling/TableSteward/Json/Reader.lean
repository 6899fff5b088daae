import TableSteward.Value

/-!
# Reading documents in JSON

`Json.read` reads a whole text as one value.  Blanks are spaces, tabs and line ends only; `NaN`, `Infinity`
and `-Infinity` are numbers; of equal keys the last counts.  A text that is no document is refused with the
position at which reading stopped.  An integer of more than `Text.maxDigits` digits and nesting beyond
`deepest` levels are refused as such.
-/
set_option autoImplicit false

namespace TableSteward.Json

inductive Fault
  | malformed (position : Nat)
  | tooManyDigits
  | tooDeep
  deriving DecidableEq, Repr

structure Cursor where
  position : Nat
  rest : List Char

def isSpace (c : Char) : Bool := c == ' ' || c == '\t' || c == '\n' || c == '\r'

namespace Cursor

def advance (c : Cursor) (n : Nat) : Cursor := ⟨c.position + n, c.rest.drop n⟩

def skipSpace (c : Cursor) : Cursor := c.advance (c.rest.takeWhile isSpace).length

def stop {α : Type} (c : Cursor) : Except Fault α := .error (.malformed c.position)

end Cursor

/-! ## Strings -/

def escaped? : Char → Option Char
  | '"' => some '"'
  | '\\' => some '\\'
  | '/' => some '/'
  | 'b' => some (Char.ofNat 8)
  | 'f' => some (Char.ofNat 12)
  | 'n' => some '\n'
  | 'r' => some '\r'
  | 't' => some '\t'
  | _ => none

def hexQuad? (a b c d : Char) : Option Nat := do
  let w ← Text.hexValue? a
  let x ← Text.hexValue? b
  let y ← Text.hexValue? c
  let z ← Text.hexValue? d
  return ((w * 16 + x) * 16 + y) * 16 + z

/-- The code units of a string up to its closing quote, and the place behind it.  `opening` is the position
of the opening quote. -/
def stringUnits (opening : Nat) : Nat → List Char → Except Fault (List Nat × Cursor)
  | _, [] => .error (.malformed opening)
  | position, '"' :: rest => .ok ([], ⟨position + 1, rest⟩)
  | _, ['\\'] => .error (.malformed opening)
  | position, '\\' :: 'u' :: a :: b :: c :: d :: e :: rest =>
      match hexQuad? a b c d with
      | none => .error (.malformed (position + 1))
      | some unit => do
          let (units, after) ← stringUnits opening (position + 6) (e :: rest)
          return (unit :: units, after)
  | position, '\\' :: 'u' :: _ => .error (.malformed (position + 1))
  | position, '\\' :: c :: rest =>
      match escaped? c with
      | none => .error (.malformed position)
      | some char => do
          let (units, after) ← stringUnits opening (position + 2) rest
          return (char.toNat :: units, after)
  | position, c :: rest =>
      if c.toNat < 0x20 then .error (.malformed position)
      else do
        let (units, after) ← stringUnits opening (position + 1) rest
        return (c.toNat :: units, after)

def string (c : Cursor) : Except Fault (String × Cursor) := do
  let (units, after) ← stringUnits (c.position - 1) c.position c.rest
  return (String.ofList (Text.joinUnits units), after)

/-! ## Numbers -/

def digitRun (cs : List Char) : List Char := cs.takeWhile Char.isDigit

def fractionDigits : List Char → List Char
  | '.' :: rest => digitRun rest
  | _ => []

/-- The value of an exponent and its length; an `e` without digits is not an exponent. -/
def exponentPart : List Char → Option (Int × Nat)
  | e :: rest =>
      if e == 'e' || e == 'E' then
        let (negative, sign, rest) := match rest with
          | '-' :: r => (true, 1, r)
          | '+' :: r => (false, 1, r)
          | r => (false, 0, r)
        let digits := digitRun rest
        if digits.isEmpty then none
        else
          let n : Int := Text.digitsValue digits
          some (if negative then -n else n, 1 + sign + digits.length)
      else none
  | [] => none

def wholeDigits : List Char → List Char
  | '0' :: _ => ['0']
  | cs => digitRun cs

def number (c : Cursor) : Except Fault (Value × Cursor) :=
  let negative := c.rest.head? == some '-'
  let start := if negative then c.advance 1 else c
  let whole := wholeDigits start.rest
  if whole.isEmpty then c.stop
  else
    let afterWhole := start.advance whole.length
    let fraction := fractionDigits afterWhole.rest
    let afterFraction :=
      if fraction.isEmpty then afterWhole else afterWhole.advance (1 + fraction.length)
    match exponentPart afterFraction.rest, fraction with
    | none, [] =>
        if Text.maxDigits < whole.length then .error .tooManyDigits
        else
          let n : Int := Text.digitsValue whole
          .ok (.int (if negative then -n else n), afterWhole)
    | exponent, fraction =>
        let (power, length) := exponent.getD (0, 0)
        .ok (.real (Binary64.ofDecimal negative (Text.digitsValue (whole ++ fraction))
              (power - (fraction.length : Int))), afterFraction.advance length)

/-! ## Values -/

def constants : List (String × Value) :=
  [("null", .null), ("true", .bool true), ("false", .bool false), ("NaN", .real .nan),
   ("Infinity", .real (.infinite false)), ("-Infinity", .real (.infinite true))]

def constant? (cs : List Char) : Option (Value × Nat) :=
  (constants.find? fun (name, _) => name.toList.isPrefixOf cs).map fun (name, v) => (v, name.length)

def deepest : Nat := 985

mutual

/-- A value from its first character, with room for some levels of nesting.  Each level and each item uses
one unit of fuel. -/
def value (room : Nat) : Nat → Cursor → Except Fault (Value × Cursor)
  | 0, c => c.stop
  | fuel + 1, c =>
      match c.rest, room with
      | '"' :: _, _ => do
          let (s, after) ← string (c.advance 1)
          return (.text s, after)
      | '\x7b' :: _, 0 | '[' :: _, 0 => .error .tooDeep
      | '\x7b' :: _, room + 1 =>
          let inside := (c.advance 1).skipSpace
          match inside.rest with
          | '\x7d' :: _ => .ok (.dict [], inside.advance 1)
          | _ => do
              let (entries, after) ← members room fuel inside
              return (.dict (Entries.ofPairs entries), after)
      | '[' :: _, room + 1 =>
          let inside := (c.advance 1).skipSpace
          match inside.rest with
          | ']' :: _ => .ok (.list [], inside.advance 1)
          | _ => do
              let (items, after) ← elements room fuel inside
              return (.list items, after)
      | cs, _ =>
          match constant? cs with
          | some (v, length) => .ok (v, c.advance length)
          | none => number c

def members (room : Nat) : Nat → Cursor → Except Fault (List (String × Value) × Cursor)
  | 0, c => c.stop
  | fuel + 1, c =>
      match c.rest with
      | '"' :: _ => do
          let (key, c) ← string (c.advance 1)
          let c := c.skipSpace
          match c.rest with
          | ':' :: _ =>
              let (v, c) ← value room fuel (c.advance 1).skipSpace
              let c := c.skipSpace
              match c.rest with
              | '\x7d' :: _ => .ok ([(key, v)], c.advance 1)
              | ',' :: _ => do
                  let (entries, after) ← members room fuel (c.advance 1).skipSpace
                  return ((key, v) :: entries, after)
              | _ => c.stop
          | _ => c.stop
      | _ => c.stop

def elements (room : Nat) : Nat → Cursor → Except Fault (List Value × Cursor)
  | 0, c => c.stop
  | fuel + 1, c => do
      let (v, c) ← value room fuel c
      let c := c.skipSpace
      match c.rest with
      | ']' :: _ => .ok ([v], c.advance 1)
      | ',' :: _ => do
          let (items, after) ← elements room fuel (c.advance 1).skipSpace
          return (v :: items, after)
      | _ => c.stop

end

def byteOrderMark : Char := Char.ofNat 0xFEFF

def read (s : String) : Except Fault Value :=
  let cs := s.toList
  if cs.head? == some byteOrderMark then .error (.malformed 0)
  else do
    -- every unit of fuel that is used up goes with a character that is read
    let (v, after) ← value deepest (2 * cs.length + 2) (Cursor.skipSpace ⟨0, cs⟩)
    let after := after.skipSpace
    if after.rest.isEmpty then .ok v else after.stop

end TableSteward.Json

import TableSteward.Document.Issue

/-!
# Checked documents

`Checked α` is a value of type `α`, or all the issues that stand in its way, in order.  Parts are combined
with the applicative operators, which collect the issues of every part; `Record` reads the fields of a
dictionary, each under one of the names it may have.
-/
set_option autoImplicit false

namespace TableSteward

inductive Checked (α : Type)
  | ok (a : α)
  | wrong (issues : List Issue)

namespace Checked

variable {α β : Type}

def map (f : α → β) : Checked α → Checked β
  | ok a => ok (f a)
  | wrong is => wrong is

/-- Both parts, or the issues of both. -/
def both : Checked (α → β) → Checked α → Checked β
  | ok f, ok a => ok (f a)
  | ok _, wrong is => wrong is
  | wrong is, ok _ => wrong is
  | wrong is, wrong js => wrong (is ++ js)

instance : Applicative Checked where
  pure := ok
  seq f x := both f (x ())
  map := map

def complain (c : Complaint) : Checked α := wrong [⟨[], c⟩]

def within (step : PathStep) : Checked α → Checked α
  | ok a => ok a
  | wrong is => wrong (is.map (Issue.within step))

def itemsFrom (check : Value → Checked α) : Nat → List Value → Checked (List α)
  | _, [] => ok []
  | i, v :: rest => (· :: ·) <$> within (.item i) (check v) <*> itemsFrom check (i + 1) rest

def items (check : Value → Checked α) (vs : List Value) : Checked (List α) := itemsFrom check 0 vs

def entries (check : Value → Checked α) : List (String × Value) → Checked (List (String × α))
  | [] => ok []
  | (key, v) :: rest =>
      (fun a as => (key, a) :: as) <$> within (.field key) (check v) <*> entries check rest

/-! ## Fields -/

/-- The first of the names that the dictionary has, and its value. -/
def findField (fields : List (String × Value)) : List String → Option (String × Value)
  | [] => none
  | name :: rest =>
      match List.lookup name fields with
      | some v => some (name, v)
      | none => findField fields rest

/-- A field that must be there, under one of its names; a missing one is reported under the first. -/
def required (fields : List (String × Value)) (names : List String) (check : Value → Checked α) :
    Checked α :=
  match findField fields names with
  | some (name, v) => within (.field name) (check v)
  | none => within (.field (names.headD "")) (complain .missing)

def withDefault (fields : List (String × Value)) (names : List String) (default : α)
    (check : Value → Checked α) : Checked α :=
  match findField fields names with
  | some (name, v) => within (.field name) (check v)
  | none => ok default

/-! ## Kinds of values -/

def any (v : Value) : Checked Value := ok v

def text : Value → Checked String
  | .text s => ok s
  | _ => complain .notText

def optional (check : Value → Checked α) : Value → Checked (Option α)
  | .null => ok none
  | v => some <$> check v

def list (check : Value → Checked α) : Value → Checked (List α)
  | .list vs => items check vs
  | _ => complain .notList

def dict : Value → Checked (Entries Value)
  | .dict es => ok es
  | _ => complain .notDict

def record (name : String) (fields : List (String × Value) → Checked α) : Value → Checked α
  | .dict es => fields es
  | _ => complain (.notRecord name)

def truthOf? (s : String) : Option Bool :=
  let word := String.ofList (s.toList.map Char.toLower)
  if ["1", "on", "t", "true", "y", "yes"].contains word then some true
  else if ["0", "off", "f", "false", "n", "no"].contains word then some false
  else none

def truthOfInt? (n : Int) : Option Bool :=
  if n = 1 then some true else if n = 0 then some false else none

def ofOption (c : Complaint) : Option α → Checked α
  | some a => ok a
  | none => complain c

def isMachineInt (n : Int) : Bool := -(powerOfTwo 63 : Int) ≤ n && n < (powerOfTwo 63 : Int)

def truth : Value → Checked Bool
  | .bool b => ok b
  | .text s => ofOption .unclearTruthValue (truthOf? s)
  | .int n => if isMachineInt n then ofOption .unclearTruthValue (truthOfInt? n) else complain .notTruthValue
  | .real x =>
      match x.isInteger, x.truncate? with
      | true, some n =>
          if n.natAbs < powerOfTwo 63 then ofOption .unclearTruthValue (truthOfInt? n)
          else complain .notTruthValue
      | _, _ => complain .notTruthValue
  | _ => complain .notTruthValue

/-! ## Integers in texts -/

def isLeading (c : Char) : Bool := c == '-' || (c.isDigit && c != '0')

/-- What follows the zeros at the front, `last` being the character before.  A zero stays where nothing else
stands before a point or the end, and anything but a digit or a sign behind zeros is no integer. -/
def behindZeros? (last : Char) : List Char → Option (List Char)
  | [] => some [last]
  | c :: rest =>
      if c == '0' || c == '_' then behindZeros? c rest
      else if isLeading c then some (c :: rest)
      else if c == '.' then some (last :: c :: rest)
      else none

def withoutZeros? : List Char → Option (List Char)
  | [] => none
  | c :: rest =>
      if c == '0' then behindZeros? c rest
      else if isLeading c then some (c :: rest)
      else none

def dropZeroFraction (cs : List Char) : List Char :=
  let whole := cs.takeWhile (· != '.')
  match cs.dropWhile (· != '.') with
  | '.' :: '0' :: zeros => if zeros.all (· == '0') then whole else cs
  | _ => cs

def dropUnderscores? (cs : List Char) : Option (List Char) :=
  let pieces := Text.splitOn '_' cs
  if pieces.any List.isEmpty then none else some pieces.flatten

/-- The sign of an integer, and its digits without blanks, underscores and a fraction of zeros. -/
def signedDigits? (s : String) : Option (Bool × List Char) := do
  let cs ← withoutZeros? <|
    match Text.strip Text.isSpacing s.toList with
    | '+' :: '-' :: _ => []
    | '+' :: rest => rest
    | rest => rest
  let cs ← dropUnderscores? (dropZeroFraction cs)
  let (negative, digits) := match cs with
    | '-' :: rest => (true, rest)
    | rest => (false, rest)
  if digits.isEmpty || digits.any (!·.isDigit) then none else some (negative, digits)

/-- An integer in a text: spacing around it, a sign, underscores between digits and a fraction of zeros are
accepted. -/
def integerText (s : String) : Checked Int :=
  match signedDigits? s with
  | none => complain .unclearInteger
  | some (negative, digits) =>
      if Text.maxDigits < digits.length then complain .tooManyDigits
      else
        let n : Int := Text.digitsValue digits
        ok (if negative then -n else n)

def integer : Value → Checked Int
  | .int n => ok n
  | .bool b => ok (if b then 1 else 0)
  | .real x =>
      match x.truncate? with
      | none => complain .notFinite
      | some n =>
          if !x.isInteger then complain .fractional
          else if n.natAbs < powerOfTwo 63 then ok n
          else complain .tooManyDigits
  | .text s => integerText s
  | _ => complain .notInteger

end Checked

end TableSteward

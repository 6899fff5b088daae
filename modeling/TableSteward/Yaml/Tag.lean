import TableSteward.Yaml.Cursor
import TableSteward.Yaml.Moment

/-!
# YAML tags

A tag says what kind of value a node stands for.  `Tag.ofPlain` is the tag of a plain scalar without one: null,
a truth value, an integer, a real number, a day or a moment if it has the form of one, and a text otherwise.
Integers may be written in base two, eight, ten, sixteen or sixty, with underscores between the digits; the
exponent of a real number needs a sign.
-/
set_option autoImplicit false

namespace TableSteward.Yaml

inductive Tag
  | null
  | bool
  | int
  | real
  | binary
  | moment
  | orderedMap
  | pairs
  | set
  | text
  | list
  | dict
  | merge
  | default
  | other
  deriving DecidableEq, Repr

namespace Tag

def base : String := "tag:yaml.org,2002:"

def names : List (String × Tag) :=
  [("null", null), ("bool", bool), ("int", int), ("float", real), ("binary", binary),
   ("timestamp", moment), ("omap", orderedMap), ("pairs", pairs), ("set", set), ("str", text),
   ("seq", list), ("map", dict), ("merge", merge), ("value", default)]

def ofUri (uri : String) : Tag :=
  match names.find? fun (name, _) => base ++ name == uri with
  | some (_, tag) => tag
  | none => other

/-! ## Forms of plain scalars -/

def nulls : List String := ["", "~", "null", "Null", "NULL"]

def truths : List String :=
  ["yes", "Yes", "YES", "no", "No", "NO", "true", "True", "TRUE", "false", "False", "FALSE", "on", "On", "ON",
   "off", "Off", "OFF"]

def infinities : List String := [".inf", ".Inf", ".INF"]

def notNumbers : List String := [".nan", ".NaN", ".NAN"]

/-- Marks that no plain scalar begins with; a scalar that consists of one is of no known kind. -/
def indicators : List String := ["!", "&", "*"]

def withoutSign : List Char → List Char
  | '-' :: rest => rest
  | '+' :: rest => rest
  | cs => cs

def isRun (digit : Char → Bool) (cs : List Char) : Bool :=
  !cs.isEmpty && cs.all fun c => digit c || c == '_'

def isDecimalRun (cs : List Char) : Bool := cs.head?.any Char.isDigit && isRun Char.isDigit cs

def isSexagesimal (cs : List Char) : Bool :=
  match cs with
  | [c] => c.isDigit
  | [a, b] => '0' ≤ a && a ≤ '5' && b.isDigit
  | _ => false

def isBaseSixty (cs : List Char) : Bool :=
  match Text.splitOn ':' cs with
  | first :: others => isDecimalRun first && others.all isSexagesimal
  | [] => false

def isInteger (cs : List Char) : Bool :=
  match withoutSign cs with
  | ['0'] => true
  | '0' :: 'b' :: rest => isRun (fun c => c == '0' || c == '1') rest
  | '0' :: 'x' :: rest => isRun (fun c => (Text.hexValue? c).isSome) rest
  | '0' :: rest => isRun (fun c => '0' ≤ c && c ≤ '7') rest
  | cs => isBaseSixty cs

def isExponent : List Char → Bool
  | [] => true
  | e :: sign :: digits =>
      (e == 'e' || e == 'E') && (sign == '-' || sign == '+') && !digits.isEmpty && digits.all Char.isDigit
  | _ => false

/-- A number with a point; one without digits before it has no sign and some digits behind it. -/
def isReal (cs : List Char) : Bool :=
  let inRun (c : Char) : Bool := c.isDigit || c == '_'
  let unsigned := withoutSign cs
  let behind := (unsigned.dropWhile (· != '.')).drop 1
  let exponent := behind.dropWhile inRun
  let whole := unsigned.takeWhile (· != '.')
  if !unsigned.contains '.' then false
  else if infinities.contains (String.ofList unsigned) || notNumbers.contains (String.ofList cs) then true
  else if whole.isEmpty then
    unsigned.length == cs.length && isDecimalRun (behind.takeWhile inRun) && isExponent exponent
  else if whole.contains ':' then isBaseSixty whole && exponent.isEmpty
  else isDecimalRun whole && isExponent exponent

def mergeMark : String := "<<"

def defaultMark : String := "="

/-- The tag of a scalar by its form.  A line end at its end does not count. -/
def ofPlain (s : String) : Tag :=
  let body := if s == "\n" then s else String.ofList (withoutFinalBreak s.toList)
  let cs := body.toList
  if truths.contains body then bool
  else if isReal cs then real
  else if isInteger cs then int
  else if body == mergeMark then merge
  else if nulls.contains body then null
  else if isPlainMoment cs then moment
  else if body == defaultMark then default
  else if indicators.contains body then other
  else text

end Tag

end TableSteward.Yaml

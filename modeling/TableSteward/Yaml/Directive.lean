import TableSteward.Fault
import TableSteward.Text.Encoding
import TableSteward.Text.Quoted
import TableSteward.Yaml.Cursor

/-!
# Names, tags and directives

The marks before the content of a node: the name of an anchor or of an alias, and a tag.  A tag is written as
a handle and a suffix; the directives before a document say what a handle stands for.
-/
set_option autoImplicit false

namespace TableSteward.Yaml

/-- A tag as it is written; one without a handle is complete. -/
structure TagMark where
  handle : Option String
  suffix : String
  deriving DecidableEq, Repr

inductive Directive
  | version (major minor : Nat)
  | handle (name uri : String)
  | reserved
  deriving DecidableEq, Repr

def isNameChar (c : Char) : Bool := c.isAlphanum || c == '-' || c == '_'

def isWordEnd : Option Char → Bool
  | none => true
  | some c => c == ' ' || isBreak c

/-- The name of an anchor or an alias, and something behind it that ends it. -/
def name (c : Cursor) : Result (String × Cursor) :=
  let (cs, c) := c.step.takeWhile isNameChar
  if cs.isEmpty then .error .unreadableToken
  else if isGap c.here || c.here.any fun ch => "?:,]\x7d%@\x60".toList.contains ch then
    .ok (String.ofList cs, c)
  else .error .unreadableToken

/-! ## Tags -/

def isUriChar (c : Char) : Bool :=
  c.isAlphanum || "-;/?:@&=+$,_.!~*()[]".toList.contains c || c == Text.singleQuote

def percentBytes : Nat → Cursor → Result (List UInt8 × Cursor)
  | 0, c => .ok ([], c)
  | fuel + 1, c =>
      match c.rest with
      | '%' :: a :: b :: _ =>
          match Text.hexValue? a, Text.hexValue? b with
          | some x, some y => do
              let (others, c) ← percentBytes fuel (c.advance 3)
              return (UInt8.ofNat (16 * x + y) :: others, c)
          | _, _ => .error .unreadableToken
      | '%' :: _ => .error .unreadableToken
      | _ => .ok ([], c)

def uriPieces : Nat → Cursor → Result (List Char × Cursor)
  | 0, c => .ok ([], c)
  | fuel + 1, c =>
      match c.here with
      | none => .ok ([], c)
      | some ch =>
          if isUriChar ch then do
            let (others, c) ← uriPieces fuel c.step
            return (ch :: others, c)
          else if ch == '%' then do
            let (bytes, c) ← percentBytes (c.rest.length + 1) c
            match Text.decode? bytes with
            | some cs => do
                let (others, c) ← uriPieces fuel c
                return (cs ++ others, c)
            | none => .error .unreadableToken
          else .ok ([], c)

def uri (c : Cursor) : Result (String × Cursor) := do
  let (cs, d) ← uriPieces (c.rest.length + 1) c
  if d.index == c.index then .error .unreadableToken else return (String.ofList cs, d)

/-- A handle: one mark, or a name between two marks. -/
def handle (c : Cursor) : Result (String × Cursor) :=
  match c.rest with
  | '!' :: ' ' :: _ => .ok ("!", c.step)
  | '!' :: rest =>
      let word := rest.takeWhile isNameChar
      match rest.drop word.length with
      | '!' :: _ => .ok (String.ofList ('!' :: word ++ ['!']), c.advance (word.length + 2))
      | _ => .error .unreadableToken
  | _ => .error .unreadableToken

def hasHandle (c : Cursor) : Bool :=
  (c.step.rest.takeWhile fun ch => !isWordEnd (some ch)).contains '!'

def verbatimTag (c : Cursor) : Result (TagMark × Cursor) := do
  let (suffix, c) ← uri (c.advance 2)
  if c.here == some '>' then return (⟨none, suffix⟩, c.step) else throw .unreadableToken

def shortTag (c : Cursor) : Result (TagMark × Cursor) := do
  let (handle, c) ← if hasHandle c then handle c else .ok ("!", c.step)
  let (suffix, c) ← uri c
  return (⟨some handle, suffix⟩, c)

def tagMark (c : Cursor) : Result (TagMark × Cursor) := do
  let (mark, c) ←
    if c.peek 1 == some '<' then verbatimTag c
    else if isGap (c.peek 1) then .ok (⟨none, "!"⟩, c.step)
    else shortTag c
  if isWordEnd c.here then return (mark, c) else throw .unreadableToken

/-! ## Directives -/

def versionNumber (c : Cursor) : Result (Nat × Cursor) :=
  let (digits, c) := c.takeWhile Char.isDigit
  if digits.isEmpty then .error .unreadableToken
  else if Text.maxDigits < digits.length then .error .unreadableNumber
  else .ok (Text.digitsValue digits, c)

def version (c : Cursor) : Result (Directive × Cursor) := do
  let (major, c) ← versionNumber c.skipBlanks
  if c.here != some '.' then throw .unreadableToken
  let (minor, c) ← versionNumber c.step
  if isWordEnd c.here then return (.version major minor, c) else .error .unreadableToken

def handleMeaning (c : Cursor) : Result (Directive × Cursor) := do
  let (handle, c) ← handle c.skipBlanks
  if c.here != some ' ' then throw .unreadableToken
  let (uri, c) ← uri c.skipBlanks
  if isWordEnd c.here then return (.handle handle uri, c) else .error .unreadableToken

def restOfLine (c : Cursor) : Result Cursor :=
  let c := c.skipBlanks
  let c := if c.here == some '#' then (c.takeWhile fun ch => !isBreak ch).2 else c
  if isLineEnd c.here then .ok c.lineBreak.2 else .error .unreadableToken

def directive (c : Cursor) : Result (Directive × Cursor) := do
  let (word, c) := c.step.takeWhile isNameChar
  if word.isEmpty || !isWordEnd c.here then throw .unreadableToken
  let (d, c) ←
    match String.ofList word with
    | "YAML" => version c
    | "TAG" => handleMeaning c
    | _ => Except.ok (Directive.reserved, (c.takeWhile fun ch => !isBreak ch).2)
  return (d, ← restOfLine c)

end TableSteward.Yaml

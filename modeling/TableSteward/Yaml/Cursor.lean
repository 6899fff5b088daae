/-!
# Places in a YAML text

A cursor stands before the rest of a text and knows its line and its column.  Lines end at the line feed and
at three other characters; a text in which carriage returns end lines is brought into this form first.
-/
set_option autoImplicit false

namespace TableSteward.Yaml

structure Cursor where
  rest : List Char
  index : Nat := 0
  line : Nat := 0
  column : Nat := 0
  deriving Repr

def isSeparator (c : Char) : Bool := c.toNat == 0x2028 || c.toNat == 0x2029

def isBreak (c : Char) : Bool := c == '\n' || c.toNat == 0x85 || isSeparator c

def isGapChar (c : Char) : Bool := c == ' ' || c == '\t' || isBreak c

def isGap : Option Char → Bool
  | none => true
  | some c => isGapChar c

def isLineEnd : Option Char → Bool
  | none => true
  | some c => isBreak c

def withoutFinalBreak (cs : List Char) : List Char :=
  if cs.getLast? == some '\n' then cs.dropLast else cs

namespace Cursor

def peek (c : Cursor) (n : Nat) : Option Char := c.rest[n]?

def here (c : Cursor) : Option Char := c.rest.head?

def byteOrderMark : Char := Char.ofNat 0xFEFF

def step (c : Cursor) : Cursor :=
  match c.rest with
  | [] => c
  | ch :: rest =>
      if isBreak ch then ⟨rest, c.index + 1, c.line + 1, 0⟩
      else ⟨rest, c.index + 1, c.line, if ch == byteOrderMark then c.column else c.column + 1⟩

def advance : Nat → Cursor → Cursor
  | 0, c => c
  | n + 1, c => advance n c.step

def takeWhile (p : Char → Bool) (c : Cursor) : List Char × Cursor :=
  let cs := c.rest.takeWhile p
  (cs, c.advance cs.length)

def skipBlanks (c : Cursor) : Cursor := (c.takeWhile (· == ' ')).2

def lineBreak (c : Cursor) : List Char × Cursor :=
  match c.rest with
  | ch :: _ =>
      if isSeparator ch then ([ch], c.step)
      else if isBreak ch then (['\n'], c.step)
      else ([], c)
  | [] => ([], c)

def isMarker (mark : Char) (c : Cursor) : Bool :=
  match c.rest with
  | x :: y :: z :: rest => x == mark && y == mark && z == mark && isGap rest.head?
  | _ => false

def isDocumentMarker (c : Cursor) : Bool := c.isMarker '-' || c.isMarker '.'

end Cursor

/-- The break of a folded line: a blank for a single line feed, otherwise the breaks behind the first. -/
def foldedBreak (first : List Char) (others : List Char) : List Char :=
  if first != ['\n'] then first ++ others
  else if others.isEmpty then [' ']
  else others

end TableSteward.Yaml

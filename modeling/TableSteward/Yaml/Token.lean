import TableSteward.Yaml.Block
import TableSteward.Yaml.Flow

/-!
# YAML tokens

The tokens of a text.  Nesting by indentation becomes tokens of its own: a token opens a mapping or a
sequence when a deeper column is reached and another closes it when it is left.

Whether something is a key shows only at the colon behind it.  Each token that could begin a key has an
entry under its number until a colon makes it one, or until its line is over; a token that was made a key is
preceded by a key mark when the tokens are put in line.
-/
set_option autoImplicit false

namespace TableSteward.Yaml

inductive Token
  | directive (d : Directive)
  | documentStart
  | documentEnd
  | sequenceStart
  | mappingStart
  | blockEnd
  | openList
  | closeList
  | openDict
  | closeDict
  | item
  | comma
  | key
  | value
  | reference (name : String)
  | anchor (name : String)
  | tag (mark : TagMark)
  | scalar (text : String) (isPlain : Bool)
  | streamEnd
  deriving DecidableEq, Repr

inductive Opening
  | nothing
  | key
  | mapping
  deriving DecidableEq, Repr

structure KeyPlace where
  token : Nat
  required : Bool
  index : Nat
  line : Nat
  column : Nat
  deriving Repr

structure Layout where
  cursor : Cursor
  tokens : Array (Token × Opening) := #[]
  depth : Int := 0
  indent : Int := -1
  outer : List Int := []
  keyAllowed : Bool := true
  places : List (Int × KeyPlace) := []
  limit : Option Nat := none

namespace Layout

def inFlow (s : Layout) : Bool := s.depth != 0

def push (s : Layout) (t : Token) : Layout := { s with tokens := s.tokens.push (t, .nothing) }

def moveTo (s : Layout) (c : Cursor) : Layout := { s with cursor := c }

def allow (s : Layout) (b : Bool) : Layout := { s with keyAllowed := b }

/-- A key spans no lines and not more than this. -/
def longestKey : Nat := 1024

def isStale (c : Cursor) (p : KeyPlace) : Bool := p.line != c.line || longestKey < c.index - p.index

def dropStale (s : Layout) : Result Layout :=
  if s.places.any fun e => isStale s.cursor e.2 && e.2.required then .error .unreadableToken
  else .ok { s with places := s.places.filter fun e => !isStale s.cursor e.2 }

/-- Blocks that are indented more deeply than a column are closed. -/
def closeBlocksFrom (column : Int) : List Int → Layout → Layout
  | [], s => s
  | indent :: outer, s =>
      if column < s.indent then
        closeBlocksFrom column outer { s.push .blockEnd with indent := indent, outer := outer }
      else s

def closeBlocks (s : Layout) (column : Int) : Layout :=
  if s.inFlow then s else closeBlocksFrom column s.outer s

def openBlock (s : Layout) (column : Int) : Option Layout :=
  if s.indent < column then some { s with indent := column, outer := s.indent :: s.outer } else none

/-- The place of a key on this level of brackets is given up; it may not be required. -/
def dropPlace (s : Layout) : Result Layout :=
  match s.places.lookup s.depth with
  | some p =>
      if p.required then .error .unreadableToken
      else .ok { s with places := s.places.filter fun e => e.1 != s.depth }
  | none => .ok s

def savePlace (s : Layout) : Result Layout :=
  if s.keyAllowed then do
    let s ← s.dropPlace
    let c := s.cursor
    let required := !s.inFlow && s.indent == (c.column : Int)
    let place := ⟨s.tokens.size, required, c.index, c.line, c.column⟩
    return { s with places := (s.depth, place) :: s.places }
  else .ok s

def skipComment (c : Cursor) : Cursor :=
  if c.here == some '#' then (c.takeWhile fun ch => !isBreak ch).2 else c

def skipToToken : Nat → Layout → Layout
  | 0, s => s
  | fuel + 1, s =>
      let c := skipComment s.cursor.skipBlanks
      match c.lineBreak with
      | ([], _) => s.moveTo c
      | (_, c) => skipToToken fuel ((s.moveTo c).allow (s.keyAllowed || !s.inFlow))

/-! ## The kinds of tokens -/

def atEnd (s : Layout) : Result Layout := do
  let s ← (s.closeBlocks (-1)).dropPlace
  return { s.push .streamEnd with places := [] }

def marker (s : Layout) (t : Token) (width : Nat) : Result Layout := do
  let s ← (s.closeBlocks (-1)).dropPlace
  return ((s.allow false).push t).moveTo (s.cursor.advance width)

def directive (s : Layout) : Result Layout := do
  let s ← (s.closeBlocks (-1)).dropPlace
  let (d, c) ← Yaml.directive s.cursor
  return ((s.allow false).push (.directive d)).moveTo c

def openBracket (s : Layout) (t : Token) : Result Layout := do
  let s ← s.savePlace
  return { (s.allow true).push t with depth := s.depth + 1, cursor := s.cursor.step }

def closeBracket (s : Layout) (t : Token) : Result Layout := do
  let s ← s.dropPlace
  return { (s.allow false).push t with depth := s.depth - 1, cursor := s.cursor.step }

def comma (s : Layout) : Result Layout := do
  let s ← (s.allow true).dropPlace
  return (s.push .comma).moveTo s.cursor.step

/-- A block is opened where a mark stands, if it is not open yet; brackets hold no blocks. -/
def openAt (s : Layout) (t : Token) : Result Layout :=
  if s.inFlow then .ok s
  else if !s.keyAllowed then .error .unreadableToken
  else
    match s.openBlock s.cursor.column with
    | some s => .ok (s.push t)
    | none => .ok s

def item (s : Layout) : Result Layout := do
  let s ← s.openAt .sequenceStart
  let s ← (s.allow true).dropPlace
  return (s.push .item).moveTo s.cursor.step

def explicitKey (s : Layout) : Result Layout := do
  let s ← s.openAt .mappingStart
  let s ← (s.allow !s.inFlow).dropPlace
  return (s.push .key).moveTo s.cursor.step

def open_ (s : Layout) (token : Nat) (o : Opening) : Layout :=
  { s with tokens := s.tokens.modify token fun e => (e.1, o) }

/-- A colon: it makes a key of the place on this level, or stands behind no key at all. -/
def colon (s : Layout) : Result Layout :=
  match s.places.lookup s.depth with
  | some p =>
      let s := { s with places := s.places.filter fun e => e.1 != s.depth }
      let s :=
        match if s.inFlow then none else s.openBlock p.column with
        | some s => s.open_ p.token .mapping
        | none => s.open_ p.token .key
      .ok (((s.allow false).push .value).moveTo s.cursor.step)
  | none => do
      let s ← s.openAt .mappingStart
      let s ← (s.allow !s.inFlow).dropPlace
      return (s.push .value).moveTo s.cursor.step

def named (s : Layout) (token : String → Token) : Result Layout := do
  let s ← s.savePlace
  let (name, c) ← Yaml.name s.cursor
  return ((s.allow false).push (token name)).moveTo c

def tagged (s : Layout) : Result Layout := do
  let s ← s.savePlace
  let (mark, c) ← tagMark s.cursor
  return ((s.allow false).push (.tag mark)).moveTo c

def block (s : Layout) (folded : Bool) : Result Layout := do
  let s ← (s.allow true).dropPlace
  let (text, c) ← blockScalar folded s.indent s.cursor
  return (s.push (.scalar text false)).moveTo c

def quotedScalar (s : Layout) (quote : Char) : Result Layout := do
  let s ← s.savePlace
  let (text, c) ← Yaml.quoted quote s.cursor
  return ((s.allow false).push (.scalar text false)).moveTo c

def plainScalar (s : Layout) : Result Layout := do
  let s ← s.savePlace
  let (text, ended, c) := plain s.inFlow (s.indent + 1) s.cursor
  return ((s.allow ended).push (.scalar text true)).moveTo c

def reserved : List Char := "-?:,[]\x7b\x7d#&*!|>\"%@\x60".toList ++ [Text.singleQuote]

def startsPlain (s : Layout) (ch : Char) : Bool :=
  (!isGapChar ch && !reserved.contains ch) ||
  (!isGap (s.cursor.peek 1) && (ch == '-' || (!s.inFlow && (ch == '?' || ch == ':'))))

/-! ## All tokens -/

def token (s : Layout) (ch : Char) : Result Layout :=
  let c := s.cursor
  let lineStart := c.column == 0
  let alone := isGap (c.peek 1)
  if ch == '%' && lineStart then s.directive
  else if lineStart && c.isMarker '-' then s.marker .documentStart 3
  else if lineStart && c.isMarker '.' then s.marker .documentEnd 3
  else if ch == '[' then s.openBracket .openList
  else if ch == '\x7b' then s.openBracket .openDict
  else if ch == ']' then s.closeBracket .closeList
  else if ch == '\x7d' then s.closeBracket .closeDict
  else if ch == ',' then s.comma
  else if ch == '-' && alone then s.item
  else if ch == '?' && (s.inFlow || alone) then s.explicitKey
  else if ch == ':' && (s.inFlow || alone) then s.colon
  else if ch == '*' then s.named .reference
  else if ch == '&' then s.named .anchor
  else if ch == '!' then s.tagged
  else if ch == '|' && !s.inFlow then s.block false
  else if ch == '>' && !s.inFlow then s.block true
  else if ch == '"' || ch == Text.singleQuote then s.quotedScalar ch
  else if s.startsPlain ch then s.plainScalar
  else .error .unreadableToken

/-- Whether no character was needed that may not be read; one is always looked at ahead. -/
def withinLimit (s : Layout) : Bool := s.limit.all fun n => s.cursor.index + 1 < n

def advance (s : Layout) : Result (Layout × Bool) := do
  let s := skipToToken (s.cursor.rest.length + 1) s
  let s ← s.dropStale
  let s := s.closeBlocks s.cursor.column
  match s.cursor.here with
  | none => do
      let s ← s.atEnd
      return (s, true)
  | some ch => do
      let s ← s.token ch
      if !s.withinLimit then throw .forbiddenCharacter
      let s ← s.dropStale
      return (s, false)

def inLine (e : Token × Opening) : List Token :=
  match e.2 with
  | .nothing => [e.1]
  | .key => [.key, e.1]
  | .mapping => [.mappingStart, .key, e.1]

def settled (s : Layout) : List Token :=
  ((s.tokens.toList.take ((s.places.map fun e => e.2.token).foldl min s.tokens.size))).flatMap inLine

def run : Nat → Layout → List Token × Fault
  | 0, s => (s.settled, .unreadableToken)
  | fuel + 1, s =>
      match s.advance with
      | .error f => (s.settled, f)
      | .ok (s, true) => (s.tokens.toList.flatMap inLine, .unreadableToken)
      | .ok (s, false) => run fuel s

end Layout

/-- The tokens of a text, and what is wrong behind them: they end with the end of the stream unless a part of
the text is no token.  With a `limit`, so many characters may be read. -/
def tokens (cs : List Char) (limit : Option Nat) : List Token × Fault :=
  let start : Cursor := ⟨cs, 0, 0, 0⟩
  let start := if start.here == some Cursor.byteOrderMark then start.step else start
  Layout.run (cs.length + 2) { cursor := start, limit := limit }

end TableSteward.Yaml

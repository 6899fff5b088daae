import TableSteward.Text.Unit
import TableSteward.Yaml.Directive

/-!
# Plain and quoted scalars

Scalars that may go on over several lines.  A line end inside such a scalar is folded: a single one is read
as a blank, and of several the first is dropped.
-/
set_option autoImplicit false

namespace TableSteward.Yaml

/-! ## Quoted scalars -/

def escaped? (c : Char) : Option Char :=
  match c with
  | '0' => some (Char.ofNat 0)
  | 'a' => some (Char.ofNat 7)
  | 'b' => some (Char.ofNat 8)
  | 't' => some '\t'
  | '\t' => some '\t'
  | 'n' => some '\n'
  | 'v' => some (Char.ofNat 11)
  | 'f' => some (Char.ofNat 12)
  | 'r' => some '\r'
  | 'e' => some (Char.ofNat 27)
  | ' ' => some ' '
  | '"' => some '"'
  | '\\' => some '\\'
  | '/' => some '/'
  | 'N' => some (Char.ofNat 0x85)
  | '_' => some (Char.ofNat 0xA0)
  | 'L' => some (Char.ofNat 0x2028)
  | 'P' => some (Char.ofNat 0x2029)
  | _ => none

def escapeWidth? (c : Char) : Option Nat :=
  match c with
  | 'x' => some 2
  | 'u' => some 4
  | 'U' => some 8
  | _ => none

def hexNumber? (cs : List Char) : Option Nat :=
  cs.foldl (fun n c => do return 16 * (← n) + (← Text.hexValue? c)) (some 0)

/-- The character of a number.  A number beyond the last character is refused, and one beyond the integers of
32 bits in a way of its own; half of a surrogate pair is kept as such. -/
def numberedChar (n : Nat) : Result Char :=
  if n < 0x110000 then .ok (Text.unitChar n)
  else if n < 0x80000000 then .error .unreadableNumber
  else .error .overflow

def escape (c : Cursor) : Result (List Char × Cursor) := do
  match c.here.bind escaped?, c.here.bind escapeWidth? with
  | some e, _ => return ([e], c.step)
  | none, some width =>
      let digits := c.step.rest.take width
      match if digits.length < width then none else hexNumber? digits with
      | some n => return ([← numberedChar n], c.step.advance width)
      | none => throw .unreadableToken
  | none, none => throw .unreadableToken

/-- Line ends and the blanks before lines; a document may not begin or end among them. -/
def breaks : Nat → Cursor → Result (List Char × Cursor)
  | 0, _ => .error .unreadableToken
  | fuel + 1, c =>
      if c.isDocumentMarker then .error .unreadableToken
      else
        let c := (c.takeWhile fun ch => ch == ' ' || ch == '\t').2
        match c.lineBreak with
        | ([], _) => .ok ([], c)
        | (first, c) => do
            let (others, c) ← breaks fuel c
            return (first ++ others, c)

def quotedBreak (fuel : Nat) (c : Cursor) : Result (List Char × Cursor) := do
  let (first, c) := c.lineBreak
  let (others, c) ← breaks fuel c
  return (foldedBreak first others, c)

/-- Blanks inside a quoted scalar, which count unless a line ends behind them. -/
def quotedBlanks (fuel : Nat) (c : Cursor) : Result (List Char × Cursor) :=
  let (blanks, c) := c.takeWhile fun ch => ch == ' ' || ch == '\t'
  match c.here with
  | none => .error .unreadableToken
  | some ch => if isBreak ch then quotedBreak fuel c else .ok (blanks, c)

def quotedBody (quote : Char) : Nat → Cursor → Result (List Char × Cursor)
  | 0, _ => .error .unreadableToken
  | fuel + 1, c =>
      match c.here with
      | none => .error .unreadableToken
      | some ch => do
          let isDouble := quote == '"'
          if ch == quote then
            if !isDouble && c.peek 1 == some quote then
              let (others, c) ← quotedBody quote fuel (c.advance 2)
              return (quote :: others, c)
            else return ([], c.step)
          else
            let (piece, c) ←
              if isGapChar ch then quotedBlanks fuel c
              else if isDouble && ch == '\\' then
                if isLineEnd (c.peek 1) && (c.peek 1).isSome then breaks fuel c.step.lineBreak.2
                else escape c.step
              else Except.ok ([ch], c.step)
            let (others, c) ← quotedBody quote fuel c
            return (piece ++ others, c)

def quoted (quote : Char) (c : Cursor) : Result (String × Cursor) := do
  let (cs, c) ← quotedBody quote (c.rest.length + 1) c.step
  return (String.ofList cs, c)

/-! ## Plain scalars -/

def isFlowMark (c : Char) : Bool := c == ',' || c == '[' || c == ']' || c == '\x7b' || c == '\x7d'

def endsPlain (inFlow : Bool) (ch : Char) (after : Option Char) : Bool :=
  isGapChar ch ||
  (ch == ':' && (isGap after || (inFlow && after.any isFlowMark))) ||
  (inFlow && (ch == '?' || isFlowMark ch))

def plainRun (inFlow : Bool) : List Char → List Char
  | [] => []
  | ch :: rest => if endsPlain inFlow ch rest.head? then [] else ch :: plainRun inFlow rest

/-- Line ends and blanks inside a plain scalar; `none` if a document begins or ends among them. -/
def plainBreaks : Nat → Cursor → Option (List Char) × Cursor
  | 0, c => (some [], c)
  | fuel + 1, c =>
      match c.here with
      | some ' ' => plainBreaks fuel c.step
      | _ =>
          match c.lineBreak with
          | ([], _) => (some [], c)
          | (first, c) =>
              if c.isDocumentMarker then (none, c)
              else
                let (others, c) := plainBreaks fuel c
                (others.map (first ++ ·), c)

def plainGap (c : Cursor) : List Char × Bool × Cursor :=
  let (blanks, c) := c.takeWhile (· == ' ')
  match c.lineBreak with
  | ([], _) => (blanks, false, c)
  | (first, c) =>
      if c.isDocumentMarker then ([], true, c)
      else
        match plainBreaks (c.rest.length + 1) c with
        | (none, c) => ([], true, c)
        | (some others, c) => (foldedBreak first others, true, c)

/-- The runs of a plain scalar whose lines begin at `indent` at least, with what stands between them. -/
def plainBody (inFlow : Bool) (indent : Int) : Nat → List Char → Cursor → List Char × Bool × Cursor
  | 0, _, c => ([], false, c)
  | fuel + 1, gap, c =>
      let run := if c.here == some '#' then [] else plainRun inFlow c.rest
      if run.isEmpty then ([], false, c)
      else
        let c := c.advance run.length
        let (next, ended, c) := plainGap c
        if next.isEmpty || c.here == some '#' || (!inFlow && (c.column : Int) < indent) then
          (gap ++ run, ended, c)
        else
          let (others, laterEnded, d) := plainBody inFlow indent fuel next c
          if others.isEmpty then (gap ++ run, ended, d) else (gap ++ run ++ others, laterEnded, d)

def plain (inFlow : Bool) (indent : Int) (c : Cursor) : String × Bool × Cursor :=
  let (cs, ended, c) := plainBody inFlow indent (c.rest.length + 1) [] c
  (String.ofList cs, ended, c)

end TableSteward.Yaml

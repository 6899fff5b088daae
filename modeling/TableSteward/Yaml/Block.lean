import TableSteward.Yaml.Directive

/-!
# Block scalars

A literal scalar keeps its lines, a folded one joins them.  A sign in its first line says whether the line
ends behind the text are kept, all of them or none, and a digit how deeply it is indented.
-/
set_option autoImplicit false

namespace TableSteward.Yaml

inductive Chomping
  | clip
  | strip
  | keep
  deriving DecidableEq, Repr

structure BlockHeader where
  chomping : Chomping := .clip
  /-- How much deeper than its surroundings the text is indented. -/
  increment : Option Nat := none

def chompingOf? (c : Char) : Option Chomping :=
  if c == '+' then some .keep else if c == '-' then some .strip else none

/-- The indentation that a digit asks for; zero is none. -/
def incrementOf? (c : Char) : Option Nat :=
  if c.isDigit && c != '0' then some (Text.digitsValue [c]) else none

def blockHeader (c : Cursor) : BlockHeader × Cursor :=
  match c.here.bind chompingOf? with
  | some chomping =>
      let c := c.step
      match c.here.bind incrementOf? with
      | some n => (⟨chomping, some n⟩, c.step)
      | none => (⟨chomping, none⟩, c)
  | none =>
      match c.here.bind incrementOf? with
      | none => ({}, c)
      | some n =>
          let c := c.step
          match c.here.bind chompingOf? with
          | some chomping => (⟨chomping, some n⟩, c.step)
          | none => (⟨.clip, some n⟩, c)

def leadingLines : Nat → Nat → Cursor → List Char × Nat × Cursor
  | 0, deepest, c => ([], deepest, c)
  | fuel + 1, deepest, c =>
      match c.here with
      | some ' ' =>
          let c := c.step
          leadingLines fuel (max deepest c.column) c
      | _ =>
          match c.lineBreak with
          | ([], _) => ([], deepest, c)
          | (first, c) =>
              let (others, deepest, c) := leadingLines fuel deepest c
              (first ++ others, deepest, c)

def indentTo (column : Nat) (c : Cursor) : Cursor :=
  c.advance (min (column - c.column) (c.rest.takeWhile (· == ' ')).length)

def emptyLines (column : Nat) : Nat → Cursor → List Char × Cursor
  | 0, c => ([], c)
  | fuel + 1, c =>
      let c := indentTo column c
      match c.lineBreak with
      | ([], _) => ([], c)
      | (first, c) =>
          let (others, c) := emptyLines column fuel c
          (first ++ others, c)

def startsBlank (c : Cursor) : Bool := c.here == some ' ' || c.here == some '\t'

/-- The lines of the text, joined; the last line end and the empty lines behind it are set apart. -/
def blockLines (folded : Bool) (column : Nat) : Nat → List Char → Cursor →
    List Char × List Char × List Char × Cursor
  | 0, before, c => ([], [], before, c)
  | fuel + 1, before, c =>
      if c.column != column || c.here.isNone then ([], [], before, c)
      else
        let wide := startsBlank c
        let (text, c) := c.takeWhile fun ch => !isBreak ch
        let (lineEnd, c) := c.lineBreak
        let (empty, c) := emptyLines column (c.rest.length + 1) c
        if c.column == column && c.here.isSome then
          let joint :=
            if folded && lineEnd == ['\n'] && !wide && !startsBlank c then
              if empty.isEmpty then [' '] else []
            else lineEnd
          let (others, last, behind, c) := blockLines folded column fuel empty c
          (before ++ text ++ joint ++ others, last, behind, c)
        else (before ++ text, lineEnd, empty, c)

/-- A block scalar; the cursor is at its mark and `indent` is the indentation of its surroundings. -/
def blockScalar (folded : Bool) (indent : Int) (c : Cursor) : Result (String × Cursor) := do
  let (header, c) := blockHeader c.step
  if !isWordEnd c.here then throw .unreadableToken
  let c ← restOfLine c
  let least := (max 1 (indent + 1)).toNat
  let fuel := c.rest.length + 1
  let (column, before, c) :=
    match header.increment with
    | none =>
        let (before, deepest, c) := leadingLines fuel 0 c
        (max least deepest, before, c)
    | some n =>
        let column := least + n - 1
        let (before, c) := emptyLines column fuel c
        (column, before, c)
  let (text, last, behind, c) := blockLines folded column fuel before c
  let ending :=
    match header.chomping with
    | .strip => []
    | .clip => last
    | .keep => last ++ behind
  return (String.ofList (text ++ ending), c)

end TableSteward.Yaml

import TableSteward.Text.Quoted
import TableSteward.Value.Display

/-!
# Writing documents in JSON

`Json.compact` writes a value on one line, with a space after each comma and colon, and `Json.indented`
writes it on several lines.  Everything beyond the printable characters of ASCII is escaped, in surrogate
pairs where one unit of sixteen bits is not enough.  A value that is neither a number, a text, a truth
value, null, a list nor a dictionary has no text; `Value.texted` replaces such values by their texts first.
-/
set_option autoImplicit false

namespace TableSteward.Json

/-! ## Strings and numbers -/

def unitEscape (n : Nat) : List Char := '\\' :: 'u' :: Text.hexDigits 4 n

def charEscape (c : Char) : List Char :=
  if c == '"' then ['\\', '"']
  else if c == '\\' then ['\\', '\\']
  else if c == '\n' then ['\\', 'n']
  else if c == '\r' then ['\\', 'r']
  else if c == '\t' then ['\\', 't']
  else if c.toNat == 8 then ['\\', 'b']
  else if c.toNat == 12 then ['\\', 'f']
  else if 0x20 ≤ c.toNat && c.toNat < 0x7F then [c]
  else (Text.unitsOf c).flatMap unitEscape

def stringText (s : String) : String := String.ofList ('"' :: s.toList.flatMap charEscape ++ ['"'])

def realText : Binary64 → String
  | .nan => "NaN"
  | .infinite negative => if negative then "-Infinity" else "Infinity"
  | x => x.text

def leaf? : Value → Option String
  | .null => some "null"
  | .bool b => some (if b then "true" else "false")
  | .int n => some (toString n)
  | .real x => some (realText x)
  | .text s => some (stringText s)
  | _ => none

/-! ## One line -/

mutual

def compact : Value → Option String
  | .list items => do
      let texts ← compactItems items
      return "[" ++ commaList texts ++ "]"
  | .dict entries => do
      let texts ← compactEntries entries
      return "\x7b" ++ commaList texts ++ "\x7d"
  | v => leaf? v

def compactItems : List Value → Option (List String)
  | [] => some []
  | v :: rest => do
      let s ← compact v
      let texts ← compactItems rest
      return s :: texts

def compactEntries : List (String × Value) → Option (List String)
  | [] => some []
  | (key, v) :: rest => do
      let s ← compact v
      let texts ← compactEntries rest
      return (stringText key ++ ": " ++ s) :: texts

end

/-! ## Several lines -/

def lineBreak (level : Nat) : String := String.ofList ('\n' :: List.replicate (2 * level) ' ')

def block (opening closing : String) (level : Nat) (items : List String) : String :=
  if items.isEmpty then opening ++ closing
  else
    opening ++ lineBreak (level + 1) ++ (("," ++ lineBreak (level + 1)).intercalate items) ++
    lineBreak level ++ closing

mutual

def indented (level : Nat) : Value → Option String
  | .list items => do
      let texts ← indentedItems (level + 1) items
      return block "[" "]" level texts
  | .dict entries => do
      let texts ← indentedEntries (level + 1) entries
      return block "\x7b" "\x7d" level texts
  | v => leaf? v

def indentedItems (level : Nat) : List Value → Option (List String)
  | [] => some []
  | v :: rest => do
      let s ← indented level v
      let texts ← indentedItems level rest
      return s :: texts

def indentedEntries (level : Nat) : List (String × Value) → Option (List String)
  | [] => some []
  | (key, v) :: rest => do
      let s ← indented level v
      let texts ← indentedEntries level rest
      return (stringText key ++ ": " ++ s) :: texts

end

end TableSteward.Json

namespace TableSteward.Value

/-! ## Values before they are written -/

def sortEntries (entries : List (String × Value)) : List (String × Value) :=
  entries.mergeSort fun a b => a.1 ≤ b.1

mutual

def sorted : Value → Value
  | list items => list (sortedItems items)
  | dict entries => dict (sortEntries (sortedEntries entries))
  | v => v

def sortedItems : List Value → List Value
  | [] => []
  | v :: rest => sorted v :: sortedItems rest

def sortedEntries : List (String × Value) → List (String × Value)
  | [] => []
  | (key, v) :: rest => (key, sorted v) :: sortedEntries rest

end

mutual

/-- The value with every part that a document cannot hold replaced by its text. -/
def texted : Value → Value
  | list items => list (textedItems items)
  | dict entries => dict (textedEntries entries)
  | null => null
  | bool b => bool b
  | int n => int n
  | real x => real x
  | v => text v.display

def textedItems : List Value → List Value
  | [] => []
  | v :: rest => texted v :: textedItems rest

def textedEntries : List (String × Value) → List (String × Value)
  | [] => []
  | (key, v) :: rest => (key, texted v) :: textedEntries rest

end

def lineText (v : Value) : String := (Json.compact v.texted).getD ""

end TableSteward.Value

import TableSteward.Fault
import TableSteward.Json.Reader
import TableSteward.Json.Writer
import TableSteward.Text.Encoding

/-!
# Files of documents

A directory of files, each of which holds one document.  A document is written with the keys of its
dictionaries in order, two blanks for each level of nesting.  A missing file and a file that is no document
are read as the empty document.
-/
set_option autoImplicit false

namespace TableSteward

abbrev Files := Entries (List UInt8)

namespace Files

def read (fs : Files) (name : String) (empty : Value) : Result Value :=
  match fs.get? name with
  | none => .ok empty
  | some bs =>
      match Text.decode? bs with
      | none => .error .notUtf8
      | some cs =>
          match Json.read (String.ofList cs) with
          | .ok v => .ok v
          | .error (.malformed _) => .ok empty
          | .error .tooManyDigits => .error .unreadableNumber
          | .error .tooDeep => .error .tooDeep

def documentText (v : Value) : Result String :=
  match Json.indented 0 v.sorted with
  | some s => .ok s
  | none => .error .notEncodable

/-- The files with a document in one of them; nothing is written if the document has no text. -/
def write (fs : Files) (name : String) (v : Value) : Result Files := do
  let s ← documentText v
  return fs.put name (Text.encode s)

def names (fs : Files) : List String := fs.keys.mergeSort fun a b => a ≤ b

end Files

/-- What a document yields when it is gone through item by item: the items of a list, the keys of a
dictionary or the characters of a text. -/
def Value.iterate : Value → Result (List Value)
  | .list items => .ok items
  | .dict entries => .ok (entries.map fun e => .text e.1)
  | .text s => .ok (s.toList.map fun c => .text (String.singleton c))
  | _ => .error .notIterable

def Value.dictEntries : Value → Result (Entries Value)
  | .dict entries => .ok entries
  | _ => .error .notADictionary

end TableSteward

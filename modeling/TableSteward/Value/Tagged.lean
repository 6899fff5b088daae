import TableSteward.Text.Case
import TableSteward.Value.Display

/-!
# Tagged notation

Plain documents have no calendar values, decimals, bytes or numbers beyond 2^53.  In the tagged notation
such a value is a dictionary with one key that names its kind, as in `\x7b"$date": "2025-01-15"\x7d`.
`untagged` reads the notation at every depth and `tagged` writes it.
-/
set_option autoImplicit false

namespace TableSteward.Value

def largestPlain : Nat := powerOfTwo 53

def tag (name : String) (v : Value) : Value := dict [(name, v)]

mutual

def tagged : Value → Value
  | int n => if n.natAbs ≤ largestPlain then int n else tag "$int" (text (toString n))
  | real x => tag "$float" (text x.text)
  | decimal d => tag "$decimal" (text d.text)
  | date d => tag "$date" (text d.text)
  | timestamp t => tag "$datetime" (text t.text)
  | time t offset => tag "$time" (text (t.text ++ offsetSuffix offset))
  | duration d => tag "$timedelta" (list [int d.days, int d.seconds, int d.microseconds])
  | uuid u => tag "$uuid" (text u)
  | bytes bs => tag "$bytes" (text (Text.hexBytes bs))
  | memory bs => tag "$memoryview" (text (Text.hexBytes bs))
  | list items => list (taggedItems items)
  | dict entries => dict (taggedEntries entries)
  | v => v

def taggedItems : List Value → List Value
  | [] => []
  | v :: rest => tagged v :: taggedItems rest

def taggedEntries : List (String × Value) → List (String × Value)
  | [] => []
  | (key, v) :: rest => (key, tagged v) :: taggedEntries rest

end

def pairsOf : List Value → List (String × Value)
  | [] => []
  | list [text key, v] :: rest => (key, v) :: pairsOf rest
  | _ :: rest => pairsOf rest

def ofTag? (name : String) (content : Value) : Option Value :=
  match content with
  | text s =>
      if name == "$int" then (Text.readInteger? s).map int
      else if name == "$float" then (Binary64.ofText? s).map real
      else if name == "$decimal" then (Decimal.ofText? s).map decimal
      else if name == "$date" then (Date.ofText? s).map date
      else if name == "$datetime" then (Timestamp.ofText? s).map timestamp
      else if name == "$time" then (readTime? s.toList).map fun (t, offset) => time t offset
      else if name == "$uuid" then some (uuid (Text.lower s))
      else if name == "$bytes" then (Text.bytesOfHex? s.toList).map bytes
      else if name == "$memoryview" then (Text.bytesOfHex? s.toList).map memory
      else none
  | list items =>
      if name == "$timedelta" then
        match items with
        | [int days, int seconds, int micros] => some (duration (Duration.ofParts days seconds micros))
        | _ => none
      else if name == "$dict" then some (dict (Entries.ofPairs (pairsOf items)))
      else none
  | _ => none

def untaggedDict : List (String × Value) → Value
  | [(key, content)] => (ofTag? key content).getD (dict [(key, content)])
  | entries => dict entries

mutual

def untagged : Value → Value
  | list items => list (untaggedItems items)
  | dict entries => untaggedDict (untaggedEntries entries)
  | v => v

def untaggedItems : List Value → List Value
  | [] => []
  | v :: rest => untagged v :: untaggedItems rest

def untaggedEntries : List (String × Value) → List (String × Value)
  | [] => []
  | (key, v) :: rest => (key, untagged v) :: untaggedEntries rest

end

end TableSteward.Value

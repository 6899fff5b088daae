import TableSteward.Calendar.Timestamp
import TableSteward.Number
import TableSteward.Number.Decimal
import TableSteward.Text.Quoted

/-!
# Values

A `Value` is a cell of a database row or a node of a document.  Dictionaries keep the order of their keys;
`entry?` reads a key and `put` replaces the value of a key in place or adds the key at the end.
-/
set_option autoImplicit false

namespace TableSteward

inductive Value
  | null
  | bool (b : Bool)
  | int (n : Int)
  | real (x : Binary64)
  | decimal (d : Decimal)
  | date (d : Date)
  | timestamp (t : Timestamp)
  | time (t : TimeOfDay) (offset : Option Int)
  | duration (d : Duration)
  | uuid (canonical : String)
  | bytes (bs : List UInt8)
  | memory (bs : List UInt8)
  | text (s : String)
  | list (items : List Value)
  | dict (entries : List (String × Value))
  deriving Repr, Inhabited

abbrev Entries (α : Type) := List (String × α)

namespace Entries

variable {α : Type}

def get? (es : Entries α) (key : String) : Option α := List.lookup key es

def has (es : Entries α) (key : String) : Bool := (es.get? key).isSome

def keys (es : Entries α) : List String := es.map (·.1)

/-- The value of a key already present is replaced in place; a new key comes last. -/
def put : Entries α → String → α → Entries α
  | [], key, v => [(key, v)]
  | (k, w) :: rest, key, v => if k = key then (k, v) :: rest else (k, w) :: put rest key v

def erase (es : Entries α) (key : String) : Entries α := es.filter fun e => e.1 != key

/-- Of equal keys the last value counts, at the place of the first. -/
def ofPairs (pairs : List (String × α)) : Entries α :=
  pairs.foldl (fun es (k, v) => put es k v) []

end Entries

namespace Value

/-- What counts as true in a condition: everything but null, false, zero and what is empty. -/
def truthy : Value → Bool
  | null => false
  | bool b => b
  | int n => n != 0
  | real x => !x.isZero
  | decimal d => !d.isZero
  | duration d => d.micros != 0
  | bytes bs | memory bs => !bs.isEmpty
  | text s => !s.isEmpty
  | list items => !items.isEmpty
  | dict entries => !entries.isEmpty
  | date _ | timestamp _ | time .. | uuid _ => true

def text? : Value → Option String
  | text s => some s
  | _ => none

def isNull : Value → Bool
  | null => true
  | _ => false

def entry? (v : Value) (key : String) : Option Value :=
  match v with
  | dict entries => List.lookup key entries
  | _ => none

def ofOption : Option String → Value
  | some s => text s
  | none => null

def texts (ss : List String) : Value := list (ss.map text)

def isScalar : Value → Bool
  | bool _ | int _ | real _ | text _ => true
  | _ => false

/-- A cell in a form that a document can hold: decimals as binary64 numbers, calendar values, durations
and identifiers as texts, bytes in base sixteen.  A signalling NaN has no such form. -/
def plain? : Value → Option Value
  | decimal d => d.toBinary64?.map real
  | date d => some (text d.text)
  | timestamp t => some (text t.text)
  | time t offset => some (text (t.text ++ offsetSuffix offset))
  | duration d => some (text d.text)
  | uuid u => some (text u)
  | bytes bs | memory bs => some (text (Text.hexBytes bs))
  | v => some v

end Value

end TableSteward

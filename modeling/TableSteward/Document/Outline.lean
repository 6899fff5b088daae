import TableSteward.Value.Display
import TableSteward.Value.Equality
import TableSteward.Value.Integer

/-!
# Documents layer by layer

A document whose parts are shared, perhaps even with parts of themselves, has no end when it is unfolded.
An outline shows one layer of it at a time: what stands at a place, and the places inside.
-/
set_option autoImplicit false

namespace TableSteward

inductive Layer (α : Type)
  | leaf (v : Value)
  | collection (isEmpty : Bool)
  | dict (entries : Table α)

/-- What can be looked at layer by layer, and shown in a message as a whole. -/
class Outline (α : Type) where
  layer : α → Layer α
  display : α → String

instance : Outline Value where
  layer
    | .list items => .collection items.isEmpty
    | .dict entries => .dict (entries.map fun (key, v) => (.text key, v))
    | v => .leaf v
  display := Value.display

namespace Layer

variable {α : Type}

def truthy : Layer α → Bool
  | leaf v => v.truthy
  | collection isEmpty => !isEmpty
  | dict entries => !entries.isEmpty

/-- The entries of a dictionary; what counts as false has none. -/
def entries (l : Layer α) : Result (Table α) :=
  if l.truthy then
    match l with
    | dict entries => .ok entries
    | _ => .error .notADictionary
  else .ok []

def toInteger : Layer α → Result Int
  | leaf v => v.toInteger
  | _ => .error .notANumber

def text? : Layer α → Option String
  | leaf (.text s) => some s
  | _ => none

end Layer

end TableSteward

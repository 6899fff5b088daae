import TableSteward.Text.Unit
import TableSteward.Value

/-!
# Parts of values

`Value.anyPart` looks for a part of a value, however deep; the keys of dictionaries count as texts.
-/
set_option autoImplicit false

namespace TableSteward.Value

mutual

def anyPart (p : Value → Bool) : Value → Bool
  | list items => anyItem p items
  | dict entries => anyEntry p entries
  | v => p v

def anyItem (p : Value → Bool) : List Value → Bool
  | [] => false
  | v :: rest => anyPart p v || anyItem p rest

def anyEntry (p : Value → Bool) : List (String × Value) → Bool
  | [] => false
  | (key, v) :: rest => p (text key) || anyPart p v || anyEntry p rest

end

def hasNonFinite (v : Value) : Bool :=
  v.anyPart fun
    | real x => !x.isFinite
    | _ => false

def hasHalf (v : Value) : Bool :=
  v.anyPart fun
    | text s => Text.hasHalf s
    | _ => false

end TableSteward.Value

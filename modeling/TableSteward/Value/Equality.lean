import TableSteward.Value

/-!
# Equal keys

Keys of a dictionary are equal if they are the same number, whatever their kinds, the same moment or otherwise
the same value.  Lists, dictionaries and signalling NaNs are no keys.
-/
set_option autoImplicit false

namespace TableSteward

def Timestamp.instant (t : Timestamp) : Int :=
  (((t.date.dayNumber * 86400 + t.time.secondOfDay : Nat) : Int) - t.offset.getD 0) * 1000000 + t.time.micro

namespace Value

def quotient? : Value → Option (Int × Nat)
  | bool b => some (if b then 1 else 0, 1)
  | int n => some (n, 1)
  | real (.finite s m e) => some (Binary64.quotient s m e)
  | decimal (.finite s c e) =>
      let (num, den) := if 0 ≤ e then (c * powerOfTen e.toNat, 1) else (c, powerOfTen (-e).toNat)
      some (if s then -(num : Int) else num, den)
  | _ => none

def infinity? : Value → Option Bool
  | real (.infinite s) | decimal (.infinite s) => some s
  | _ => none

def isKey : Value → Bool
  | list _ | dict _ | decimal (.nan _ true _) => false
  | _ => true

def sameKey (v w : Value) : Bool :=
  match v.quotient?, w.quotient? with
  | some (a, b), some (c, d) => a * d == c * b
  | some _, none | none, some _ => false
  | none, none =>
      match v, w with
      | null, null => true
      | real .nan, real .nan => true
      | date d, date e => d == e
      | timestamp t, timestamp u => t.offset.isSome == u.offset.isSome && t.instant == u.instant
      | time t p, time u q => t == u && p == q
      | duration d, duration e => d == e
      | uuid a, uuid b => a == b
      | text a, text b => a == b
      | bytes a, bytes b | bytes a, memory b | memory a, bytes b | memory a, memory b => a == b
      | v, w => v.infinity?.isSome && v.infinity? == w.infinity?

end Value

abbrev Table (α : Type) := List (Value × α)

namespace Table

variable {α : Type}

def get? (t : Table α) (key : Value) : Option α := (t.find? fun e => e.1.sameKey key).map (·.2)

/-- A key that is present keeps its place and its form; a new one comes last. -/
def put : Table α → Value → α → Table α
  | [], key, a => [(key, a)]
  | (k, b) :: rest, key, a => if k.sameKey key then (k, a) :: rest else (k, b) :: put rest key a

end Table

end TableSteward

import TableSteward.Fault
import TableSteward.Text.Case

/-!
# Suggestions

Names like a given one.  Case and underscores do not matter; the similarity of two names is one less their
edit distance in proportion to the longer of them.  The most similar names come first, and names of equal
similarity stay in order.

The edit distance is the least number of insertions, deletions and substitutions that turn one list of characters
into another.  `distance` computes it row by row: the row of a first word lists its distances to every beginning of
the second word, and a further character of the first word turns one row into the next.
-/
set_option autoImplicit false

namespace TableSteward.Name

/-! ## Edit distance -/

variable {α : Type} [DecidableEq α]

/-- The rest of a row: `left` is the entry just written, `row` the row above from the entry above it on. -/
def nextRow (a : α) : List α → List Nat → Nat → List Nat
  | b :: bs, diagonal :: above :: row, left =>
      let entry := min (min (left + 1) (above + 1)) (diagonal + if a = b then 0 else 1)
      entry :: nextRow a bs (above :: row) entry
  | _, _, _ => []

def rowBelow (bs : List α) (i : Nat) (row : List Nat) (a : α) : List Nat := i :: nextRow a bs row i

def lastRow (bs : List α) : Nat → List Nat → List α → List Nat
  | _, row, [] => row
  | i, row, a :: rest => lastRow bs (i + 1) (rowBelow bs i row a) rest

def distanceToShorter (as bs : List α) : Nat :=
  (lastRow bs 1 (List.range (bs.length + 1)) as).getLastD 0

/-- The edit distance; the shorter word spans the rows. -/
def distance (as bs : List α) : Nat :=
  if as.length < bs.length then distanceToShorter bs as else distanceToShorter as bs

/-! ## Similar names -/

def folded (s : String) : List Char := (Text.lower s).toList.filter (· != '_')

/-- How alike two names are, between zero and one; names of underscores only are not alike at all. -/
def similarity (a b : String) : Binary64 :=
  let x := folded a
  let y := folded b
  let longest := max x.length y.length
  if longest = 0 then .zero
  else (Binary64.ofInt 1).sub (Binary64.ofRatio false (distance x y) longest)

def suggestionLimit : Int := 3

def suggestionThreshold : Number := .real (Binary64.ofRatio false 2 5)

/-- The first `n` items; a negative `n` leaves that many items off the end. -/
def takeUpTo {α : Type} (n : Int) (items : List α) : List α :=
  if 0 ≤ n then items.take n.toNat else items.take (items.length - n.natAbs)

/-- The names more similar to `target` than the threshold, the most similar first. -/
def similar (target : String) (names : List String) (limit : Int) (threshold : Number) : List String :=
  let scored := names.map fun name => (name, similarity target name)
  let matching := scored.filter fun item => threshold.lt (.real item.2)
  let ranked := matching.mergeSort fun a b => !a.2.lt b.2
  (takeUpTo limit ranked).map (·.1)

/-- A name that can be compared: a text.  Bytes have no underscores to leave out, and other values no case. -/
def ofValue : Value → Result String
  | .text s => .ok s
  | .bytes _ => .error .notAText
  | _ => .error .notAName

def suggestions (target : String) (names : List String) : List String :=
  similar target names suggestionLimit suggestionThreshold

end TableSteward.Name

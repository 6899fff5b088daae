import TableSteward.Value.Display
import TableSteward.Value.Equality
import TableSteward.Yaml.Merge
import TableSteward.Yaml.Scalar

/-!
# Reading YAML

The document that a YAML text describes.  Each node becomes a piece of the document under the place that it
has in the graph: scalars are read as soon as a list or a dictionary that holds them is filled, and lists and
dictionaries are filled in the order in which they were met.
-/
set_option autoImplicit false

namespace TableSteward.Yaml

inductive Piece
  | leaf (v : Value)
  | list (items : List Place)
  | pairs (items : List (Place × Place))
  | set (keys : List Value)
  | dict (entries : Table Place)

structure Document where
  pieces : Array Piece
  root : Place

structure Building where
  graph : Graph
  pieces : Array (Option Piece)
  waiting : List Place := []

abbrev Build := StateT Building (Except Fault)

namespace Build

/-- The text of a scalar; for a dictionary it is the text of its default value. -/
def scalarText (g : Graph) : Nat → Place → Result String
  | 0, _ => .error .tooDeep
  | fuel + 1, place =>
      match g.contentAt place with
      | .scalar s => .ok s
      | .dict entries =>
          match entries.find? fun e => g.tagAt e.1 == .default with
          | some (_, v) => scalarText g fuel v
          | none => .error .unknownValue
      | .list _ => .error .unknownValue

def isScalar : Content → Bool
  | .scalar _ => true
  | _ => false

def unfilled? : Tag → Option Piece
  | .list => some (.list [])
  | .orderedMap | .pairs => some (.pairs [])
  | .set => some (.set [])
  | .dict => some (.dict [])
  | _ => none

def setPiece (place : Place) (p : Piece) : Build Unit :=
  modify fun b => { b with pieces := b.pieces.set! place (some p) }

def scalarValue (place : Place) : Build Value := do
  let g := (← get).graph
  let tag := g.tagAt place
  match tag with
  | .merge | .default | .other => throw .unknownValue
  | _ => do
      let s ← scalarText g (g.size + 1) place
      if tag == .moment && !isScalar (g.contentAt place) then throw .notAText
      tag.scalarValue s

/-- Reads a scalar; a list or a dictionary is only noted. -/
def visit (place : Place) : Build Piece := do
  let b ← get
  match (b.pieces[place]?).join with
  | some p => return p
  | none =>
      match unfilled? (b.graph.tagAt place) with
      | some p => do
          setPiece place p
          modify fun b => { b with waiting := b.waiting ++ [place] }
          return p
      | none => do
          let p := Piece.leaf (← scalarValue place)
          setPiece place p
          return p

def key (place : Place) : Build Value := do
  match ← visit place with
  | .leaf v => return v
  | _ => throw .unknownValue

def entries (place : Place) : Build (Table Place) := do
  match (← get).graph.contentAt place with
  | .dict _ => do
      let g ← (← get).graph.merge place
      modify fun b => { b with graph := g }
      (g.entriesAt place).foldlM (fun t (k, v) => do
        let key ← key k
        let _ ← visit v
        return t.put key v) []
  | _ => throw .unknownValue

def pair (place : Place) : Build (Place × Place) := do
  match (← get).graph.contentAt place with
  | .dict [(k, v)] => do
      let _ ← visit k
      let _ ← visit v
      return (k, v)
  | _ => throw .unknownValue

def items (place : Place) : Build (List Place) := do
  match (← get).graph.contentAt place with
  | .list items => return items
  | _ => throw .unknownValue

def fill (place : Place) : Build Unit := do
  match (← get).graph.tagAt place with
  | .list => do
      let items ← items place
      for item in items do
        let _ ← visit item
      setPiece place (.list items)
  | .orderedMap | .pairs => setPiece place (.pairs (← (← items place).mapM pair))
  | .set => setPiece place (.set ((← entries place).map (·.1)))
  | .dict => setPiece place (.dict (← entries place))
  | _ => return ()

def fillAll : Nat → Build Unit
  | 0 => return ()
  | fuel + 1 => do
      match (← get).waiting with
      | [] => return ()
      | place :: rest => do
          modify fun b => { b with waiting := rest }
          fill place
          fillAll fuel

end Build

def Document.ofGraph (g : Graph) (root : Place) : Result Document := do
  let build : Build Unit := do
    let _ ← Build.visit root
    Build.fillAll (g.size + 1)
  let (_, b) ← build.run ⟨g, Array.replicate g.size none, []⟩
  return ⟨b.pieces.map fun p => p.getD (.leaf .null), root⟩

/-! ## Texts -/

def isAllowed (c : Char) : Bool :=
  let n := c.toNat
  n == 0x09 || n == 0x0A || n == 0x0D || (0x20 ≤ n && n ≤ 0x7E) || n == 0x85 || (0xA0 ≤ n && n ≤ 0xFFFD) ||
    0x10000 ≤ n

def blockSize : Nat := 4096

/-- How many characters may be read, if not all: those before the block with the first forbidden one. -/
def legible (cs : List Char) : Option Nat :=
  let n := (cs.takeWhile isAllowed).length
  if n == cs.length then none else if n < 2 * blockSize then some 0 else some (n / blockSize * blockSize)

def normalLines : List Char → List Char
  | [] => []
  | '\r' :: '\n' :: rest => '\n' :: normalLines rest
  | '\r' :: rest => '\n' :: normalLines rest
  | c :: rest => c :: normalLines rest

def read (s : String) : Result Document := do
  let cs := normalLines s.toList
  let limit := legible cs
  if limit == some 0 then throw .forbiddenCharacter
  match ← graphOf cs limit with
  | (g, some root) => Document.ofGraph g root
  | (_, none) => return ⟨#[.leaf .null], 0⟩

end TableSteward.Yaml

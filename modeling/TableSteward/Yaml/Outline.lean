import TableSteward.Document.Outline
import TableSteward.Yaml.Reader

/-!
# Outlines of YAML documents

A YAML document seen from one of its places.  In a message a list or a dictionary that is part of itself is
written once, and as a mark where it comes again.
-/
set_option autoImplicit false

namespace TableSteward.Yaml

structure Spot where
  document : Document
  place : Place

def Document.top (d : Document) : Spot := ⟨d, d.root⟩

def Document.pieceAt (d : Document) (place : Place) : Piece := (d.pieces[place]?).getD (.leaf .null)

/-- The text of the piece at a place; `around` are the places of the pieces that it is part of. -/
def Document.shown (d : Document) : Nat → List Place → Place → String
  | 0, _, _ => ""
  | fuel + 1, around, place =>
      let again := around.contains place
      let inner (p : Place) : String := d.shown fuel (place :: around) p
      match d.pieceAt place with
      | .leaf v => v.shown
      | .list items => "[" ++ (if again then "..." else commaList (items.map inner)) ++ "]"
      | .pairs items =>
          let pair (e : Place × Place) : String := "(" ++ inner e.1 ++ ", " ++ inner e.2 ++ ")"
          "[" ++ (if again then "..." else commaList (items.map pair)) ++ "]"
      | .set keys =>
          if keys.isEmpty then "set()" else "\x7b" ++ commaList (keys.map Value.shown) ++ "\x7d"
      | .dict entries =>
          let entry (e : Value × Place) : String := e.1.shown ++ ": " ++ inner e.2
          "\x7b" ++ (if again then "..." else commaList (entries.map entry)) ++ "\x7d"

namespace Spot

def layer (s : Spot) : Layer Spot :=
  match s.document.pieceAt s.place with
  | .leaf v => .leaf v
  | .list items => .collection items.isEmpty
  | .pairs items => .collection items.isEmpty
  | .set keys => .collection keys.isEmpty
  | .dict entries => .dict (entries.map fun (key, place) => (key, ⟨s.document, place⟩))

def display (s : Spot) : String :=
  match s.document.pieceAt s.place with
  | .leaf v => v.display
  | _ => s.document.shown (s.document.pieces.size + 1) [] s.place

instance : Outline Spot := ⟨layer, display⟩

end Spot

end TableSteward.Yaml

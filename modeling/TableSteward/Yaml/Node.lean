import TableSteward.Yaml.Tag
import TableSteward.Yaml.Token

/-!
# YAML nodes

The graph that the tokens of a text describe.  A node is known by its place in the graph, so that an alias is
the place of the node that it names and a list may be among its own items.  Where a node is left out there is
an empty plain scalar.
-/
set_option autoImplicit false

namespace TableSteward.Yaml

abbrev Place := Nat

inductive Content
  | scalar (text : String)
  | list (items : List Place)
  | dict (entries : List (Place × Place))
  deriving Repr

structure Node where
  tag : Tag
  content : Content
  deriving Repr

abbrev Graph := Array Node

/-- The tokens that are left, what is wrong behind them, the meanings of handles, the anchors so far and the
graph. -/
structure Reading where
  tokens : List Token
  fault : Fault
  handles : List (String × String) := []
  anchors : List (String × Place) := []
  nodes : Graph := #[]

abbrev Parse := StateT Reading (Except Fault)

namespace Parse

def peek : Parse Token := do
  match (← get).tokens with
  | t :: _ => return t
  | [] => throw (← get).fault

def skip : Parse Unit := modify fun r => { r with tokens := r.tokens.tail }

def take (t : Token) : Parse Bool := do
  if (← peek) == t then do
    skip
    return true
  else return false

def expect (t : Token) : Parse Unit := do
  if !(← take t) then throw .misplacedToken

/-! ## Places -/

def newNode (n : Node) : Parse Place := do
  let place := (← get).nodes.size
  modify fun r => { r with nodes := r.nodes.push n }
  return place

def setContent (place : Place) (content : Content) : Parse Unit :=
  modify fun r => { r with nodes := r.nodes.modify place fun n => { n with content := content } }

def empty : Parse Place := newNode ⟨Tag.ofPlain "", .scalar ""⟩

/-- A node, unless one of some tokens comes next, before which it is left out. -/
def orEmpty (stops : List Token) (node : Parse Place) : Parse Place := do
  if stops.contains (← peek) then empty else node

/-! ## Properties -/

def skipTag : Parse (Option TagMark) := do
  match ← peek with
  | .tag mark => do
      skip
      return some mark
  | _ => return none

def skipAnchor : Parse (Option String) := do
  match ← peek with
  | .anchor name => do
      skip
      return some name
  | _ => return none

def fullTag (mark : TagMark) : Parse String := do
  match mark.handle with
  | none => return mark.suffix
  | some handle =>
      match (← get).handles.lookup handle with
      | some uri => return uri ++ mark.suffix
      | none => throw .misplacedToken

structure Properties where
  anchor : Option String
  tag : Option String

def properties : Parse Properties := do
  let (anchor, mark) ←
    match ← skipTag with
    | some mark => do
        let anchor ← skipAnchor
        pure (anchor, some mark)
    | none => do
        let anchor ← skipAnchor
        let mark ← if anchor.isSome then skipTag else pure none
        pure (anchor, mark)
  match mark with
  | some m => return ⟨anchor, some (← fullTag m)⟩
  | none => return ⟨anchor, none⟩

/-- The tag of a node by its properties; a mark alone leaves it open. -/
def Properties.tagOr (p : Properties) (implicit : Tag) : Tag :=
  match p.tag with
  | none => implicit
  | some uri => if uri == "!" then implicit else Tag.ofUri uri

def Properties.scalarTag (p : Properties) (text : String) (isPlain : Bool) : Tag :=
  p.tagOr (if isPlain || p.tag == some "!" then Tag.ofPlain text else .text)

def placed (p : Properties) (n : Node) : Parse Place := do
  match p.anchor with
  | none => newNode n
  | some name => do
      if ((← get).anchors.lookup name).isSome then throw .unknownNode
      let place ← newNode n
      modify fun r => { r with anchors := (name, place) :: r.anchors }
      return place

def anchored (name : String) : Parse Place := do
  match (← get).anchors.lookup name with
  | some place => return place
  | none => throw .unknownNode

/-! ## Nodes -/

inductive Context
  | block
  | blockValue
  | flow
  deriving DecidableEq, Repr

def deepest : Nat := 485

mutual

/-- A node with `depth` levels of nodes around it; the first argument bounds the steps. -/
def node : Nat → Nat → Context → Parse Place
  | 0, _, _ => throw .misplacedToken
  | fuel + 1, depth, context => do
      if deepest ≤ depth then throw .tooDeep
      match ← peek with
      | .reference name => do
          skip
          anchored name
      | _ => do
          let p ← properties
          content fuel (depth + 1) context p

def content : Nat → Nat → Context → Properties → Parse Place
  | 0, _, _, _ => throw .misplacedToken
  | fuel + 1, depth, context, p => do
      match ← peek, context with
      | .scalar text isPlain, _ => do
          skip
          placed p ⟨p.scalarTag text isPlain, .scalar text⟩
      | .openList, _ => do
          let place ← placed p ⟨p.tagOr .list, .list []⟩
          skip
          setContent place (.list (← flowItems fuel depth true))
          return place
      | .openDict, _ => do
          let place ← placed p ⟨p.tagOr .dict, .dict []⟩
          skip
          setContent place (.dict (← flowEntries fuel depth true))
          return place
      | .item, .blockValue => do
          let place ← placed p ⟨p.tagOr .list, .list []⟩
          setContent place (.list (← looseItems fuel depth))
          return place
      | .sequenceStart, .block | .sequenceStart, .blockValue => do
          let place ← placed p ⟨p.tagOr .list, .list []⟩
          skip
          setContent place (.list (← blockItems fuel depth))
          return place
      | .mappingStart, .block | .mappingStart, .blockValue => do
          let place ← placed p ⟨p.tagOr .dict, .dict []⟩
          skip
          setContent place (.dict (← blockEntries fuel depth))
          return place
      | _, _ =>
          if p.anchor.isSome || p.tag.isSome then placed p ⟨p.scalarTag "" true, .scalar ""⟩
          else throw .misplacedToken

def blockItems : Nat → Nat → Parse (List Place)
  | 0, _ => throw .misplacedToken
  | fuel + 1, depth => do
      if ← take .item then
        let n ← orEmpty [.item, .blockEnd] (node fuel depth .block)
        return n :: (← blockItems fuel depth)
      else do
        expect .blockEnd
        return []

/-- The items of a list that is indented like its key. -/
def looseItems : Nat → Nat → Parse (List Place)
  | 0, _ => throw .misplacedToken
  | fuel + 1, depth => do
      if ← take .item then
        let n ← orEmpty [.item, .key, .value, .blockEnd] (node fuel depth .block)
        return n :: (← looseItems fuel depth)
      else return []

def blockEntries : Nat → Nat → Parse (List (Place × Place))
  | 0, _ => throw .misplacedToken
  | fuel + 1, depth => do
      let stops : List Token := [.key, .value, .blockEnd]
      match ← peek with
      | .key => do
          skip
          let k ← orEmpty stops (node fuel depth .blockValue)
          let v ← if ← take .value then orEmpty stops (node fuel depth .blockValue) else empty
          return (k, v) :: (← blockEntries fuel depth)
      | .blockEnd => do
          skip
          return []
      | _ => throw .misplacedToken

def flowItems : Nat → Nat → Bool → Parse (List Place)
  | 0, _, _ => throw .misplacedToken
  | fuel + 1, depth, first => do
      if ← take .closeList then return []
      else do
        if !first then expect .comma
        match ← peek with
        | .closeList => do
            skip
            return []
        | .key => do
            if deepest ≤ depth then throw .tooDeep
            let place ← newNode ⟨.dict, .dict []⟩
            skip
            let stops : List Token := [.comma, .closeList]
            let k ← orEmpty (.value :: stops) (node fuel (depth + 1) .flow)
            let v ← if ← take .value then orEmpty stops (node fuel (depth + 1) .flow) else empty
            setContent place (.dict [(k, v)])
            return place :: (← flowItems fuel depth false)
        | _ => do
            let n ← node fuel depth .flow
            return n :: (← flowItems fuel depth false)

def flowEntries : Nat → Nat → Bool → Parse (List (Place × Place))
  | 0, _, _ => throw .misplacedToken
  | fuel + 1, depth, first => do
      if ← take .closeDict then return []
      else do
        if !first then expect .comma
        let stops : List Token := [.comma, .closeDict]
        match ← peek with
        | .closeDict => do
            skip
            return []
        | .key => do
            skip
            let k ← orEmpty (.value :: stops) (node fuel depth .flow)
            let v ← if ← take .value then orEmpty stops (node fuel depth .flow) else empty
            return (k, v) :: (← flowEntries fuel depth false)
        | _ => do
            let k ← node fuel depth .flow
            return (k, ← empty) :: (← flowEntries fuel depth false)

end

/-! ## Documents -/

def usualHandles : List (String × String) := [("!", "!"), ("!!", Tag.base)]

/-- Directives up to the next other token: one version of the first kind at most, and one meaning for each
handle. -/
def directives : Nat → Bool → List (String × String) → Parse (List (String × String))
  | 0, _, _ => throw .misplacedToken
  | fuel + 1, versioned, handles => do
      match ← peek with
      | .directive d => do
          skip
          match d with
          | .version major _ =>
              if versioned || major != 1 then throw .misplacedToken else directives fuel true handles
          | .handle name uri =>
              if (handles.lookup name).isSome then throw .misplacedToken
              else directives fuel versioned ((name, uri) :: handles)
          | .reserved => directives fuel versioned handles
      | _ => return handles ++ usualHandles

def documentStart (fuel : Nat) : Parse Unit := do
  let handles ← directives fuel false []
  modify fun r => { r with handles := handles }
  expect .documentStart

def skipEnds : Nat → Parse Unit
  | 0 => return ()
  | fuel + 1 => do
      if ← take .documentEnd then skipEnds fuel

def finish (fuel : Nat) : Parse Unit := do
  skipEnds fuel
  if (← peek) == .streamEnd then return ()
  documentStart fuel
  throw .unknownNode

def body (fuel : Nat) : Parse Place := do
  match ← peek with
  | .directive _ | .documentStart => do
      documentStart fuel
      match ← peek with
      | .directive _ | .documentStart | .documentEnd | .streamEnd => empty
      | _ => node fuel 0 .block
  | _ => do
      modify fun r => { r with handles := usualHandles }
      node fuel 0 .block

/-- The node of the only document; a text without a document has none. -/
def document (fuel : Nat) : Parse (Option Place) := do
  if (← peek) == .streamEnd then return none
  let place ← body fuel
  finish fuel
  return some place

end Parse

def graphOf (cs : List Char) (limit : Option Nat) : Result (Graph × Option Place) := do
  let (ts, fault) := tokens cs limit
  let (place, r) ← (Parse.document (4 * ts.length + 8)).run ⟨ts, fault, [], [], #[]⟩
  return (r.nodes, place)

end TableSteward.Yaml

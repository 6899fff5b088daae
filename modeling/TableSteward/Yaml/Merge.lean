import TableSteward.Yaml.Node

/-!
# Merged dictionaries

The key `<<` brings in the entries of another dictionary, or of several, before the entries of its own.  Of
several dictionaries the last comes first, so that the first wins.  A dictionary may bring in itself: each
merge key is taken away before its sources are looked at, and that happens once.
-/
set_option autoImplicit false

namespace TableSteward.Yaml

namespace Graph

def tagAt (g : Graph) (place : Place) : Tag := (g[place]?).elim .other Node.tag

def contentAt (g : Graph) (place : Place) : Content := (g[place]?).elim (.scalar "") Node.content

def entriesAt (g : Graph) (place : Place) : List (Place × Place) :=
  match g.contentAt place with
  | .dict entries => entries
  | _ => []

def setEntries (g : Graph) (place : Place) (entries : List (Place × Place)) : Graph :=
  g.modify place fun n => { n with content := .dict entries }

def settleDefaults (g : Graph) (entries : List (Place × Place)) : Graph :=
  entries.foldl (fun g e =>
    if g.tagAt e.1 == .default then g.modify e.1 fun n => { n with tag := .text } else g) g

def entryCount (g : Graph) : Nat :=
  g.foldl (fun n node => match node.content with | .dict entries => n + entries.length | _ => n) 0

mutual

/-- The graph in which a dictionary has no merge keys any more; `brought` are the entries that those already
taken away bring in. -/
def mergeFrom : Nat → Place → List (Place × Place) → Graph → Result Graph
  | 0, _, _, _ => .error .tooDeep
  | fuel + 1, place, brought, g => do
      let entries := g.entriesAt place
      let g := g.settleDefaults entries
      match entries.find? fun e => g.tagAt e.1 == .merge with
      | none => return if brought.isEmpty then g else g.setEntries place (brought ++ entries)
      | some (_, source) => do
          let g := g.setEntries place (entries.eraseP fun e => g.tagAt e.1 == .merge)
          let (more, g) ← broughtBy fuel source g
          mergeFrom fuel place (brought ++ more) g

/-- The entries that a dictionary, or a list of them, brings in. -/
def broughtBy : Nat → Place → Graph → Result (List (Place × Place) × Graph)
  | 0, _, _ => .error .tooDeep
  | fuel + 1, source, g => do
      match g.contentAt source with
      | .dict _ => do
          let g ← mergeFrom fuel source [] g
          return (g.entriesAt source, g)
      | .list items =>
          items.foldlM (fun (acc : List (Place × Place) × Graph) item => do
            let (behind, g) := acc
            match g.contentAt item with
            | .dict _ => do
                let g ← mergeFrom fuel item [] g
                return (g.entriesAt item ++ behind, g)
            | _ => throw .unknownValue) ([], g)
      | .scalar _ => throw .unknownValue

end

def merge (g : Graph) (place : Place) : Result Graph := mergeFrom (2 * g.entryCount + 2) place [] g

end Graph

end TableSteward.Yaml

import TableSteward.Query.Filter
import TableSteward.Store.Files

/-!
# Report blocks

A saved part of a report: its owner, its kind and a configuration whose shape depends on the kind.
-/
set_option autoImplicit false

namespace TableSteward

inductive BlockKind
  | table
  | chart
  | metric
  | text
  deriving DecidableEq, Repr

namespace BlockKind

def name : BlockKind → String
  | table => "table"
  | chart => "chart"
  | metric => "metric"
  | text => "text"

def all : List BlockKind := [table, chart, metric, text]

def ofName? (s : String) : Option BlockKind := all.find? fun k => k.name == s

end BlockKind

structure ReportBlock where
  id : String
  owner : String
  /-- A stored document may name any kind; what it is good for shows when the block runs. -/
  kind : String
  title : Option String
  config : Entries Value
  deriving Repr

namespace ReportBlock

def check (origin : Origin) : Value → Checked ReportBlock :=
  Checked.recordIn origin "ReportBlock" fun es =>
    ReportBlock.mk <$> Checked.required es ["id"] Checked.text
      <*> Checked.required es ["ownerId", "owner_id"] Checked.text
      <*> Checked.required es ["kind"] Checked.text
      <*> Checked.withDefault es ["title"] none (Checked.optional Checked.text)
      <*> Checked.withDefault es ["config"] [] Checked.dict

def toValue (b : ReportBlock) : Value :=
  .dict [("id", .text b.id), ("ownerId", .text b.owner), ("kind", .text b.kind),
    ("title", .ofOption b.title), ("config", .dict b.config)]

def ofParts (id : String) (owner kind title config : Value) : Result ReportBlock :=
  (check .document (.dict [("id", .text id), ("owner_id", owner), ("kind", kind), ("title", title),
    ("config", config)])).run

end ReportBlock

structure BlockStore where
  blocks : Entries ReportBlock := []
  deriving Repr

namespace BlockStore

def fileName : String := "report_blocks.json"

def get (s : BlockStore) (id : String) : Option ReportBlock := s.blocks.get? id

def add (s : BlockStore) (b : ReportBlock) : BlockStore := ⟨s.blocks.put b.id b⟩

def ownedBy (s : BlockStore) (owner : String) : List ReportBlock :=
  (s.blocks.map (·.2)).filter fun b => b.owner == owner

/-- A block is deleted by its owner only. -/
def delete? (s : BlockStore) (id owner : String) : Option BlockStore :=
  match s.get id with
  | some b => if b.owner == owner then some ⟨s.blocks.erase id⟩ else none
  | none => none

def allowKind (kind : Value) : Result BlockKind :=
  let other (s : String) : Result BlockKind :=
    refuse (.invalidValue (.blockKindNotAllowed s (BlockKind.all.map BlockKind.name)))
  match kind with
  | .text s =>
      match BlockKind.ofName? s with
      | some k => .ok k
      | none => other s
  | v => other v.display

def toValue (s : BlockStore) : Value := .list (s.blocks.map fun e => e.2.toValue)

def ofValue (v : Value) : Result BlockStore := do
  let items ← v.iterate
  let blocks ← items.mapM fun b => (ReportBlock.check .document b).run
  return blocks.foldl BlockStore.add {}

def load (fs : Files) : Result BlockStore := do
  let v ← fs.read fileName (.list [])
  ofValue v

end BlockStore

end TableSteward

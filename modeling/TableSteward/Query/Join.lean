import TableSteward.Query.Column
import TableSteward.Query.Filter
import TableSteward.Text.Case

/-!
# Join chains

A join chain leads from the main table over a joined table to a subjoined one.  `JoinPlan.build` examines
the hops from left to right: the type of a hop and the form of its columns first, then whether the requester
may read the table, and then whether both tables have their columns.  No table is looked up before every
earlier hop has passed.

A request names a column by `column`, for the main table, or by `token.column`.
-/
set_option autoImplicit false

namespace TableSteward

/-- A hop as a client gives it, perhaps followed by another. -/
inductive JoinSpec
  | mk (table : String) (columns : List String) (type : String) (next : Option JoinSpec)
  deriving Repr

namespace JoinSpec

def table : JoinSpec → String
  | mk t _ _ _ => t

def columns : JoinSpec → List String
  | mk _ cs _ _ => cs

def type : JoinSpec → String
  | mk _ _ t _ => t

def next : JoinSpec → Option JoinSpec
  | mk _ _ _ n => n

def hops : JoinSpec → List JoinSpec
  | mk t cs type none => [mk t cs type none]
  | mk t cs type (some n) => mk t cs type (some n) :: hops n

def hopsOf : Option JoinSpec → List JoinSpec
  | none => []
  | some j => j.hops

def checkNested : Nat → Value → Checked JoinSpec
  | 0, _ => Checked.complain .tooDeep
  | room + 1, v =>
      Checked.recordIn .document "JoinSpec" (fun es =>
        JoinSpec.mk <$> Checked.required es ["table"] Checked.text
          <*> Checked.required es ["on"] (Checked.list Checked.text)
          <*> Checked.withDefault es ["type"] "left" Checked.text
          <*> Checked.withDefault es ["subJoin", "sub_join"] none (Checked.optional (checkNested room))) v

def mostHops : Nat := 255

end JoinSpec

def JoinSpec.check : Value → Checked JoinSpec := JoinSpec.checkNested JoinSpec.mostHops

inductive JoinKind
  | left
  | inner
  deriving DecidableEq, Repr

namespace JoinKind

def sql : JoinKind → String
  | left => "LEFT JOIN"
  | inner => "INNER JOIN"

/-- The kind named in any case; no name at all means a left join. -/
def ofName? (s : String) : Option JoinKind :=
  let word := if s.isEmpty then "left" else Text.lower s
  if word == "left" then some left else if word == "inner" then some inner else none

end JoinKind

structure PlannedTable where
  slot : Slot
  ref : TableRef
  columns : List Value
  deriving Repr

namespace PlannedTable

def sql (t : PlannedTable) : String := t.ref.sql ++ " AS " ++ t.slot.tableAlias

def title (t : PlannedTable) : String := t.slot.token ++ " table " ++ t.ref.fullName

end PlannedTable

structure PlannedHop where
  kind : JoinKind
  source : ColumnExpr
  target : ColumnExpr
  table : PlannedTable
  deriving Repr

def PlannedHop.sql (h : PlannedHop) : String :=
  h.kind.sql ++ " " ++ h.table.sql ++ " ON " ++ h.source.sql ++ " = " ++ h.target.sql

/-- A chain that has passed every check. -/
structure JoinPlan where
  main : PlannedTable
  hops : List PlannedHop
  deriving Repr

structure JoinSource (m : Type → Type) where
  authorize : String → m TableRef
  columnsOf : TableRef → m (List Value)

namespace JoinPlan

def depthLimit : Nat := 2

def hopForm (hop : Hop) (j : JoinSpec) : Result (JoinKind × Identifier × Identifier) :=
  match JoinKind.ofName? j.type with
  | none => refuse (.invalidJoin (.unknownType hop j.type))
  | some kind =>
      match j.columns with
      | [a, b] => do
          let source ← Identifier.ofText Identifier.columnRole a
          let target ← Identifier.ofText Identifier.columnRole b
          return (kind, source, target)
      | _ => refuse (.invalidJoin (.columnCount hop))

def requireColumn (hop : Hop) (c : Identifier) (t : PlannedTable) : Result Unit :=
  if c.isAmong t.columns then .ok ()
  else refuse (.invalidJoin (.columnMissing hop c.name t.slot t.ref.fullName))

section Build

variable {m : Type → Type} [Monad m] [MonadExceptOf Fault m]

def lift {α : Type} : Result α → m α
  | .ok a => pure a
  | .error f => throw f

def buildHop (source : JoinSource m) (left : PlannedTable) (hop : Hop) (j : JoinSpec) : m PlannedHop := do
  let (kind, a, b) ← lift (hopForm hop j)
  let ref ← source.authorize j.table
  let columns ← source.columnsOf ref
  let right : PlannedTable := ⟨hop.target, ref, columns⟩
  lift (requireColumn hop a left)
  lift (requireColumn hop b right)
  return ⟨kind, ⟨some left.slot, a⟩, ⟨some right.slot, b⟩, right⟩

/-- The planned hops of a chain, whose remaining places are `places`. -/
def buildHops (source : JoinSource m) : PlannedTable → List Hop → List JoinSpec → m (List PlannedHop)
  | left, hop :: places, j :: rest => do
      let planned ← buildHop source left hop j
      let others ← buildHops source planned.table places rest
      return planned :: others
  | _, _, _ => return []

def build (source : JoinSource m) (main : TableRef) (columns : List Value) (join : Option JoinSpec) :
    m JoinPlan := do
  let chain := JoinSpec.hopsOf join
  if depthLimit < chain.length then
    throw (Fault.refused (.invalidJoin (.tooDeep chain.length depthLimit)))
  let first : PlannedTable := ⟨.main, main, columns⟩
  let hops ← buildHops source first [.first, .second] chain
  return ⟨first, hops⟩

end Build

def tables (p : JoinPlan) : List PlannedTable := p.main :: p.hops.map PlannedHop.table

def table? (p : JoinPlan) (slot : Slot) : Option PlannedTable := p.tables.find? fun t => t.slot == slot

def hasJoin (p : JoinPlan) : Bool := !p.hops.isEmpty

def fromSql (p : JoinPlan) : String := " ".intercalate (p.main.sql :: p.hops.map PlannedHop.sql)

def split (p : JoinPlan) (reference : String) : Result (PlannedTable × String) :=
  let wrong (problem : JoinProblem) : Result (PlannedTable × String) := refuse (.invalidJoin problem)
  if reference.isEmpty then wrong (.badReference (Text.quoted reference))
  else
    match (Text.splitOn '.' reference.toList).map String.ofList with
    | [column] => .ok (p.main, column)
    | [token, column] =>
        match Slot.ofToken? token with
        | none => wrong (.unknownToken token reference)
        | some slot =>
            match p.table? slot with
            | some t => .ok (t, column)
            | none => wrong (.slotMissing reference slot)
    | _ => wrong (.referenceParts reference)

def resolve (p : JoinPlan) : Resolver := fun reference => do
  let (t, name) ← p.split reference
  let column ← Identifier.knownColumn name t.columns t.title
  return ⟨some t.slot, column⟩

/-- The name of a column in a result row: columns of joined tables begin with the token of their table. -/
def nameIn (t : PlannedTable) (column : String) : String :=
  match t.slot with
  | .main => column
  | slot => slot.token ++ "_" ++ column

def outputName (p : JoinPlan) (reference : String) : Result String := do
  let (t, name) ← p.split reference
  return nameIn t name

end JoinPlan

structure SelectItem where
  column : ColumnExpr
  name : Option Identifier
  deriving Repr

def SelectItem.sql (s : SelectItem) : String :=
  match s.name with
  | some n => s.column.sql ++ " AS " ++ n.sql
  | none => s.column.sql

def JoinPlan.select (p : JoinPlan) (reference : String) : Result SelectItem := do
  let column ← p.resolve reference
  let (t, name) ← p.split reference
  match t.slot with
  | .main => return ⟨column, none⟩
  | _ =>
      let name ← Identifier.ofText Identifier.columnRole (JoinPlan.nameIn t name)
      return ⟨column, some name⟩

def reference (v : Value) : Result String :=
  match v with
  | .text s => .ok s
  | v => refuse (.invalidJoin (.badReference v.shown))

end TableSteward

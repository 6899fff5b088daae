import TableSteward.Query.Order
import TableSteward.Query.Join
import TableSteward.Store.Block

/-!
# Configurations of report blocks

What a block of each kind needs to know.  A configuration is examined when a block is made and again when it
runs.
-/
set_option autoImplicit false

namespace TableSteward

structure BlockSource where
  database : String
  table : String
  filters : List FilterSpec
  join : Option JoinSpec
  deriving Repr

structure TableBlock where
  source : BlockSource
  columns : List String
  order : Option SortSpec
  deriving Repr

structure ChartBlock where
  source : BlockSource
  chartType : String
  labelColumn : String
  valueColumn : String
  aggregate : Option String
  groupBy : Option String
  deriving Repr

structure MetricBlock where
  source : BlockSource
  column : String
  aggregate : String
  label : Option String
  format : String
  deriving Repr

inductive BlockConfig
  | table (b : TableBlock)
  | chart (b : ChartBlock)
  | metric (b : MetricBlock)
  | text (content : String)
  deriving Repr

namespace BlockSource

def fields (es : List (String × Value)) : Checked BlockSource :=
  BlockSource.mk <$> Checked.required es ["database"] Checked.text
    <*> Checked.required es ["table"] Checked.text
    <*> Checked.withDefault es ["filters"] [] (Checked.list (FilterSpec.check .document))
    <*> Checked.withDefault es ["join"] none (Checked.optional JoinSpec.check)

end BlockSource

namespace BlockConfig

def tableFields (es : List (String × Value)) : Checked BlockConfig :=
  (fun source columns order => table ⟨source, columns, order⟩) <$> BlockSource.fields es
    <*> Checked.withDefault es ["columns"] [] (Checked.list Checked.text)
    <*> Checked.withDefault es ["orderBy", "order_by"] none (Checked.optional (SortSpec.check .document))

def chartFields (es : List (String × Value)) : Checked BlockConfig :=
  (fun source type x y aggregate groupBy => chart ⟨source, type, x, y, aggregate, groupBy⟩)
    <$> BlockSource.fields es
    <*> Checked.withDefault es ["chartType", "chart_type"] "bar" Checked.text
    <*> Checked.required es ["xColumn", "x_column"] Checked.text
    <*> Checked.required es ["yColumn", "y_column"] Checked.text
    <*> Checked.withDefault es ["aggregateFunction", "aggregate_function"] none
          (Checked.optional Checked.text)
    <*> Checked.withDefault es ["groupBy", "group_by"] none (Checked.optional Checked.text)

def metricFields (es : List (String × Value)) : Checked BlockConfig :=
  (fun source column aggregate label format => metric ⟨source, column, aggregate, label, format⟩)
    <$> BlockSource.fields es
    <*> Checked.required es ["column"] Checked.text
    <*> Checked.required es ["aggregateFunction", "aggregate_function"] Checked.text
    <*> Checked.withDefault es ["label"] none (Checked.optional Checked.text)
    <*> Checked.withDefault es ["format"] "number" Checked.text

def textFields (es : List (String × Value)) : Checked BlockConfig :=
  text <$> Checked.withDefault es ["content"] "" Checked.text

def check : BlockKind → Value → Checked BlockConfig
  | .table => Checked.record "TableBlockConfig" tableFields
  | .chart => Checked.record "ChartBlockConfig" chartFields
  | .metric => Checked.record "MetricBlockConfig" metricFields
  | .text => Checked.record "TextBlockConfig" textFields

def chartTypes : List String := ["bar", "line", "pie", "area"]

def metricFormats : List String := ["number", "currency", "percentage"]

def checkLook : BlockConfig → Result Unit
  | chart b =>
      if chartTypes.contains b.chartType then .ok ()
      else refuse (.invalidValue (.chartType b.chartType chartTypes))
  | metric b =>
      if metricFormats.contains b.format then .ok ()
      else refuse (.invalidValue (.metricFormat b.format metricFormats))
  | _ => .ok ()

/-- The configuration of a block; the first issue of a wrong one is quoted in the refusal. -/
def parse (kind : String) (v : Value) : Result BlockConfig :=
  match BlockKind.ofName? kind with
  | none => refuse (.invalidValue (.unknownBlockKind kind))
  | some k =>
      match check k v with
      | .wrong issues =>
          let reason := (issues.head?.map fun i => i.complaint.message).getD ""
          refuse (.invalidValue (.blockConfiguration kind reason))
      | .ok config => do
          checkLook config
          return config

end BlockConfig

/-! ## Configurations as documents -/

mutual

def JoinSpec.toValue : JoinSpec → Value
  | .mk table columns type next =>
      .dict [("table", .text table), ("on", .texts columns), ("type", .text type),
        ("subJoin", JoinSpec.valueOf next)]

def JoinSpec.valueOf : Option JoinSpec → Value
  | some j => j.toValue
  | none => .null

end

def BlockSource.entries (s : BlockSource) : Entries Value :=
  [("database", .text s.database), ("table", .text s.table),
   ("filters", .list (s.filters.map FilterSpec.toValue)), ("join", JoinSpec.valueOf s.join)]

def BlockConfig.toValue : BlockConfig → Value
  | table b =>
      .dict (b.source.entries ++ [("columns", .texts b.columns),
        ("orderBy", (b.order.map SortSpec.toValue).getD .null)])
  | chart b =>
      .dict (b.source.entries ++ [("chartType", .text b.chartType), ("xColumn", .text b.labelColumn),
        ("yColumn", .text b.valueColumn), ("aggregateFunction", .ofOption b.aggregate),
        ("groupBy", .ofOption b.groupBy)])
  | metric b =>
      .dict (b.source.entries ++ [("column", .text b.column), ("aggregateFunction", .text b.aggregate),
        ("label", .ofOption b.label), ("format", .text b.format)])
  | text content => .dict [("content", .text content)]

end TableSteward

import TableSteward.Query.Slot
import TableSteward.Text.Integer
import TableSteward.Value.Display

/-!
# Refusals

A refusal is an answer that the library words itself: why a request is turned down.  Each has a kind, a
message, a status and perhaps further details.  A table that does not exist, one that is not granted and
one that is hidden are refused alike, by `accessDenied`.
-/
set_option autoImplicit false

namespace TableSteward

def choices (names : List String) : String := commaList names

def suggestionText (names : List String) : String :=
  if names.isEmpty then ""
  else " Did you mean: " ++ commaList (names.map fun n => "'" ++ n ++ "'") ++ "?"

inductive ValueProblem
  | noSuchDay (given : String)
  | noSuchTime (given : String)
  | notADate (given : String)
  | needsOneValue (operator column : String)
  | needsList (operator column : String)
  | needsTwoValues (column : String) (count : Nat)
  | needsSomeValue (column : String)
  | notAnArray (parameter : String)
  | malformedParameter (parameter : String)
  | unknownBlockKind (kind : String)
  | blockKindNotAllowed (kind : String) (allowed : List String)
  | blockConfiguration (kind reason : String)
  | chartType (given : String) (allowed : List String)
  | metricFormat (given : String) (allowed : List String)
  | aggregate (given : String) (allowed : List String)
  | periodType (given : String) (allowed : List String)
  | emptyHistory
  deriving DecidableEq, Repr

def ValueProblem.message : ValueProblem → String
  | noSuchDay given => "Invalid date: " ++ given
  | noSuchTime given => "Invalid datetime: " ++ given
  | notADate given => "Not a date value: " ++ given
  | needsOneValue operator column =>
      "Operator '" ++ operator ++ "' on '" ++ column ++ "' requires exactly one value"
  | needsList operator column =>
      "Operator '" ++ operator ++ "' on '" ++ column ++ "' requires a list of values"
  | needsTwoValues column count =>
      "Operator 'between' on '" ++ column ++ "' requires exactly 2 values, got " ++ toString count
  | needsSomeValue column => "Operator 'in' on '" ++ column ++ "' requires a non-empty list"
  | notAnArray parameter => "'" ++ parameter ++ "' must be a JSON array"
  | malformedParameter parameter => "Malformed '" ++ parameter ++ "' parameter"
  | unknownBlockKind kind => "Unknown block kind '" ++ kind ++ "'"
  | blockKindNotAllowed kind allowed =>
      "Unknown block kind '" ++ kind ++ "'. Allowed: " ++ choices allowed
  | blockConfiguration kind reason => "Invalid " ++ kind ++ " block configuration: " ++ reason
  | chartType given allowed => "Invalid chart type '" ++ given ++ "'. Allowed: " ++ choices allowed
  | metricFormat given allowed => "Invalid metric format '" ++ given ++ "'. Allowed: " ++ choices allowed
  | aggregate given allowed => "Invalid aggregate function '" ++ given ++ "'. Allowed: " ++ choices allowed
  | periodType given allowed => "Invalid periodType '" ++ given ++ "'. Allowed: " ++ choices allowed
  | emptyHistory => "Cannot save empty filter history"

inductive JoinProblem
  | tooDeep (depth limit : Nat)
  | unknownType (hop : Hop) (given : String)
  | columnCount (hop : Hop)
  | columnMissing (hop : Hop) (column : String) (slot : Slot) (table : String)
  | badReference (shown : String)
  | referenceParts (reference : String)
  | unknownToken (token reference : String)
  | slotMissing (reference : String) (slot : Slot)
  deriving DecidableEq, Repr

def JoinProblem.message : JoinProblem → String
  | tooDeep depth limit => "Join depth " ++ toString depth ++ " exceeds the maximum of " ++ toString limit
  | unknownType hop given => hop.label ++ " type must be 'inner' or 'left', got '" ++ given ++ "'"
  | columnCount hop => hop.label ++ " 'on' must specify two columns [fromColumn, toColumn]"
  | columnMissing hop column slot table =>
      hop.label ++ " column '" ++ column ++ "' not found in " ++ slot.token ++ " table " ++ table
  | badReference shown => "Invalid column reference: " ++ shown
  | referenceParts reference =>
      "Invalid column reference '" ++ reference ++ "': must be 'alias.column'"
  | unknownToken token reference =>
      "Unknown table alias '" ++ token ++ "' in '" ++ reference ++ "'. Use one of: " ++
      choices (Slot.all.map Slot.token)
  | slotMissing reference slot =>
      "Column reference '" ++ reference ++ "' needs a '" ++ slot.token ++ "' table in the join configuration"

inductive CeilingScope
  | absolute
  | role
  deriving DecidableEq, Repr

def CeilingScope.name : CeilingScope → String
  | absolute => "absolute"
  | role => "role"

inductive FailedTask
  | readRows
  | exportRows
  | loadUser
  | loadGrants
  deriving DecidableEq, Repr

def FailedTask.message : FailedTask → String
  | readRows => "Failed to execute query"
  | exportRows => "Failed to export CSV"
  | loadUser => "Failed to load user"
  | loadGrants => "Failed to load table grants"

inductive Refusal
  /-- A name that is no identifier, and what it was to name. -/
  | invalidIdentifier (role name : String)
  | databaseNotFound (name : String)
  | dashboardNotFound (kind : String) (kinds : List String)
  /-- A well-formed column name that its table lacks, with the names most like it. -/
  | columnNotFound (table column : String) (suggestions : List String)
  | accessDenied
  | invalidOperator (given : String)
  | invalidValue (problem : ValueProblem)
  | invalidJoin (problem : JoinProblem)
  | exportTooLarge (total limit : Int) (scope : CeilingScope)
  | failed (task : FailedTask)
  | blockNotFound
  deriving DecidableEq, Repr

namespace Refusal

def kind : Refusal → String
  | invalidIdentifier .. => "invalid_identifier"
  | databaseNotFound .. | dashboardNotFound .. => "not_found"
  | columnNotFound .. => "invalid_column"
  | accessDenied => "access_denied"
  | invalidOperator .. => "invalid_operator"
  | invalidValue .. => "invalid_value"
  | invalidJoin .. => "invalid_join"
  | exportTooLarge .. => "export_too_large"
  | failed .. => "query_failed"
  | blockNotFound => "block_not_found"

def message : Refusal → String
  | invalidIdentifier role name => "Invalid " ++ role ++ " identifier: " ++ name
  | databaseNotFound name => "Database not found: " ++ name
  | dashboardNotFound kind _ => "Dashboard not found: " ++ kind
  | columnNotFound table column suggestions =>
      "Column not found in " ++ table ++ ": " ++ column ++ "." ++ suggestionText suggestions
  | accessDenied => "Access denied"
  | invalidOperator given => "Invalid filter operator: " ++ given
  | invalidValue problem => problem.message
  | invalidJoin problem => problem.message
  | exportTooLarge _ limit .absolute =>
      "Export exceeds maximum limit of " ++ Text.grouped limit ++ " rows. Please narrow your filters."
  | exportTooLarge _ limit .role =>
      "Export exceeds your limit of " ++ Text.grouped limit ++
      " rows. Please contact an administrator for larger exports."
  | failed task => task.message
  | blockNotFound => "Block not found"

def status : Refusal → Nat
  | accessDenied | exportTooLarge .. => 403
  | blockNotFound => 404
  | failed .. => 500
  | _ => 400

def details : Refusal → Entries Value
  | databaseNotFound _ => [("suggestions", .list [])]
  | dashboardNotFound _ kinds => [("suggestions", .texts kinds)]
  | columnNotFound _ column suggestions =>
      [("suggestions", .texts suggestions), ("column", .text column)]
  | exportTooLarge total limit scope =>
      [("total_count", .int total), ("limit", .int limit), ("scope", .text scope.name)]
  | _ => []

def toValue (r : Refusal) : Value :=
  .dict ([("error", .text r.message), ("kind", .text r.kind)] ++ r.details)

end Refusal

end TableSteward

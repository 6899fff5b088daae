import TableSteward.Value

/-!
# Issues in documents

What a document that should have a certain shape does wrong, and where.  An issue has a path of field
names and list positions, a code and a message.
-/
set_option autoImplicit false

namespace TableSteward

inductive PathStep
  | field (name : String)
  | item (index : Nat)
  deriving DecidableEq, Repr

inductive Complaint
  | missing
  | notText
  | notList
  | notDict
  | notRecord (name : String)
  | notBody
  | notTruthValue
  | unclearTruthValue
  | notInteger
  | unclearInteger
  | fractional
  | notFinite
  | tooManyDigits
  | tooShort
  /-- A record is nested in too many others of its kind. -/
  | tooDeep
  | notADocument
  | notADate
  | inexactDate
  /-- A day of the year zero. -/
  | notInCalendar
  deriving DecidableEq, Repr

namespace Complaint

def code : Complaint → String
  | missing => "missing"
  | notText => "string_type"
  | notList => "list_type"
  | notDict => "dict_type"
  | notRecord _ => "model_type"
  | notBody => "model_attributes_type"
  | notTruthValue => "bool_type"
  | unclearTruthValue => "bool_parsing"
  | notInteger => "int_type"
  | unclearInteger => "int_parsing"
  | fractional => "int_from_float"
  | notFinite => "finite_number"
  | tooManyDigits => "int_parsing_size"
  | tooShort => "too_short"
  | tooDeep => "recursion_depth_exceeded"
  | notADocument => "json_invalid"
  | notADate => "date_from_datetime_parsing"
  | inexactDate => "date_from_datetime_inexact"
  | notInCalendar => "date_parsing"

def message : Complaint → String
  | missing => "Field required"
  | notText => "Input should be a valid string"
  | notList => "Input should be a valid list"
  | notDict => "Input should be a valid dictionary"
  | notRecord name => "Input should be a valid dictionary or instance of " ++ name
  | notBody => "Input should be a valid dictionary or object to extract fields from"
  | notTruthValue => "Input should be a valid boolean"
  | unclearTruthValue => "Input should be a valid boolean, unable to interpret input"
  | notInteger => "Input should be a valid integer"
  | unclearInteger => "Input should be a valid integer, unable to parse string as an integer"
  | fractional => "Input should be a valid integer, got a number with a fractional part"
  | notFinite => "Input should be a finite number"
  | tooManyDigits => "Unable to parse input string as an integer, exceeded maximum size"
  | tooShort => "List should have at least 1 item after validation, not 0"
  | tooDeep => "Recursion error - maximum depth exceeded"
  | notADocument => "JSON decode error"
  | notADate => "Input should be a valid date or datetime"
  | inexactDate => "Datetimes provided to dates should have zero time - e.g. be exact dates"
  | notInCalendar => "Input should be a valid date in the format YYYY-MM-DD, year 0 is out of range"

end Complaint

structure Issue where
  path : List PathStep
  complaint : Complaint
  deriving DecidableEq, Repr

/-- The issue of a part is an issue of the whole, one step further out. -/
def Issue.within (step : PathStep) (i : Issue) : Issue := { i with path := step :: i.path }

def Value.at? : Value → List PathStep → Option Value
  | v, [] => some v
  | .dict entries, .field name :: rest => (List.lookup name entries).bind fun v => v.at? rest
  | .list items, .item i :: rest => items[i]?.bind fun v => v.at? rest
  | _, _ :: _ => none

/-- What an issue was found in: the value at its path, or what lacks the field at the end of the path. -/
def Issue.subject (i : Issue) (document : Value) : Value :=
  (document.at? (if i.complaint = .missing then i.path.dropLast else i.path)).getD .null

end TableSteward

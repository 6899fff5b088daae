import TableSteward.Http.Message
import TableSteward.Json.Encoding
import TableSteward.Json.Reader
import TableSteward.Query.Filter

/-!
# Parameters and bodies

The parameters of a query and the body of a request are examined together, so that all of their issues are
reported at once, each under the place where it was found.
-/
set_option autoImplicit false

namespace TableSteward.Http

/-! ## Where issues are found -/

variable {σ : Type} {α : Type}

def Request.inQuery (r : Request) (check : Entries Value → Checked α) : Handler σ α :=
  Handler.valid (.dict [("query", .dict r.parameters)])
    (Checked.within (.field "query") (check r.parameters))

def inDocument (document : Value) (check : Value → Checked α) : Handler σ α :=
  Handler.valid (.dict [("body", document)]) (Checked.within (.field "body") (check document))

def inBody (body : Option Value) (check : Value → Checked α) : Handler σ α :=
  match body with
  | some v => inDocument v check
  | none => inDocument .null fun _ => Checked.complain .missing

def inOptionalBody (body : Option Value) (default : α) (check : Value → Checked α) : Handler σ α :=
  match body with
  | none | some .null => return default
  | some v => inDocument v check

def bodyRecord (fields : Entries Value → Checked α) : Value → Checked α := Checked.recordIn .body "" fields

def unreadableBody : Response := .detail 400 "There was an error parsing the body"

/-- The document in the body of a request.  An empty body holds none. -/
def Request.document (r : Request) : Handler σ (Option Value) :=
  if r.body.isEmpty then return none
  else
    match Json.textOfBytes? r.body with
    | none => Handler.answer unreadableBody
    | some s =>
        match Json.read s with
        | .ok v => return some v
        | .error (.malformed position) =>
            Handler.answer (.misunderstood [⟨[.field "body", .item position], .notADocument⟩])
        | .error .tooManyDigits | .error .tooDeep => Handler.answer unreadableBody

/-! ## Lists in query parameters -/

/-- A query parameter can hold a list in JSON.  A parameter that is absent or empty holds none. -/
def listParameter {α : Type} (check : Value → Checked α) (name : String) (raw : Option String) :
    Result (List α) :=
  match raw.filter (!·.isEmpty) with
  | none => .ok []
  | some s =>
      match Json.read s with
      | .error (.malformed _) => refuse (.invalidValue (.malformedParameter name))
      | .error .tooManyDigits => .error .unreadableNumber
      | .error .tooDeep => .error .tooDeep
      | .ok (.list items) =>
          match Checked.items check items with
          | .ok parsed => .ok parsed
          | .wrong _ => refuse (.invalidValue (.malformedParameter name))
      | .ok _ => refuse (.invalidValue (.notAnArray name))

end TableSteward.Http

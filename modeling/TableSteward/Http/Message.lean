import TableSteward.Calendar.Interchange
import TableSteward.Service.Action
import TableSteward.Text.Encoding
import TableSteward.Value.Parts

/-!
# Requests and responses

A request as it arrives, and what is answered to it: a document, the issues of a request that could not be
understood, or a download.
-/
set_option autoImplicit false

namespace TableSteward.Http

/-! ## Requests -/

structure Request where
  method : String
  path : String
  query : List (String × String) := []
  user : Option String := none
  body : List UInt8 := []
  client : Value := .null
  /-- For how many chunks of a download the client stays. -/
  patience : Nat := 0

/-- The query parameters as a document; the last one of a name counts. -/
def Request.parameters (r : Request) : Entries Value :=
  Entries.ofPairs (r.query.map fun (name, s) => (name, .text s))

/-! ## Responses -/

inductive Content
  | document (v : Value)
  | issues (is : List Issue)
  | text (s : String)
  deriving Repr

structure Response where
  status : Nat
  mediaType : String
  disposition : Option String := none
  content : Content
  deriving Repr

mutual

/-- A value as a part of a document: calendar values, decimals and identifiers are texts, bytes are the text
that they encode, and numbers that are not finite are null. -/
def documentOf : Value → Result Value
  | .list items => do return .list (← documentItems items)
  | .dict entries => do return .dict (← documentEntries entries)
  | .real x => .ok (if x.isFinite then .real x else .null)
  | .decimal d => .ok (.text d.text)
  | .date d => .ok (.text d.text)
  | .timestamp t => .ok (.text t.interchangeText)
  | .time t offset => .ok (.text (t.interchangeText offset))
  | .duration d => .ok (.text d.interchangeText)
  | .uuid canonical => .ok (.text canonical)
  | .bytes bs =>
      match Text.decode? bs with
      | some cs => .ok (.text (String.ofList cs))
      | none => .error .unanswerable
  | .memory _ => .error .unanswerable
  | .null => .ok .null
  | .bool b => .ok (.bool b)
  | .int n => .ok (.int n)
  | .text s => .ok (.text s)

def documentItems : List Value → Result (List Value)
  | [] => .ok []
  | v :: rest => do
      let d ← documentOf v
      let ds ← documentItems rest
      return d :: ds

def documentEntries : List (String × Value) → Result (List (String × Value))
  | [] => .ok []
  | (key, v) :: rest => do
      let d ← documentOf v
      let ds ← documentEntries rest
      return (key, d) :: ds

end

namespace Response

def jsonType : String := "application/json"

def json (status : Nat) (v : Value) : Response := ⟨status, jsonType, none, .document v⟩

def detail (status : Nat) (words : String) : Response := json status (.dict [("detail", .text words)])

def notFound : Response := detail 404 "Not Found"

def methodNotAllowed : Response := detail 405 "Method Not Allowed"

def misunderstood (is : List Issue) : Response := ⟨422, jsonType, none, .issues is⟩

def ofRefusal (r : Refusal) : Response := json r.status r.toValue

def csv (fileName text : String) : Response :=
  ⟨200, "text/csv; charset=utf-8", some ("attachment; filename=\"" ++ fileName ++ "\""), .text text⟩

/-- Whether an answer can be sent: its texts hold no halves of surrogate pairs. -/
def isSendable (r : Response) : Bool :=
  match r.content with
  | .document v => !v.hasHalf
  | .text s => !Text.hasHalf s
  | .issues _ => true

end Response

abbrev Handler (σ : Type) := ExceptT Response (Action σ)

namespace Handler

variable {σ : Type} {α : Type}

def answer (r : Response) : Handler σ α := throwThe Response r

def act (x : Action σ α) : Handler σ α := ExceptT.lift x

def link (x : Exchange σ α) : Handler σ α := act (Action.onLink x)

def lift (r : Result α) : Handler σ α := act (Action.lift r)

def state : Handler σ (Service σ) := act get

def succeed (v : Value) : Handler σ Response := do return .json 200 (← lift (documentOf v))

def confirm (more : Entries Value) : Handler σ Response := succeed (.dict (("success", .bool true) :: more))

/-- A part of the request, or an answer that lists its issues.  Each issue is listed with what it was found
in, which must be something that an answer can hold. -/
def valid (document : Value) : Checked α → Handler σ α
  | .ok a => pure a
  | .wrong is => do
      let shown := is.map fun i => i.subject document
      if shown.any Value.hasNonFinite then lift (.error .unreadableNumber)
      else if shown.any Value.hasHalf then lift (.error .notEncodableText)
      else answer (.misunderstood is)

end Handler

end TableSteward.Http

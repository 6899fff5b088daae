import TableSteward.Export.Stream
import TableSteward.Http.Endpoint.Tables

/-!
# Exports over the network

An export that is refused is answered with a document, because the ceilings are examined before the first
chunk is read.  What goes wrong later breaks the download off.
-/
set_option autoImplicit false

namespace TableSteward.Http

variable {σ : Type} [Server σ]

def checkFields (es : Entries Value) : Checked TableRequest :=
  (fun database table filters => ⟨database, table, filters, []⟩)
    <$> Checked.required es ["database"] Checked.text
    <*> Checked.required es ["table"] Checked.text
    <*> Checked.withDefault es ["filters"] [] filterList

def exportCheck (r : Request) (_ : List String) (body : Option Value) : Handler σ Response := do
  let requester ← r.requester
  let request ← inBody body (bodyRecord checkFields)
  let browser := (← Handler.state).browser
  let check ← Handler.link (browser.exportCheck requester request)
  Handler.succeed check.toValue

structure ExportQuery where
  database : String
  table : String
  page : Int
  all : Bool
  filters : Option String
  sort : Option String

def ExportQuery.fields (es : Entries Value) : Checked ExportQuery :=
  ExportQuery.mk <$> Checked.required es ["database"] Checked.text
    <*> Checked.required es ["table"] Checked.text
    <*> Checked.withDefault es ["page"] 1 Checked.integer
    <*> Checked.withDefault es ["exportAll"] false Checked.truth
    <*> Checked.withDefault es ["filters"] none (some <$> Checked.text ·)
    <*> Checked.withDefault es ["sort"] none (some <$> Checked.text ·)

def ExportQuery.request (q : ExportQuery) : Result TableRequest := do
  let filters ← listParameter (FilterSpec.check .document) "filters" q.filters
  let sort ← listParameter (SortSpec.check .document) "sort" q.sort
  return ⟨q.database, q.table, filters, sort⟩

/-- The text of a download.  The answer has begun: a refusal can no longer be told. -/
def delivered (patience : Nat) (s : TextStream σ) : Exchange σ String :=
  tryCatch (do return String.join (← s.relay patience)) fun f =>
    match f with
    | .refused _ => throw .answerBegun
    | f => throw f

def exportRows (r : Request) (_ : List String) : Handler σ Response := do
  let requester ← r.requester
  let q ← r.inQuery ExportQuery.fields
  let request ← Handler.lift q.request
  let browser := (← Handler.state).browser
  let download ← Handler.link <|
    if q.all then browser.exportAll requester request
    else browser.exportPage requester request (.int q.page)
  let text ← Handler.link (delivered r.patience download.stream)
  return .csv download.fileName text

def exportEndpoints : List (Endpoint σ) :=
  [.post (path ["api", "export", "check"]) exportCheck,
   .get (path ["api", "export"]) exportRows]

end TableSteward.Http

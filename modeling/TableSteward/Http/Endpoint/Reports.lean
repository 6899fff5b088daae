import TableSteward.Http.Endpoint
import TableSteward.Service.Documents

/-!
# Report blocks over the network
-/
set_option autoImplicit false

namespace TableSteward.Http

variable {σ : Type} [Server σ]

def ownBlocks (r : Request) (_ : List String) : Handler σ Response := do
  let requester ← r.requester
  let blocks := (← Handler.state).blocks.ownedBy requester.user.id
  Handler.succeed (.list (blocks.map ReportBlock.toValue))

def blockFields (es : Entries Value) : Checked (String × Option String × Entries Value) :=
  (fun kind title config => (kind, title, config))
    <$> Checked.required es ["kind"] Checked.text
    <*> Checked.withDefault es ["title"] none (Checked.optional Checked.text)
    <*> Checked.withDefault es ["config"] [] Checked.dict

def makeBlock (r : Request) (_ : List String) (body : Option Value) : Handler σ Response := do
  let requester ← r.requester
  let (kind, title, config) ← inBody body (bodyRecord blockFields)
  let block ← Handler.act (Service.createBlock requester kind (.ofOption title) (.dict config))
  Handler.succeed block.toValue

def dropBlock (r : Request) (places : List String) : Handler σ Response := do
  let requester ← r.requester
  if ← Handler.act (Service.deleteBlock (place places 0) requester.user.id) then Handler.confirm []
  else return .detail 404 "Block not found"

def pageFields (es : Entries Value) : Checked Int := Checked.withDefault es ["page"] 1 Checked.integer

def runBlock (r : Request) (places : List String) (body : Option Value) : Handler σ Response := do
  let requester ← r.requester
  let page ← inOptionalBody body 1 (bodyRecord pageFields)
  let s ← Handler.state
  let payload ← Handler.link (s.reporter.runBlock s.blocks requester (place places 0) (.int page))
  Handler.succeed payload

def reportEndpoints : List (Endpoint σ) :=
  [.get (path ["api", "reports", "blocks"]) ownBlocks,
   .post (path ["api", "reports", "blocks"]) makeBlock,
   .delete (path ["api", "reports", "blocks", "*"]) dropBlock,
   .post (path ["api", "reports", "blocks", "*", "run"]) runBlock]

end TableSteward.Http

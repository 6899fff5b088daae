import TableSteward.Http.Message
import TableSteward.Http.Parameter

/-!
# Endpoints

An endpoint answers the requests of one method whose path fits a pattern.  A path fits if its segments do;
a place takes any segment that is not empty, and a line may end behind the last word.
-/
set_option autoImplicit false

namespace TableSteward.Http

/-! ## Who may enter

Every request but one names its requester.  The user is looked up and the grants are read anew before
anything else of the request is examined.
-/

section Entrance

variable {σ : Type} [Server σ]

def unauthorized : Response := .detail 401 "Unauthorized"

def activeUser (id : String) : Handler σ User := do
  match ← Handler.act (Service.user? id) with
  | none => Handler.answer unauthorized
  | some u =>
      if u.active then return u else Handler.answer (.detail 403 "Account is deactivated")

def Request.requester (r : Request) : Handler σ Requester := do
  match r.user.filter (!·.isEmpty) with
  | none => Handler.answer unauthorized
  | some id => do
      let user ← activeUser id
      let grants ← Handler.act (Service.grantsFor user.id)
      return ⟨user, grants, r.client⟩

def Request.admin (r : Request) : Handler σ Requester := do
  let requester ← r.requester
  let policy := (← Handler.state).policy
  let role ← Handler.lift (policy.lookUp requester.user.role)
  if role.tier == .elevated then return requester
  else Handler.answer (.detail 403 "Admin access required")

end Entrance

/-! ## Paths and methods -/

inductive Segment
  | word (s : String)
  | place
  deriving DecidableEq, Repr

def Segment.fits : Segment → String → Bool
  | word s, t => s == t
  | place, t => !t.isEmpty

def segmentsOf (path : String) : Option (List String) :=
  match path.toList with
  | '/' :: rest => some ((Text.splitOn '/' rest).map String.ofList)
  | _ => none

/-- The segments in the places of a pattern, if the others are the words of the pattern. -/
def fill : List Segment → List String → Option (List String)
  | [], [] => some []
  | [.word w], [s] => if s == w || s == w ++ "\n" then some [] else none
  | p :: ps, s :: rest =>
      if p.fits s then
        match p with
        | .word _ => fill ps rest
        | .place => (fill ps rest).map (s :: ·)
      else none
  | _, _ => none

structure Endpoint (σ : Type) where
  method : String
  pattern : List Segment
  readsBody : Bool := false
  respond : Request → List String → Option Value → Handler σ Response

namespace Endpoint

variable {σ : Type}

def places? (e : Endpoint σ) (path : String) : Option (List String) :=
  match segmentsOf path with
  | some segments => fill e.pattern segments
  | none => none

def get (pattern : List Segment) (respond : Request → List String → Handler σ Response) : Endpoint σ :=
  { method := "GET", pattern := pattern, respond := fun r places _ => respond r places }

def delete (pattern : List Segment) (respond : Request → List String → Handler σ Response) : Endpoint σ :=
  { method := "DELETE", pattern := pattern, respond := fun r places _ => respond r places }

def post (pattern : List Segment)
    (respond : Request → List String → Option Value → Handler σ Response) : Endpoint σ :=
  { method := "POST", pattern := pattern, readsBody := true, respond := respond }

end Endpoint

def place (places : List String) (n : Nat) : String := places.getD n ""

def path (words : List String) : List Segment :=
  words.map fun w => if w == "*" then .place else .word w

end TableSteward.Http

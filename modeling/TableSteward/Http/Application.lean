import TableSteward.Http.Endpoint.Dashboards
import TableSteward.Http.Endpoint.Export
import TableSteward.Http.Endpoint.Filters
import TableSteward.Http.Endpoint.Reports

/-!
# The application

All endpoints in order.  The first whose method and path fit answers.  Where only a path fits, the method is
not allowed; where no path fits, the path is tried again without the slashes at its end.
-/
set_option autoImplicit false

namespace TableSteward.Http

variable {σ : Type} [Server σ]

def health (_ : Request) (_ : List String) : Handler σ Response :=
  Handler.succeed (.dict [("status", .text "ok")])

def endpoints : List (Endpoint σ) :=
  tableEndpoints ++ exportEndpoints ++ filterEndpoints ++ reportEndpoints ++ dashboardEndpoints ++
  [.get (path ["health"]) health]

inductive Routing (σ : Type)
  | found (e : Endpoint σ) (places : List String)
  | wrongMethod
  | unknown

def routeAmong (method path : String) : List (Endpoint σ) → Routing σ
  | [] => .unknown
  | e :: rest =>
      match e.places? path with
      | none => routeAmong method path rest
      | some places =>
          if e.method == method then .found e places
          else
            match routeAmong method path rest with
            | .unknown => .wrongMethod
            | other => other

def withoutSlashes (path : String) : String :=
  String.ofList (path.toList.reverse.dropWhile (· == '/')).reverse

def route (method path : String) : Routing σ :=
  match routeAmong method path endpoints with
  | .unknown => routeAmong method (withoutSlashes path) endpoints
  | other => other

/-- The answer of an endpoint.  The body is read before anything else. -/
def Endpoint.answer (e : Endpoint σ) (r : Request) (places : List String) : Handler σ Response := do
  let body ← if e.readsBody then r.document else pure none
  e.respond r places body

/-- The answer to a request.  Refusals are answered, too; any other fault is left to the caller. -/
def respond (r : Request) : Action σ Response :=
  match route (Text.upper r.method) r.path with
  | .unknown => return .notFound
  | .wrongMethod => return .methodNotAllowed
  | .found e places =>
      tryCatch
        (do
          match ← (e.answer r places).run with
          | .ok response | .error response => return response)
        fun f =>
          match f with
          | .refused refusal => return .ofRefusal refusal
          | f => throw f

def serve (r : Request) : Action σ Response := do
  let response ← respond r
  if response.isSendable then return response else throw .notEncodableText

end TableSteward.Http

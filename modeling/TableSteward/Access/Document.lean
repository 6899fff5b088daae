import TableSteward.Access.Policy
import TableSteward.Yaml.Outline

/-!
# Policies in files

A policy is kept in a file in YAML.  Without a file the standard roles are in force.
-/
set_option autoImplicit false

namespace TableSteward.Policy

/-- The policy in a file; `ceiling` and `warning` are used unless the file has its own. -/
def ofFile (text : Option String) (ceiling warning : Int) : Result Policy := do
  match text with
  | some s => do
      let d ← Yaml.read s
      Policy.ofDocument d.top ceiling warning
  | none => Policy.ofDocument Value.null ceiling warning

end TableSteward.Policy

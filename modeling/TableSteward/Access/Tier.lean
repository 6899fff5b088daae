/-!
# Tiers

A role belongs to one of three tiers.  The restricted tier reads granted tables only; the other two read
every table.
-/
set_option autoImplicit false

namespace TableSteward

inductive Tier
  | restricted
  | standard
  | elevated
  deriving DecidableEq, Repr

namespace Tier

def name : Tier → String
  | restricted => "restricted"
  | standard => "standard"
  | elevated => "elevated"

def all : List Tier := [restricted, standard, elevated]

def ofName? (s : String) : Option Tier := all.find? fun tier => tier.name == s

end Tier

end TableSteward

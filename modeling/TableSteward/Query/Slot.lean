/-!
# Places in a join chain

A query reads a main table and at most two joined ones.  A slot is the place of a table in the chain; its
token is what a request calls it and its alias is what the query text calls it.
-/
set_option autoImplicit false

namespace TableSteward

inductive Slot
  | main
  | joined
  | subjoined
  deriving DecidableEq, Repr

namespace Slot

def token : Slot → String
  | main => "main"
  | joined => "joined"
  | subjoined => "subjoined"

def tableAlias : Slot → String
  | main => "t1"
  | joined => "t2"
  | subjoined => "t3"

def all : List Slot := [main, joined, subjoined]

def ofToken? (s : String) : Option Slot := all.find? fun slot => slot.token == s

end Slot

/-- A step of the chain: from the main table to the joined one, or from there to the next. -/
inductive Hop
  | first
  | second
  deriving DecidableEq, Repr

namespace Hop

def label : Hop → String
  | first => "Join"
  | second => "SubJoin"

def source : Hop → Slot
  | first => .main
  | second => .joined

def target : Hop → Slot
  | first => .joined
  | second => .subjoined

end Hop

end TableSteward

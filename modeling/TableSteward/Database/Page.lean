import TableSteward.Database.Catalog

/-!
# Pages

A result is cut into pages of one size, at least one page.  A page that is asked for beyond the last one is
the last, and one before the first, or no number at all, is the first.
-/
set_option autoImplicit false

namespace TableSteward

namespace Page

/-- The number of pages: the rows divided by the size of a page, rounded up. -/
def count (total size : Number) : Result Int :=
  match (if (Number.int 0).lt total then total else .int 0).divide size with
  | .error f => .error (.ofArithmetic f)
  | .ok q =>
      match q, q.ceil? with
      | _, some n => .ok (max 1 n)
      | .nan, none => .error .unreadableNumber
      | _, none => .error .overflow

def clamp (page : Value) (pages : Int) : Result Int :=
  let within (n : Int) : Int := min (max 1 n) (max 1 pages)
  match page.toInteger with
  | .ok n => .ok (within n)
  | .error .notANumber | .error .unreadableNumber => .ok (within 1)
  | .error f => .error f

end Page

structure Page where
  rows : List Row
  total : Int
  number : Int
  size : Int
  pages : Int
  deriving Repr

namespace Page

def entries (p : Page) : Entries Value :=
  [("rows", .list (p.rows.map Value.dict)), ("totalCount", .int p.total), ("page", .int p.number),
   ("pageSize", .int p.size), ("totalPages", .int p.pages)]

def toValue (p : Page) : Value := .dict p.entries

variable {σ : Type} [Server σ]

/-- How many rows a query has; nothing counts as none. -/
def countRows (c : Connection) (q : Query) : Exchange σ Int := do
  let rows ← Exchange.execute c (.count q)
  let v := ((rows.head?.bind List.head?).map (·.2)).getD .null
  if v.truthy then Exchange.lift v.toInteger else return 0

def fetch (c : Connection) (q : Query) (page : Value) (size : Int) : Exchange σ Page := do
  let total ← countRows c q
  let pages ← Exchange.lift (count (.int total) (.int size))
  let number ← Exchange.lift (clamp page pages)
  let rows ← Exchange.execute c (.page q (.page size ((number - 1) * size)))
  let rows ← Exchange.lift (rows.mapM Row.plain)
  return ⟨rows, total, number, size, pages⟩

end Page

end TableSteward

import TableSteward.Database.Link
import TableSteward.Export.Ceiling

/-!
# Streams of text

A download is a stream of chunks that the receiver asks for one by one and may give up at any time.  A page
is rendered from rows in memory.  A full export reads a cursor on a connection of its own: the header, then
a chunk for each batch, and after an empty batch the cursor is closed and the transaction committed.  When a
call fails or the receiver gives up, the transaction, if it has begun, is rolled back, and the connection is
closed in any case.
-/
set_option autoImplicit false

namespace TableSteward

/-- What a full export reads, and what happens when all of it has been delivered. -/
structure CursorExport (σ : Type) where
  site : Site
  query : Query
  columns : List Value
  batchSize : Int
  /-- Receives the number of rows. -/
  onComplete : Nat → Exchange σ Unit

inductive CursorPhase
  | waiting
  | headed (c : Connection)
  | reading (c : Connection) (written : Nat)
  deriving DecidableEq, Repr

inductive TextStream (σ : Type)
  | records (columns : List Value) (headed : Bool) (rows : List Row)
  | cursor (e : CursorExport σ) (phase : CursorPhase)
  | finished

namespace CursorExport

variable {σ : Type} [Server σ]

/-- A failed rollback is let pass. -/
def abandon (c : Connection) (begun : Bool) : Exchange σ Unit := do
  if begun then discard (Exchange.attempt (Exchange.rollback c))
  Exchange.close c

def guarded {α : Type} (c : Connection) (body : Exchange σ α) : Exchange σ α := do
  match ← Exchange.attempt body with
  | .ok a => return a
  | .error f => do
      abandon c true
      Exchange.reporting .exportRows (throw f)

/-- The next batch as one chunk; nothing when the cursor is at its end, which ends the export, too. -/
def readBatch (e : CursorExport σ) (c : Connection) (written : Nat) :
    Exchange σ (Option String × TextStream σ) := do
  let batch ← guarded c do
    let rows ← Exchange.execute c (.fetch e.batchSize)
    match rows with
    | [] => do
        discard (Exchange.execute c .closeCursor)
        Exchange.commit c
        return none
    | rows => do
        let lines ← Exchange.lift (rows.mapM (Csv.rowLine e.columns))
        return some (rows.length, String.join lines)
  match batch with
  | some (count, chunk) => return (some chunk, .cursor e (.reading c (written + count)))
  | none => do
      Exchange.close c
      e.onComplete written
      return (none, .finished)

def openCursor (e : CursorExport σ) (c : Connection) : Exchange σ Unit := do
  match ← Exchange.attempt (Exchange.begin c) with
  | .error f => do
      abandon c false
      Exchange.reporting .exportRows (throw f)
  | .ok () => guarded c do
      discard (Exchange.execute c .readOnly)
      discard (Exchange.execute c (.declareCursor e.query))

def next (e : CursorExport σ) : CursorPhase → Exchange σ (Option String × TextStream σ)
  | .waiting => do
      let c ← Exchange.connect e.site
      match Csv.header e.columns with
      | .ok header => return (some header, .cursor e (.headed c))
      | .error f => do
          abandon c false
          throw f
  | .headed c => do
      openCursor e c
      readBatch e c 0
  | .reading c written => readBatch e c written

end CursorExport

namespace TextStream

variable {σ : Type} [Server σ]

/-- The next chunk and the stream after it.  A stream that ends in a fault is finished. -/
def next : TextStream σ → Exchange σ (Option String × TextStream σ)
  | finished => return (none, finished)
  | records columns false rows => do
      let header ← Exchange.lift (Csv.header columns)
      return (some header, records columns true rows)
  | records _ true [] => return (none, finished)
  | records columns true (row :: rest) => do
      let line ← Exchange.lift (Csv.rowLine columns row)
      return (some line, records columns true rest)
  | cursor e phase => e.next phase

def close : TextStream σ → Exchange σ Unit
  | cursor _ (.headed c) => CursorExport.abandon c false
  | cursor _ (.reading c _) => CursorExport.abandon c true
  | _ => return ()

/-- An export of a query: refused at once if it has more rows than the ceiling allows. -/
def ofQuery (e : CursorExport σ) (total ceiling : Int) : Result (TextStream σ) := do
  Policy.enforceAbsolute total ceiling
  return cursor e .waiting

/-! ## Relaying

The chunks of a stream are passed on to a receiver one by one.  After each chunk the receiver is asked whether it is
still there; if not, the chunk is dropped and the stream is closed.
-/

/-- The chunks that reach a receiver who answers so many times and is gone then. -/
def relay : Nat → TextStream σ → Exchange σ (List String)
  | patience, s => do
      let (chunk, rest) ← s.next
      match chunk, patience with
      | none, _ => return []
      | some _, 0 => do
          rest.close
          return []
      | some chunk, patience + 1 => do
          let others ← relay patience rest
          return chunk :: others

end TextStream

end TableSteward

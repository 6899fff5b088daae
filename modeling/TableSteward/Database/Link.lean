import TableSteward.Database.Pools
import TableSteward.Database.Statement

/-!
# The link to the databases

A server is anything that answers calls: it may answer a statement with rows, and it may fail any call.  The
link numbers the connections, keeps a trace of what happened on them and the pools that are open, and
`Exchange` is a computation over it.  What a connection did stays in the trace also when the computation
ends in a fault.

A read-only block runs in a transaction of its own, which is committed at its end and rolled back on a
fault; the connection is closed in any case.
-/
set_option autoImplicit false

namespace TableSteward

/-- The database of users, grants and audit rows, or a database that is browsed. -/
inductive Site
  | application
  | browsed (name : String)
  deriving DecidableEq, Repr

structure Connection where
  number : Nat
  site : Site
  deriving DecidableEq, Repr

inductive Call
  /-- The number is that of the connection to be. -/
  | connect (c : Connection)
  | begin (c : Connection)
  | execute (c : Connection) (s : Statement)
  | commit (c : Connection)
  | rollback (c : Connection)
  deriving Repr

/-- A server with states `σ`; no answer means that the call failed. -/
class Server (σ : Type) where
  answer : σ → Call → Option (List Row) × σ

inductive Event
  | connected (c : Connection)
  | begun (c : Connection)
  | executed (c : Connection) (s : Statement)
  | committed (c : Connection)
  | rolledBack (c : Connection)
  | closed (c : Connection)
  | disposed (name : String)
  deriving Repr

structure Link (σ : Type) where
  server : σ
  connections : Nat := 0
  /-- What happened, the latest first. -/
  trace : List Event := []
  pools : Pools Unit

abbrev Exchange (σ : Type) := ExceptT Fault (StateM (Link σ))

namespace Exchange

variable {σ : Type} {α : Type}

def fail (f : Fault) : Exchange σ α := throw f

def refused (r : Refusal) : Exchange σ α := throw (.refused r)

def lift (r : Result α) : Exchange σ α :=
  match r with
  | .ok a => pure a
  | .error f => throw f

def attempt (x : Exchange σ α) : Exchange σ (Result α) :=
  tryCatch (do let a ← x; return .ok a) fun f => return .error f

/-- The computation with a failure of the database reported as a failed task. -/
def reporting (task : FailedTask) (x : Exchange σ α) : Exchange σ α :=
  tryCatch x fun f =>
    match f with
    | .database => refused (.failed task)
    | f => throw f

def note (e : Event) : Exchange σ Unit := modify fun l => { l with trace := e :: l.trace }

section Calls

variable [Server σ]

def ask (c : Call) : Exchange σ (List Row) := do
  let l ← get
  let (answer, server) := Server.answer l.server c
  set { l with server := server }
  match answer with
  | some rows => return rows
  | none => throw .database

/-- A new connection; it has a number only if the server lets it be. -/
def connect (site : Site) : Exchange σ Connection := do
  let c : Connection := ⟨(← get).connections + 1, site⟩
  discard (ask (.connect c))
  modify fun l => { l with connections := c.number }
  note (.connected c)
  return c

def begin (c : Connection) : Exchange σ Unit := do
  discard (ask (.begin c))
  note (.begun c)

/-- A statement is in the trace even if it fails. -/
def execute (c : Connection) (s : Statement) : Exchange σ (List Row) := do
  note (.executed c s)
  ask (.execute c s)

def commit (c : Connection) : Exchange σ Unit := do
  discard (ask (.commit c))
  note (.committed c)

def rollback (c : Connection) : Exchange σ Unit := do
  discard (ask (.rollback c))
  note (.rolledBack c)

def close (c : Connection) : Exchange σ Unit := note (.closed c)

def onConnection (site : Site) (body : Connection → Exchange σ α) : Exchange σ α := do
  let c ← connect site
  let outcome ← attempt (body c)
  close c
  lift outcome

/-- A computation in a transaction: committed at its end, rolled back on a fault. -/
def inTransaction (c : Connection) (body : Exchange σ α) : Exchange σ α := do
  begin c
  match ← attempt body with
  | .ok a => do
      commit c
      return a
  | .error f => do
      rollback c
      throw f

def usePool (name : String) : Exchange σ Unit := do
  let l ← get
  let (_, pools) ← l.pools.get (fun _ => (pure () : Exchange σ Unit)) name
  set { l with pools := pools }

def readOnly (name : String) (timeout : Value) (body : Connection → Exchange σ α) : Exchange σ α := do
  usePool name
  let milliseconds ← lift timeout.toInteger
  reporting .readRows <| onConnection (.browsed name) fun c => inTransaction c do
    discard (execute c .readOnly)
    discard (execute c (.timeout milliseconds))
    body c

def dispose : Exchange σ Unit := do
  for name in (← get).pools.opened.keys do
    note (.disposed name)
  modify fun l => { l with pools := l.pools.dispose }

end Calls

end Exchange

end TableSteward

import TableSteward.Service.Action

/-!
# Scripted databases

A script stands in for the databases when the service is rehearsed: tables in memory, the users with their
grants, answers that are given in advance and calls that fail.  It understands the text of a statement only
as far as the statements of this library need.
-/
set_option autoImplicit false

namespace TableSteward

structure ScriptTable where
  columns : List String := []
  rows : List (List Value) := []
  generated : Nat := 0
  primaryKey : List String := []
  types : Entries Value := []
  notNull : List String := []
  /-- What counting the rows answers, if not their number. -/
  count : Option Value := none

structure ScriptDatabase where
  tables : Entries ScriptTable := []
  /-- A call whose text holds one of these fails. -/
  failing : List String := []
  canned : Entries (List Row) := []

structure Script where
  users : List (User × List (Value × Value)) := []
  databases : Entries ScriptDatabase := []
  /-- The rows that are left of the cursor of a connection, by its number. -/
  cursors : List (Nat × List Row) := []
  computed : Nat := 0

namespace ScriptTable

def madeUpRow (columns : List String) (i : Nat) : Row :=
  match columns with
  | [] => []
  | first :: rest =>
      Entries.ofPairs ((first, .int i) :: rest.map fun c => (c, .text (c ++ toString i)))

/-- The rows; a row with too few cells lacks the last columns. -/
def allRows (t : ScriptTable) : List Row :=
  t.rows.map (fun cells => Entries.ofPairs (t.columns.zip cells)) ++
  (List.range' 1 t.generated).map (madeUpRow t.columns)

def columnRow (t : ScriptTable) (column : String) : Row :=
  [("column_name", .text column), ("data_type", (t.types.get? column).getD (.text "text")),
   ("is_nullable", .text (if t.notNull.contains column then "NO" else "YES"))]

def columnRows (t : ScriptTable) : List Row := t.columns.map t.columnRow

def keyRows (t : ScriptTable) : List Row := t.primaryKey.map fun c => [("column_name", .text c)]

def countRow (t : ScriptTable) : Row :=
  [("count", t.count.getD (.int (t.rows.length + t.generated : Nat)))]

end ScriptTable

/-! ## The text of statements -/

namespace Script

def after? (pattern : List Char) : List Char → Option (List Char)
  | [] => none
  | c :: rest =>
      if pattern.isPrefixOf (c :: rest) then some ((c :: rest).drop pattern.length)
      else after? pattern rest

def quotedName? : List Char → Option (String × List Char)
  | '"' :: rest =>
      match rest.dropWhile (· != '"') with
      | '"' :: after => some (String.ofList (rest.takeWhile (· != '"')), after)
      | _ => none
  | _ => none

def qualifiedName? (cs : List Char) : Option String := do
  let (schema, rest) ← quotedName? cs
  match rest with
  | '.' :: rest => do
      let (table, _) ← quotedName? rest
      return schema ++ "." ++ table
  | _ => none

def mainTable? : List Char → Option String
  | [] => none
  | c :: rest =>
      let here := if "FROM ".toList.isPrefixOf (c :: rest) then qualifiedName? ((c :: rest).drop 5) else none
      match here with
      | some name => some name
      | none => mainTable? rest

def numberAfter? (word : String) (text : String) : Option Nat := do
  let rest ← after? (word ++ " ").toList text.toList
  match rest.takeWhile Char.isDigit with
  | [] => none
  | digits => some (Text.digitsValue digits)

def window (text : String) (rows : List Row) : List Row :=
  let rows := rows.drop ((numberAfter? "OFFSET" text).getD 0)
  match numberAfter? "LIMIT" text with
  | some n => rows.take n
  | none => rows

/-! ## Answers -/

def siteName : Site → String
  | .application => "app"
  | .browsed name => name

def database (s : Script) (site : Site) : ScriptDatabase := (s.databases.get? (siteName site)).getD {}

def fails (s : Script) (site : Site) (text : String) : Bool :=
  (s.database site).failing.any fun fragment => Text.containsText text fragment

def userRow (u : User) : Row :=
  [("id", .text u.id), ("email", u.email), ("role", u.role), ("is_active", .bool u.active)]

def isUser (params : Entries Value) (u : User) : Bool :=
  match params.get? "user_id" with
  | some (.text id) => u.id == id
  | _ => false

def grantRow (g : Value × Value) : Row := [("database", g.1), ("table_name", g.2)]

def namedTable? (db : ScriptDatabase) (params : Entries Value) : Option (String × ScriptTable) := do
  let .text schema ← params.get? "schema" | none
  let .text table ← params.get? "table" | none
  let t ← db.tables.get? (schema ++ "." ++ table)
  return (table, t)

def listingRow (fullName : String) : Row :=
  let cs := fullName.toList
  [("table_schema", .text (String.ofList (cs.takeWhile (· != '.')))),
   ("table_name", .text (String.ofList ((cs.dropWhile (· != '.')).drop 1)))]

def catalogRows (db : ScriptDatabase) (text : String) (params : Entries Value) : List Row :=
  if Text.containsText text "table_type" then
    (db.tables.keys.mergeSort fun a b => a ≤ b).map listingRow
  else
    match namedTable? db params with
    | none => []
    | some (name, t) =>
        if Text.containsText text "information_schema.tables" then [[("table_name", .text name)]]
        else if Text.containsText text "PRIMARY KEY" then t.keyRows
        else t.columnRows

def tableRows (s : Script) (c : Connection) (db : ScriptDatabase) (text : String) : List Row × Script :=
  let table := (mainTable? text.toList).bind db.tables.get?
  if text.startsWith "DECLARE" then
    ([], { s with cursors := (c.number, (table.map ScriptTable.allRows).getD []) :: s.cursors })
  else if text.startsWith "FETCH" then
    let rows := (s.cursors.lookup c.number).getD []
    let size := (numberAfter? "FORWARD" text).getD 0
    (rows.take size, { s with cursors := (c.number, rows.drop size) :: s.cursors })
  else
    match table with
    | none => ([], s)
    | some t =>
        if Text.containsText text "SELECT COUNT(*)" then ([t.countRow], s)
        else if text.startsWith "SELECT" then (window text t.allRows, s)
        else ([], s)

def canned? (db : ScriptDatabase) (text : String) : Option (List Row) :=
  (db.canned.find? fun e => Text.containsText text e.1).map (·.2)

def rowsOf (s : Script) (c : Connection) (text : String) (params : Entries Value) : List Row × Script :=
  let db := s.database c.site
  match canned? db text with
  | some rows => (rows, s)
  | none =>
      if Text.containsText text "FROM users" then
        (((s.users.map (·.1)).filter (isUser params)).map userRow, s)
      else if Text.containsText text "FROM table_grants" then
        ((s.users.filter fun u => isUser params u.1).flatMap fun u => u.2.map grantRow, s)
      else if Text.containsText text "information_schema" then (catalogRows db text params, s)
      else s.tableRows c db text

def acknowledge (s : Script) (site : Site) (word : String) : Option (List Row) × Script :=
  (if s.fails site word then none else some [], s)

def answer (s : Script) : Call → Option (List Row) × Script
  | .connect c => s.acknowledge c.site "CONNECT"
  | .begin _ => (some [], s)
  | .commit c => s.acknowledge c.site "COMMIT"
  | .rollback c => s.acknowledge c.site "ROLLBACK"
  | .execute c statement =>
      let text := Text.oneLine statement.text
      if s.fails c.site text then (none, s)
      else
        let (rows, s) := s.rowsOf c text statement.params
        (some rows, s)

instance : Server Script := ⟨answer⟩

/-! ## Changes -/

def update (s : Script) (name : String) (f : ScriptDatabase → ScriptDatabase) : Script :=
  { s with databases := s.databases.put name (f ((s.databases.get? name).getD {})) }

def fail (s : Script) (name : String) (fragments : List String) : Script :=
  s.update name fun db => { db with failing := fragments }

def can (s : Script) (name fragment : String) (rows : List Row) : Script :=
  s.update name fun db => { db with canned := db.canned.put fragment rows }

def dropTable (s : Script) (name table : String) : Script :=
  s.update name fun db => { db with tables := db.tables.erase table }

def setCount (s : Script) (name table : String) (count : Option Value) : Script :=
  s.update name fun db =>
    match db.tables.get? table with
    | some t => { db with tables := db.tables.put table { t with count := count } }
    | none => db

/-- A dashboard that runs a statement and answers a value; without one it tells what it was asked. -/
def provider (sql : String) (value : Option Value) : Provider Script := fun c r => do
  modify fun l => { l with server := { l.server with computed := l.server.computed + 1 } }
  discard (Exchange.execute c (.given sql))
  let computed := (← get).server.computed
  return value.getD (.dict [("call", .int computed), ("database", .text r.database),
    ("periodType", .text r.periodType), ("periodId", .ofOption r.periodId), ("zones", .texts r.zones),
    ("periodStart", .ofOption (r.periodStart.map Date.text))])

end Script

end TableSteward

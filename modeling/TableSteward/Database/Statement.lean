import TableSteward.Export.Csv
import TableSteward.Query.Aggregate

/-!
# Statements

All that is ever sent to a database.  A statement has a text and parameters; the text of a statement about
given tables holds their identifiers only, and every value is a parameter.
-/
set_option autoImplicit false

namespace TableSteward

/-- A query of a table, or one whose parts are given as text. -/
inductive Query
  | table (q : TableQuery)
  | given (q : QueryText)
  deriving Repr

def Query.text : Query → QueryText
  | table q => q.text
  | given q => q

structure AuditEntry where
  userId : String
  email : Value
  action : String
  database : Value
  table : Value
  details : Value
  ip : Value
  deriving Repr

/-- The address that is recorded, also for a requester without one. -/
def AuditEntry.address (e : AuditEntry) : Value := if e.email.truthy then e.email else .text "unknown"

inductive Statement
  | readOnly
  | timeout (milliseconds : Int)
  | tableExists (t : TableRef)
  | listTables
  | columns (t : TableRef)
  | primaryKey (t : TableRef)
  | count (q : Query)
  | page (q : Query) (w : Window)
  | declareCursor (q : Query)
  | fetch (size : Int)
  | closeCursor
  | chart (c : ChartQuery)
  | metric (q : MetricQuery)
  | createAudit
  | recordAudit (e : AuditEntry)
  | userById (id : String)
  | grantsOf (id : String)
  /-- A text from outside. -/
  | given (text : String)
  deriving Repr

namespace Statement

/-- Each export has a cursor of its own connection. -/
def cursorName : String := "export_cursor_X"

def text : Statement → String
  | readOnly => "SET TRANSACTION READ ONLY"
  | timeout ms => "SET LOCAL statement_timeout = " ++ toString ms
  | tableExists _ =>
      "SELECT table_name FROM information_schema.tables " ++
      "WHERE table_schema = :schema AND table_name = :table"
  | listTables =>
      "SELECT table_schema, table_name FROM information_schema.tables " ++
      "WHERE table_type = 'BASE TABLE' AND table_schema NOT IN ('pg_catalog', 'information_schema') " ++
      "ORDER BY table_schema, table_name"
  | columns _ =>
      "SELECT column_name, data_type, is_nullable FROM information_schema.columns " ++
      "WHERE table_schema = :schema AND table_name = :table ORDER BY ordinal_position"
  | primaryKey _ =>
      "SELECT kcu.column_name FROM information_schema.table_constraints tc " ++
      "JOIN information_schema.key_column_usage kcu ON tc.constraint_name = kcu.constraint_name " ++
      "AND tc.table_schema = kcu.table_schema AND tc.table_name = kcu.table_name " ++
      "WHERE tc.constraint_type = 'PRIMARY KEY' AND tc.table_schema = :schema " ++
      "AND tc.table_name = :table ORDER BY kcu.ordinal_position"
  | count q => q.text.count
  | page q w => q.text.select w
  | declareCursor q => "DECLARE " ++ cursorName ++ " NO SCROLL CURSOR FOR " ++ q.text.select .all
  | fetch size => "FETCH FORWARD " ++ toString size ++ " FROM " ++ cursorName
  | closeCursor => "CLOSE " ++ cursorName
  | chart c => c.sql
  | metric q => q.sql
  | createAudit =>
      "CREATE TABLE IF NOT EXISTS audit_logs ( " ++
      "id VARCHAR PRIMARY KEY DEFAULT gen_random_uuid()::text, user_id VARCHAR NOT NULL, " ++
      "user_email VARCHAR NOT NULL, action VARCHAR NOT NULL, database VARCHAR, table_name VARCHAR, " ++
      "details TEXT, ip_address VARCHAR, timestamp TIMESTAMPTZ NOT NULL DEFAULT NOW() ); " ++
      "CREATE INDEX IF NOT EXISTS idx_audit_logs_user ON audit_logs (user_id); " ++
      "CREATE INDEX IF NOT EXISTS idx_audit_logs_timestamp ON audit_logs (timestamp);"
  | recordAudit _ =>
      "INSERT INTO audit_logs (user_id, user_email, action, database, table_name, details, ip_address) " ++
      "VALUES (:user_id, :user_email, :action, :database, :table_name, :details, :ip_address)"
  | userById _ => "SELECT id, email, role, is_active FROM users WHERE id::text = :user_id"
  | grantsOf _ => "SELECT database, table_name FROM table_grants WHERE user_id::text = :user_id"
  | given text => Text.oneLine text

def tableParams (t : TableRef) : Entries Value :=
  [("schema", .text t.schema.name), ("table", .text t.table.name)]

def params : Statement → Entries Value
  | tableExists t | columns t | primaryKey t => tableParams t
  | count q | page q _ | declareCursor q => q.text.params
  | chart c => c.conditions.params
  | metric q => q.conditions.params
  | recordAudit e =>
      [("user_id", .text e.userId), ("user_email", e.address), ("action", .text e.action),
       ("database", e.database), ("table_name", e.table), ("details", e.details), ("ip_address", e.ip)]
  | userById id | grantsOf id => [("user_id", .text id)]
  | _ => []

end Statement

end TableSteward

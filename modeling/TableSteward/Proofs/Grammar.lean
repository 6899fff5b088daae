import TableSteward.Name.Identifier

/-!
# The grammar of data statements

One grammar for every text by which rows are counted, read, charted or summed up.  Its terminals are keywords,
patterns of dates, aliases and row places, integers and the names of parameters; all other names stand in
quotes, are words of letters, digits and underscores, and come from a scope, which is what the catalog lists.
Nothing in this module refers to how statements are written.
-/
set_option autoImplicit false

namespace TableSteward

/-! ## Words -/

def IsInitial (c : Char) : Prop := ('A' ≤ c ∧ c ≤ 'Z') ∨ ('a' ≤ c ∧ c ≤ 'z') ∨ c = '_'

def IsDigit (c : Char) : Prop := '0' ≤ c ∧ c ≤ '9'

/-- A letter or underscore, and then at most 127 letters, digits and underscores. -/
def IsName (s : String) : Prop :=
  ∃ first rest, s.toList = first :: rest ∧ IsInitial first ∧ rest.length ≤ 127 ∧
    ∀ c ∈ rest, IsInitial c ∨ IsDigit c

def IsNumeral (s : String) : Prop := s.toList ≠ [] ∧ ∀ c ∈ s.toList, IsDigit c

/-! ## Scopes -/

structure Listed where
  schema : String
  table : String
  columns : List Value

/-- The tables of a statement in the order of their aliases, and the primary key of the first. -/
structure Scope where
  tables : List Listed
  primaryKey : List Value

def Scope.aliases : List String := ["t1", "t2", "t3"]

/-! ## Rules -/

inductive Symbol
  /-- The name in quotes. -/
  | name (n : String)
  /-- The table at a place under its alias. -/
  | table (place : Nat)
  /-- A column of the table at a place. -/
  | column (place : Nat) (c : String)
  | parameter
  | integer
  | list (separator : String) (item : Symbol)
  | source
  /-- The joins to the right of a place. -/
  | joins (place : Nat)
  | condition
  | filter
  | item
  | columns
  | key
  | term
  | label
  | aggregate
  | rows
  | limit
  | offset
  | statement

open TableSteward.Symbol in
inductive Derives (g : Scope) : Symbol → String → Prop
  | name {n : String} : IsName n → Derives g (name n) ("\"" ++ n ++ "\"")
  | table {place : Nat} {t : Listed} {schema tbl as : String} :
      g.tables[place]? = some t → Scope.aliases[place]? = some as →
      Derives g (name t.schema) schema → Derives g (name t.table) tbl →
      Derives g (table place) (schema ++ "." ++ tbl ++ " AS " ++ as)
  | column {place : Nat} {t : Listed} {c as s : String} :
      g.tables[place]? = some t → Scope.aliases[place]? = some as →
      .text c ∈ t.columns → Derives g (name c) s →
      Derives g (column place c) (as ++ "." ++ s)
  | parameter {digits : String} : IsNumeral digits → Derives g parameter (":p" ++ digits)
  | natural {digits : String} : IsNumeral digits → Derives g integer digits
  | negative {digits : String} : IsNumeral digits → Derives g integer ("-" ++ digits)
  | last {separator : String} {i : Symbol} {s : String} :
      Derives g i s → Derives g (list separator i) s
  | more {separator : String} {i : Symbol} {s rest : String} :
      Derives g i s → Derives g (list separator i) rest →
      Derives g (list separator i) (s ++ separator ++ rest)
  | source {first rest : String} :
      Derives g (table 0) first → Derives g (joins 0) rest → Derives g source (first ++ rest)
  | noJoin {place : Nat} : g.tables.length = place + 1 → Derives g (joins place) ""
  | join {place : Nat} {kind right a b rest : String} {x y : String} :
      kind ∈ ["LEFT", "INNER"] → Derives g (table (place + 1)) right →
      Derives g (column place x) a → Derives g (column (place + 1) y) b →
      Derives g (joins (place + 1)) rest →
      Derives g (joins place) (" " ++ kind ++ " JOIN " ++ right ++ " ON " ++ a ++ " = " ++ b ++ rest)
  | comparison {place : Nat} {c s operator p : String} :
      operator ∈ ["=", ">", ">=", "<", "<="] → Derives g (column place c) s → Derives g parameter p →
      Derives g condition (s ++ " " ++ operator ++ " " ++ p)
  | containment {place : Nat} {c s p : String} :
      Derives g (column place c) s → Derives g parameter p →
      Derives g condition ("CAST(" ++ s ++ " AS TEXT) ILIKE " ++ p)
  | range {place : Nat} {c s p q : String} :
      Derives g (column place c) s → Derives g parameter p → Derives g parameter q →
      Derives g condition (s ++ " BETWEEN " ++ p ++ " AND " ++ q)
  | membership {place : Nat} {c s p : String} :
      Derives g (column place c) s → Derives g parameter p →
      Derives g condition (s ++ " = ANY(" ++ p ++ ")")
  | noFilter : Derives g filter ""
  | filter {s : String} : Derives g (list " AND " condition) s → Derives g filter (" WHERE " ++ s)
  | mainItem {c s : String} : Derives g (column 0 c) s → Derives g item s
  | joinedItem {c s n : String} :
      Derives g (column 1 c) s → Derives g (name ("joined_" ++ c)) n → Derives g item (s ++ " AS " ++ n)
  | subjoinedItem {c s n : String} :
      Derives g (column 2 c) s → Derives g (name ("subjoined_" ++ c)) n →
      Derives g item (s ++ " AS " ++ n)
  | allColumns : Derives g columns "t1.*"
  | columns {s : String} : Derives g (list ", " item) s → Derives g columns s
  | columnKey {place : Nat} {c s : String} : Derives g (column place c) s → Derives g key s
  | primaryKey {c s : String} :
      .text c ∈ g.primaryKey → Derives g (name c) s → Derives g key ("t1." ++ s)
  | rowPlace : Derives g key "t1.ctid"
  | term {s direction : String} :
      direction ∈ ["ASC", "DESC"] → Derives g key s → Derives g term (s ++ " " ++ direction)
  | columnLabel {place : Nat} {c s : String} : Derives g (column place c) s → Derives g label s
  | dateLabel {place : Nat} {c s pattern : String} :
      pattern ∈ ["YYYY-MM-DD", "IYYY-IW", "YYYY-MM", "YYYY-\"Q\"Q", "YYYY"] →
      Derives g (column place c) s →
      Derives g label
        ("TO_CHAR((" ++ s ++ " AT TIME ZONE 'UTC' AT TIME ZONE 'America/Los_Angeles'), '" ++ pattern ++ "')")
  | aggregate {place : Nat} {c s function : String} :
      function ∈ ["COUNT", "SUM", "AVG", "MIN", "MAX"] → Derives g (column place c) s →
      Derives g aggregate (function ++ "(" ++ s ++ ")")
  | rows {s chain f order : String} :
      Derives g columns s → Derives g source chain → Derives g filter f →
      Derives g (list ", " term) order →
      Derives g rows ("SELECT " ++ s ++ " FROM " ++ chain ++ f ++ " ORDER BY " ++ order)
  | noLimit : Derives g limit ""
  | limit {n : String} : Derives g integer n → Derives g limit (" LIMIT " ++ n)
  | noOffset : Derives g offset ""
  | offset {n : String} : Derives g integer n → Derives g offset (" OFFSET " ++ n)
  | count {chain f : String} :
      Derives g source chain → Derives g filter f →
      Derives g statement ("SELECT COUNT(*) AS count FROM " ++ chain ++ f)
  | page {s l o : String} :
      Derives g rows s → Derives g limit l → Derives g offset o → Derives g statement (s ++ l ++ o)
  | cursor {s : String} :
      Derives g rows s →
      Derives g statement ("DECLARE export_cursor_X NO SCROLL CURSOR FOR " ++ s)
  | groupedChart {x y chain f n : String} :
      Derives g label x → Derives g aggregate y → Derives g source chain → Derives g filter f →
      Derives g integer n →
      Derives g statement
        ("SELECT " ++ x ++ " AS label, " ++ y ++ " AS value FROM " ++ chain ++ f ++
          " GROUP BY " ++ x ++ " ORDER BY " ++ x ++ " LIMIT " ++ n)
  | plainChart {i j : Nat} {c d x y chain f order n : String} :
      Derives g (column i c) x → Derives g (column j d) y → Derives g source chain → Derives g filter f →
      Derives g (list ", " key) order → Derives g integer n →
      Derives g statement
        ("SELECT " ++ x ++ " AS label, " ++ y ++ " AS value FROM " ++ chain ++ f ++
          " ORDER BY " ++ order ++ " LIMIT " ++ n)
  | metric {y chain f : String} :
      Derives g aggregate y → Derives g source chain → Derives g filter f →
      Derives g statement ("SELECT " ++ y ++ " AS value FROM " ++ chain ++ f)

end TableSteward

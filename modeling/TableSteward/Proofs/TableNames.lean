import TableSteward.Proofs.Authority
import TableSteward.Proofs.Derivation
import TableSteward.Proofs.ListedTables

/-!
# Names of tables

A table is called by its full name, and a table of the public schema by its own name too.  The full name is the
canonical one: it is read as the same table again, and no other table has it.  Whatever reads the name of a table goes
on with the table that was read.  So requests, joins, grants and settings are the same under either name, which
`canonical_names` puts together.
-/
set_option autoImplicit false

namespace TableSteward

/-! ## Identifiers -/

theorem Name.isStart_of_isInitial {c : Char} (h : IsInitial c) : isStart c = true := by
  rcases h with hupper | ⟨hlow, hhigh⟩ | hunderscore
  · have halpha : c.isUpper = true := decide_eq_true hupper
    exact Bool.or_eq_true_iff.mpr (.inl (Bool.or_eq_true_iff.mpr (.inl halpha)))
  · have halpha : c.isLower = true := Bool.and_eq_true_iff.mpr ⟨decide_eq_true hlow, decide_eq_true hhigh⟩
    exact Bool.or_eq_true_iff.mpr (.inl (Bool.or_eq_true_iff.mpr (.inr halpha)))
  · exact Bool.or_eq_true_iff.mpr (.inr (beq_iff_eq.mpr hunderscore))

theorem Name.isPart_of_isName {c : Char} (h : IsInitial c ∨ IsDigit c) : isPart c = true := by
  rcases h with hinitial | ⟨hlow, hhigh⟩
  · exact Bool.or_eq_true_iff.mpr (.inl (isStart_of_isInitial hinitial))
  · have hdigit : c.isDigit = true := Bool.and_eq_true_iff.mpr ⟨decide_eq_true hlow, decide_eq_true hhigh⟩
    exact Bool.or_eq_true_iff.mpr (.inr hdigit)

theorem Identifier.isName_iff {s : String} : IsName s ↔ ∃ i : Identifier, i.name = s := by
  constructor
  · intro hname
    obtain ⟨first, rest, hchars, hfirst, hlength, hrest⟩ := hname
    have hword : Name.isWord s.toList = true := by
      rw [hchars, Name.isWord, Name.isStart_of_isInitial hfirst, Bool.true_and, List.all_eq_true]
      exact fun c hc => Name.isPart_of_isName (hrest c hc)
    have hshort : s.length ≤ Name.longest := by
      rw [← String.length_toList, hchars, List.length_cons, Name.longest]
      omega
    exact ⟨⟨s, by simp [Name.isIdentifier, hword, hshort]⟩, rfl⟩
  · intro hname
    obtain ⟨i, rfl⟩ := hname
    exact i.isName

theorem Text.splitOn_ne_nil (sep : Char) (cs : List Char) : splitOn sep cs ≠ [] := by
  cases cs with
  | nil => simp [splitOn]
  | cons c rest =>
      rw [splitOn]
      split
      · simp
      · split <;> simp

theorem Text.intercalate_splitOn (sep : Char) (cs : List Char) : [sep].intercalate (splitOn sep cs) = cs := by
  induction cs with
  | nil => rfl
  | cons c rest ih =>
      rw [splitOn]
      cases hpieces : splitOn sep rest with
      | nil => exact absurd hpieces (splitOn_ne_nil sep rest)
      | cons piece pieces =>
          rw [hpieces] at ih
          by_cases hc : c = sep
          · simp [hc, ih]
          · cases pieces <;> simp_all [List.intercalate]

namespace TableRef

/-! ## Reading names -/

theorem isOk_or_refused (s : String) :
    (∃ t, ofText s = .ok t) ∨ ∃ role name, ofText s = refuse (.invalidIdentifier role name) := by
  have hname : ∀ role name, (∃ i, Identifier.ofText role name = .ok i) ∨
      Identifier.ofText role name = refuse (.invalidIdentifier role name) := by
    intro role name
    cases h : Name.isIdentifier name with
    | true => exact .inl ⟨⟨name, h⟩, Identifier.ofText_name role ⟨name, h⟩⟩
    | false => exact .inr (Identifier.ofText_of_not h)
  unfold ofText
  split
  · exact .inr ⟨_, _, rfl⟩
  · split
    · rename_i table _
      rcases hname "table" table with ⟨i, hi⟩ | hi <;> rw [hi]
      · exact .inl ⟨_, rfl⟩
      · exact .inr ⟨_, _, rfl⟩
    · rename_i schema table _
      rcases hname "schema" schema with ⟨i, hi⟩ | hi <;> rw [hi]
      · rcases hname "table" table with ⟨j, hj⟩ | hj <;> rw [hj]
        · exact .inl ⟨_, rfl⟩
        · exact .inr ⟨_, _, rfl⟩
      · exact .inr ⟨_, _, rfl⟩
    · exact .inr ⟨_, _, rfl⟩

theorem ofText_name (i : Identifier) : ofText i.name = .ok ⟨defaultSchema, i⟩ := by
  have hnonempty : i.name.isEmpty = false := by
    have hword := i.isWord_name
    cases hempty : i.name.isEmpty with
    | false => rfl
    | true =>
        rw [String.isEmpty_iff.mp hempty] at hword
        cases hword
  unfold ofText
  rw [hnonempty, Text.splitOn_of_not_mem i.dot_not_mem_name]
  simp only [List.map_cons, List.map_nil, String.ofList_toList, Identifier.ofText_name]
  rfl

/-- A table is called by its full name, and a table of the public schema by its own name too. -/
theorem ofText_eq_ok_iff {s : String} {t : TableRef} :
    ofText s = .ok t ↔ s = t.fullName ∨ (t.schema = defaultSchema ∧ s = t.table.name) := by
  constructor
  · intro h
    have hjoined := Text.intercalate_splitOn '.' s.toList
    unfold ofText at h
    split at h
    · cases h
    · rcases hpieces : Text.splitOn '.' s.toList with _ | ⟨a, _ | ⟨b, _ | ⟨c, rest⟩⟩⟩ <;>
        rw [hpieces] at h hjoined
      · cases h
      · obtain ⟨i, hi, h⟩ := Result.of_bind_ok h
        cases h
        have hname := Identifier.name_of_ofText hi
        simp_all
      · obtain ⟨i, hi, h⟩ := Result.of_bind_ok h
        obtain ⟨j, hj, h⟩ := Result.of_bind_ok h
        cases h
        have hschema := Identifier.name_of_ofText hi
        have htable := Identifier.name_of_ofText hj
        left
        apply String.toList_inj.mp
        simp [fullName, hschema, htable, ← hjoined, List.intercalate]
      · cases h
  · intro h
    rcases h with rfl | ⟨hschema, rfl⟩
    · exact ofText_fullName t
    · rw [ofText_name, ← hschema]

/-- The texts that name a table are identifiers, and two identifiers joined by a dot. -/
theorem exists_ofText_iff {s : String} :
    (∃ t, ofText s = .ok t) ↔
      IsName s ∨ ∃ schema table, IsName schema ∧ IsName table ∧ s = schema ++ "." ++ table := by
  constructor
  · intro ⟨t, ht⟩
    rcases ofText_eq_ok_iff.mp ht with rfl | ⟨-, rfl⟩
    · exact .inr ⟨_, _, t.schema.isName, t.table.isName, rfl⟩
    · exact .inl t.table.isName
  · intro h
    rcases h with hname | ⟨schema, table, hschema, htable, rfl⟩
    · obtain ⟨i, rfl⟩ := Identifier.isName_iff.mp hname
      exact ⟨_, ofText_name i⟩
    · obtain ⟨i, rfl⟩ := Identifier.isName_iff.mp hschema
      obtain ⟨j, rfl⟩ := Identifier.isName_iff.mp htable
      exact ⟨⟨i, j⟩, ofText_fullName ⟨i, j⟩⟩

theorem fullName_injective : Function.Injective fullName := by
  intro t t' h
  have hread := ofText_fullName t
  rw [h, ofText_fullName t'] at hread
  exact (Except.ok.inj hread).symm

/-- Between its quotation marks the query text of a table holds the two names. -/
theorem splitOn_sql (t : TableRef) :
    Text.splitOn '"' t.sql.toList = [[], t.schema.name.toList, ['.'], t.table.name.toList, []] := by
  have hquote : ∀ i : Identifier, '"' ∉ i.name.toList := by
    intro i hmem
    exact absurd (List.all_eq_true.mp (Name.all_isPart_of_isWord i.isWord_name) '"' hmem) (by decide)
  have htext : t.sql.toList =
      [] ++ '"' :: (t.schema.name.toList ++ '"' :: (['.'] ++ '"' :: (t.table.name.toList ++ '"' :: []))) := by
    simp [sql, Identifier.sql]
  rw [htext, Text.splitOn_append (by simp), Text.splitOn_append (hquote _), Text.splitOn_append (by simp),
    Text.splitOn_append (hquote _), Text.splitOn]

theorem sql_injective : Function.Injective sql := by
  intro t t' h
  have hpieces := t.splitOn_sql
  rw [h, t'.splitOn_sql] at hpieces
  simp only [List.cons.injEq, String.toList_inj, and_true, true_and] at hpieces
  obtain ⟨schema, table⟩ := t
  obtain ⟨schema', table'⟩ := t'
  obtain rfl : schema' = schema := Identifier.eq_of_name hpieces.1
  obtain rfl : table' = table := Identifier.eq_of_name hpieces.2
  rfl

/-! ## The canonical name -/

/-- The full name of the table that a text names; a text that names none stays as it is. -/
def canonical (s : String) : String :=
  match ofText s with
  | .ok t => t.fullName
  | .error _ => s

theorem canonical_of_ok {s : String} {t : TableRef} (h : ofText s = .ok t) : canonical s = t.fullName := by
  rw [canonical, h]

/-- The canonical name is read as the text itself is. -/
theorem ofText_canonical (s : String) : ofText (canonical s) = ofText s := by
  cases h : ofText s with
  | ok t => rw [canonical_of_ok h, ofText_fullName]
  | error f => rw [canonical, h]; exact h

def canonicalValue : Value → Value
  | .text s => .text (canonical s)
  | v => v

theorem ofValue_canonical (v : Value) : ofValue (canonicalValue v) = ofValue v := by
  cases v with
  | text s => exact ofText_canonical s
  | _ => rfl

end TableRef

open TableRef

/-! ## Grants -/

section Grants

variable {α : Type}

theorem normaliseGrants_cons (database : α) (name : Value) (rows : List (α × Value)) :
    normaliseGrants ((database, name) :: rows) =
      match ofValue name with
      | .ok t => (database, t.fullName) :: normaliseGrants rows
      | .error _ => normaliseGrants rows := by
  unfold normaliseGrants
  cases h : ofValue name <;> simp [h]

/-- The rows whose names can be read are kept in order, each with the canonical name. -/
theorem normaliseGrants_kept (rows : List (α × Value)) :
    List.Forall₂ (fun row grant => grant.1 = row.1 ∧ ∃ t, ofValue row.2 = .ok t ∧ grant.2 = t.fullName)
      (rows.filter fun row => (ofValue row.2).isOk) (normaliseGrants rows) := by
  induction rows with
  | nil => exact .nil
  | cons row rows ih =>
      obtain ⟨database, name⟩ := row
      rw [normaliseGrants_cons]
      cases h : ofValue name with
      | ok t => simpa [h, Except.isOk, Except.toBool] using ih
      | error f => simpa [h, Except.isOk, Except.toBool] using ih

theorem normaliseGrants_canonical (rows : List (α × Value)) :
    normaliseGrants (rows.map fun row => (row.1, canonicalValue row.2)) = normaliseGrants rows := by
  simp only [normaliseGrants, List.filterMap_map, Function.comp_def, ofValue_canonical]

theorem normaliseGrants_again (rows : List (α × Value)) :
    normaliseGrants ((normaliseGrants rows).map fun grant => (grant.1, .text grant.2)) = normaliseGrants rows := by
  induction rows with
  | nil => rfl
  | cons row rows ih =>
      obtain ⟨database, name⟩ := row
      rw [normaliseGrants_cons]
      cases ofValue name with
      | ok t =>
          have hread : ofValue (.text t.fullName) = .ok t := ofText_fullName t
          rw [List.map_cons, normaliseGrants_cons, hread, ih]
      | error f => exact ih

theorem grantsOfRows_canonical (rows : List (Value × Value)) :
    grantsOfRows (rows.map fun row => (row.1, canonicalValue row.2)) = grantsOfRows rows := by
  rw [grantsOfRows, normaliseGrants_canonical, grantsOfRows]

theorem mem_grantsOfRows_iff {rows : List (Value × Value)} {database : Value} {t : TableRef} :
    ⟨database, t.fullName⟩ ∈ grantsOfRows rows ↔ ∃ name, (database, name) ∈ rows ∧ ofValue name = .ok t := by
  simp only [grantsOfRows, normaliseGrants, List.mem_map, List.mem_filterMap]
  constructor
  · intro ⟨⟨_, _⟩, ⟨⟨database', name⟩, hrow, hkept⟩, hgrant⟩
    cases hread : ofValue name with
    | error f => simp [hread] at hkept
    | ok t' =>
        simp only [hread, Option.some.injEq, Prod.mk.injEq] at hkept
        obtain ⟨rfl, rfl⟩ := hkept
        simp only [Grant.mk.injEq] at hgrant
        obtain ⟨rfl, hname⟩ := hgrant
        exact ⟨name, hrow, fullName_injective hname ▸ hread⟩
  · intro ⟨name, hrow, hread⟩
    exact ⟨(database, t.fullName), ⟨(database, name), hrow, by simp [hread]⟩, rfl⟩

end Grants

/-! ## Requests and joins -/

namespace Gate

/-- The gate goes by the table that a name is read as. -/
theorem authorize_canonical {m : Type → Type} [Monad m] [MonadExceptOf Fault m] (g : Gate) (bypass : Bool)
    (tableExists : TableRef → m Bool) (database s : String) :
    g.authorize bypass tableExists database (.text (canonical s)) =
      g.authorize bypass tableExists database (.text s) := by
  have hname : ofValue (.text (canonical s)) = ofValue (.text s) := ofText_canonical s
  unfold authorize
  rw [hname]

/-- A table that is hidden does not come through the gate, by whatever name. -/
theorem not_authorized_of_hidden {σ : Type} {g : Gate} {database s : String} {t : TableRef}
    (hname : ofText s = .ok t) (hhidden : g.maySee database t.fullName = false)
    (tableExists : TableRef → Exchange σ Bool) (l : Link σ) (u : TableRef) :
    ((g.authorize false tableExists database (.text s)).runOn l).1 ≠ .ok u := by
  intro h
  rcases hrun : (g.authorize false tableExists database (.text s)).runOn l with ⟨outcome, m⟩
  rw [hrun] at h
  obtain rfl : outcome = .ok u := h
  rw [authorize_eq, hname] at hrun
  obtain ⟨_, _, hlift, hrun⟩ := Exchange.of_runOn_bind hrun
  cases hlift
  obtain ⟨_, _, -, hrun⟩ := Exchange.of_runOn_bind hrun
  obtain ⟨_, _, -, hrun⟩ := Exchange.of_runOn_bind hrun
  obtain ⟨_, _, -, hrun⟩ := Exchange.of_runOn_bind hrun
  obtain ⟨_, _, -, hrun⟩ := Exchange.of_runOn_bind hrun
  obtain ⟨_, _, -, hrun⟩ := Exchange.of_runOn_bind hrun
  rw [hhidden] at hrun
  cases hrun

/-- The gate opens a table that exists by whatever name, to who needs a grant of it only if a row of the grants has a
name of the table. -/
theorem authorize_grantsOfRows {σ : Type} {policy : Policy} {user : User} {rows : List (Value × Value)}
    {visible : Option Visibility} {database s : String} {t : TableRef} {tableExists : TableRef → Exchange σ Bool}
    {l : Link σ} (bypass : Bool) (hname : ofText s = .ok t) :
    let g : Gate := ⟨policy, user, grantsOfRows rows, visible⟩
    g.hasRoleName = true → g.hasGrantKeys = true → ((tableExists t).runOn l).1 = .ok true →
      (((g.authorize bypass tableExists database (.text s)).runOn l).1 = .ok t ↔
        (g.Confines → ∃ name, (.text database, name) ∈ rows ∧ ofValue name = .ok t) ∧
          (bypass = true ∨ ¬ g.Hides database t)) := by
  intro g hrole hgrants hexists
  have hread : g.mayRead database t.fullName = true ↔
      (g.Confines → ∃ name, (.text database, name) ∈ rows ∧ ofValue name = .ok t) := by
    rw [mayRead_iff, Grants, ← mem_grantsOfRows_iff]
  rw [← authorize_canonical, canonical_of_ok hname, runOn_authorize hrole hgrants hexists, ← hread, ← maySee_iff]
  cases g.mayRead database t.fullName <;> cases bypass <;> cases g.maySee database t.fullName <;> simp

end Gate

/-- The request with the canonical name of its table. -/
def Request.canonical : Request → Request
  | .columns database table => .columns database (TableRef.canonical table)
  | .rows q page => .rows { q with table := TableRef.canonical q.table } page
  | .exportCheck q => .exportCheck { q with table := TableRef.canonical q.table }
  | .exportPage q page patience => .exportPage { q with table := TableRef.canonical q.table } page patience
  | .exportAll q patience => .exportAll { q with table := TableRef.canonical q.table } patience
  | q => q

namespace Browser

variable {σ : Type} [Server σ] (b : Browser) (r : Requester)

theorem authorize_canonical (c : Connection) (database s : String) :
    (b.authorize r c database (canonical s) : Exchange σ _) = b.authorize r c database s :=
  Gate.authorize_canonical ..

theorem prepare_canonical (c : Connection) (q : TableRequest) :
    (b.prepare r c { q with table := canonical q.table } : Exchange σ _) = b.prepare r c q := by
  unfold prepare
  rw [authorize_canonical]

theorem fetchPage_canonical (q : TableRequest) (page : Value) :
    (b.fetchPage r { q with table := canonical q.table } page : Exchange σ _) = b.fetchPage r q page := by
  unfold fetchPage
  simp only [prepare_canonical]

theorem prepareCount_canonical (q : TableRequest) :
    (b.prepareCount r { q with table := canonical q.table } : Exchange σ _) = b.prepareCount r q := by
  unfold prepareCount
  simp only [prepare_canonical]

end Browser

/-- Requests that differ in the name of their table only have the same answer, and so have they the same effects. -/
theorem Desk.answer_canonical {σ : Type} [Server σ] (d : Desk) (r : Requester) (q : Request) :
    (d.answer r q.canonical : Exchange σ Reply) = d.answer r q := by
  cases q with
  | tables | block => rfl
  | columns database table =>
      simp only [Request.canonical, answer, Browser.listColumns, Browser.authorize_canonical]
  | rows q page => simp only [Request.canonical, answer, Browser.fetchRows, Browser.fetchPage_canonical]
  | exportCheck q =>
      simp only [Request.canonical, answer, Browser.exportCheck]
      rw [← Browser.prepareCount_canonical (q := { q with sort := [] })]
  | exportPage q page patience =>
      simp only [Request.canonical, answer, Browser.exportPage, Browser.fetchPage_canonical]
  | exportAll q patience =>
      simp only [Request.canonical, answer, Browser.exportAll, Browser.prepareCount_canonical]

/-- The chain with the canonical names of its tables. -/
def JoinSpec.canonical : JoinSpec → JoinSpec
  | mk table columns type none => mk (TableRef.canonical table) columns type none
  | mk table columns type (some next) => mk (TableRef.canonical table) columns type (some next.canonical)

theorem JoinSpec.hops_canonical (j : JoinSpec) : j.canonical.hops = j.hops.map JoinSpec.canonical := by
  induction j using JoinSpec.canonical.induct with
  | case1 table columns type => simp [hops, JoinSpec.canonical]
  | case2 table columns type next ih => simp [hops, JoinSpec.canonical, ih]

namespace JoinPlan

variable {m : Type → Type} [Monad m] [MonadExceptOf Fault m] {source : JoinSource m}

theorem buildHop_canonical (h : ∀ s, source.authorize (TableRef.canonical s) = source.authorize s)
    (left : PlannedTable) (hop : Hop) (j : JoinSpec) :
    buildHop source left hop j.canonical = buildHop source left hop j := by
  rcases j with ⟨table, columns, type, _ | next⟩ <;>
    simp only [JoinSpec.canonical, buildHop, hopForm, JoinSpec.table, JoinSpec.columns, JoinSpec.type, h]

theorem buildHops_canonical (h : ∀ s, source.authorize (TableRef.canonical s) = source.authorize s)
    (left : PlannedTable) (places : List Hop) (chain : List JoinSpec) :
    buildHops source left places (chain.map JoinSpec.canonical) = buildHops source left places chain := by
  induction chain generalizing left places with
  | nil => rfl
  | cons j chain ih =>
      cases places with
      | nil => rfl
      | cons hop places => simp only [List.map_cons, buildHops, buildHop_canonical h, ih]

theorem build_canonical (h : ∀ s, source.authorize (TableRef.canonical s) = source.authorize s) (main : TableRef)
    (columns : List Value) (join : Option JoinSpec) :
    build source main columns (join.map JoinSpec.canonical) = build source main columns join := by
  have hchain : JoinSpec.hopsOf (join.map JoinSpec.canonical) = (JoinSpec.hopsOf join).map JoinSpec.canonical := by
    cases join with
    | none => rfl
    | some j => exact j.hops_canonical
  simp only [build, hchain, List.length_map, buildHops_canonical h]

end JoinPlan

namespace Reporter

/-- The blocks of a report pass the same gates, whichever names their tables have. -/
theorem plan_canonical {σ : Type} [Server σ] (p : Reporter) (r : Requester) (c : Connection) (s : BlockSource) :
    (p.plan r c { s with table := TableRef.canonical s.table, join := s.join.map JoinSpec.canonical } : Exchange σ _) =
      p.plan r c s := by
  have hgate : ∀ name, (Catalog.joinSource c (p.gate r) true s.database : JoinSource (Exchange σ)).authorize
      (TableRef.canonical name) = (Catalog.joinSource c (p.gate r) true s.database).authorize name :=
    fun name => Gate.authorize_canonical ..
  simp only [plan, hgate, JoinPlan.build_canonical hgate]

end Reporter

/-! ## Settings -/

theorem SettingsStore.get_set (s : SettingsStore) (database table : String) (settings : TableSettings) :
    (s.set database table settings).get database table = some settings := by
  simp [get, set, Entries.get?_put]

theorem Service.settings_setSettings {σ : Type} (database table : String) (settings : TableSettings) (s : Service σ) :
    ((setSettings database table settings).runOn s).2.settings = s.settings.set database table settings := by
  simp only [setSettings, Action.runOn_bind, Action.runOn_modify, Action.runOn_get, runOn_persist]
  generalize filesWith _ _ _ = files
  cases files <;> rfl

namespace Http

variable {σ : Type} [Server σ] {v v' : Value} {change : SettingsChange}

/-- Settings are posted for the table that the name in the body is read as. -/
theorem changeTableSettings_canonical (r : Request) (places : List String)
    (h : bodyRecord SettingsChange.fields v = .ok change)
    (h' : bodyRecord SettingsChange.fields v' = .ok { change with table := TableRef.canonical change.table }) :
    (changeTableSettings r places (some v') : Handler σ Response) = changeTableSettings r places (some v) := by
  simp only [changeTableSettings, inBody, inDocument, h, h', Checked.within, Handler.valid, pure_bind,
    TableRef.ofText_canonical]

/-- An administrator is let in and a table is named: then the settings of the table are those of the body, whether
their file can be written or not. -/
theorem settings_changeTableSettings {r : Request} {s : Service σ} {q : Requester} {t : TableRef}
    (hadmin : (r.admin.runOn s).1 = .ok (.ok q)) (places : List String)
    (hbody : bodyRecord SettingsChange.fields v = .ok change) (hname : TableRef.ofText change.table = .ok t) :
    ((changeTableSettings r places (some v)).runOn s).2.settings =
      s.settings.set change.database t.fullName change.settings := by
  obtain ⟨hasked, -⟩ := admits_admin r s
  have hsame := hasked.quiet.sameStores.settings
  rcases hrun : r.admin.runOn s with ⟨outcome, m⟩
  rw [hrun] at hadmin hsame
  obtain rfl : outcome = .ok (.ok q) := hadmin
  have hposted : changeTableSettings r places (some v) = (do
      discard r.admin
      Handler.act (Service.setSettings change.database t.fullName change.settings)
      Handler.confirm [("key", .text (SettingsStore.key change.database t.fullName)),
        ("settings", change.settings.toValue)] : Handler σ Response) := by
    simp only [changeTableSettings, inBody, inDocument, hbody, Checked.within, Handler.valid, pure_bind, hname]
    rfl
  obtain ⟨outcome, -, hact⟩ := Handler.runOn_act_bind
    (Service.setSettings change.database t.fullName change.settings : Action σ Unit) fun _ =>
      Handler.stateless_confirm [("key", .text (SettingsStore.key change.database t.fullName)),
        ("settings", change.settings.toValue)]
  rw [hposted, Handler.discard_bind, Handler.runOn_bind, hrun]
  dsimp only
  rw [hact, Service.settings_setSettings, hsame]

end Http

/-! ## Every name of a table -/

/-- Texts that name a table are identifiers, alone or two joined by a dot, and others are declined.  No two tables share
a canonical name or their query text.  Grants are kept by canonical names, in order.  Requests and reports go the same
way under the canonical name, a grant under either name counts for both, and so do the settings of a table. -/
theorem canonical_names {σ : Type} [Server σ] :
    (∀ s, ((∃ t, ofText s = .ok t) ↔
        IsName s ∨ ∃ schema table, IsName schema ∧ IsName table ∧ s = schema ++ "." ++ table) ∧
      ((∃ t, ofText s = .ok t) ∨ ∃ role name, ofText s = refuse (.invalidIdentifier role name))) ∧
    (∀ s t, (ofText s = .ok t ↔ s = t.fullName ∨ (t.schema = defaultSchema ∧ s = t.table.name)) ∧
      (ofText s = .ok t → TableRef.canonical s = t.fullName ∧ ofText t.fullName = .ok t)) ∧
    Function.Injective TableRef.fullName ∧ Function.Injective TableRef.sql ∧
    (∀ rows : List (Value × Value),
      List.Forall₂ (fun row grant => grant.1 = row.1 ∧ ∃ t, ofValue row.2 = .ok t ∧ grant.2 = t.fullName)
        (rows.filter fun row => (ofValue row.2).isOk) (normaliseGrants rows) ∧
      normaliseGrants ((normaliseGrants rows).map fun grant => (grant.1, .text grant.2)) = normaliseGrants rows ∧
      grantsOfRows (rows.map fun row => (row.1, canonicalValue row.2)) = grantsOfRows rows) ∧
    (∀ (policy : Policy) (user : User) rows visible bypass (tableExists : TableRef → Exchange σ Bool) database s t l,
      let g : Gate := ⟨policy, user, grantsOfRows rows, visible⟩
      ofText s = .ok t → g.hasRoleName = true → g.hasGrantKeys = true → ((tableExists t).runOn l).1 = .ok true →
        (((g.authorize bypass tableExists database (.text s)).runOn l).1 = .ok t ↔
          (g.Confines → ∃ name, (.text database, name) ∈ rows ∧ ofValue name = .ok t) ∧
            (bypass = true ∨ ¬ g.Hides database t))) ∧
    (∀ (g : Gate) bypass (tableExists : TableRef → Exchange σ Bool) database s,
      g.authorize bypass tableExists database (.text (TableRef.canonical s)) =
        g.authorize bypass tableExists database (.text s)) ∧
    (∀ (d : Desk) (u : Requester) (q : Request), (d.answer u q.canonical : Exchange σ Reply) = d.answer u q) ∧
    (∀ (p : Reporter) (u : Requester) (c : Connection) (source : BlockSource),
      (p.plan u c { source with
          table := TableRef.canonical source.table
          join := source.join.map JoinSpec.canonical } : Exchange σ JoinPlan) = p.plan u c source) ∧
    ∀ (r : Http.Request) places v (change : Http.SettingsChange),
      Http.bodyRecord Http.SettingsChange.fields v = .ok change →
      (∀ v', Http.bodyRecord Http.SettingsChange.fields v' =
          .ok { change with table := TableRef.canonical change.table } →
        (Http.changeTableSettings r places (some v') : Http.Handler σ Http.Response) =
          Http.changeTableSettings r places (some v)) ∧
      ∀ (s : Service σ) q t, (r.admin.runOn s).1 = .ok (.ok q) → ofText change.table = .ok t →
        let after := ((Http.changeTableSettings r places (some v)).runOn s).2
        after.settings.get change.database t.fullName = some change.settings ∧
        ∀ (b : Browser) (u : Requester), b.settings = after.settings →
          ((b.gate u).Hides change.database t ↔ ¬ (b.gate u).Unveils ∧ change.settings.isVisible = false) ∧
          ((b.gate u).Hides change.database t → ∀ name (tableExists : TableRef → Exchange σ Bool) l opened,
            ofText name = .ok t →
              (((b.gate u).authorize false tableExists change.database (.text name)).runOn l).1 ≠ .ok opened) := by
  refine ⟨fun s => ⟨exists_ofText_iff, isOk_or_refused s⟩, fun s t => ⟨ofText_eq_ok_iff, fun hname => ?_⟩,
    fullName_injective, sql_injective, fun rows => ?_, ?_, fun g => g.authorize_canonical, Desk.answer_canonical,
    Reporter.plan_canonical, fun r places v change hbody => ⟨fun v' => ?_, fun s q t hadmin hname => ?_⟩⟩
  · exact ⟨canonical_of_ok hname, ofText_fullName t⟩
  · exact ⟨normaliseGrants_kept rows, normaliseGrants_again rows, grantsOfRows_canonical rows⟩
  · intro policy user rows visible bypass tableExists database s t l g hname
    exact Gate.authorize_grantsOfRows bypass hname
  · exact Http.changeTableSettings_canonical r places hbody
  · intro after
    have hafter : after.settings.get change.database t.fullName = some change.settings := by
      rw [Http.settings_changeTableSettings hadmin places hbody hname, SettingsStore.get_set]
    refine ⟨hafter, fun b u hb => ?_⟩
    have hflag : b.settings.isVisible change.database t.fullName = change.settings.isVisible := by
      rw [hb, SettingsStore.isVisible, hafter]
    have hhides : (b.gate u).Hides change.database t ↔
        ¬ (b.gate u).Unveils ∧ change.settings.isVisible = false := by
      rw [← hflag]
      simp [Gate.Hides, Browser.gate]
    refine ⟨hhides, fun h name tableExists l opened hread => ?_⟩
    have hhidden : (b.gate u).maySee change.database t.fullName = false :=
      Bool.eq_false_iff.mpr fun hsee => Gate.maySee_iff.mp hsee h
    exact Gate.not_authorized_of_hidden hread hhidden tableExists l opened

/-- A customer has a grant of the orders by their own name, and the gate opens them by the full name.  Then they are
hidden by the full name, and the gate opens them by neither. -/
theorem canonical_names_of_orders :
    let root : User := ⟨"root", .text "root@example.com", .text "admin", true⟩
    let customer : User := ⟨"7", .text "7@example.com", .text "external_customer", true⟩
    let orders : TableRef := ⟨defaultSchema, ⟨"orders", by decide⟩⟩
    let grants : List (Value × Value) := [(.text "Prod", .text "orders")]
    let s : Service Unit := { Service.bare with directory := .ofUsers [(root, [])] }
    let r : Http.Request := { method := "POST", path := "/api/admin/table-settings", user := some "root" }
    let body : Value :=
      .dict [("database", .text "Prod"), ("tableName", .text "public.orders"), ("isVisible", .bool false)]
    let after := ((Http.changeTableSettings r [] (some body)).runOn s).2
    let answer (settings : SettingsStore) (name : String) :=
      (((Browser.mk .standard settings 50 1000 (.int 30000)).gate ⟨customer, grantsOfRows grants, .null⟩).authorize
        false (fun _ => pure true : TableRef → Exchange Unit Bool) "Prod" (.text name)).runOn ⟨(), 0, [], ⟨[], {}, []⟩⟩
    ofText "orders" = .ok orders ∧ ofText "public.orders" = .ok orders ∧
      (answer s.settings "public.orders").1 = .ok orders ∧
      after.settings.get "Prod" "public.orders" = some ⟨false, none, []⟩ ∧
      (answer after.settings "orders").1 ≠ .ok orders ∧ (answer after.settings "public.orders").1 ≠ .ok orders := by
  intro root customer orders grants s r body after answer
  have hown : ofText "orders" = .ok orders := rfl
  have hfull : ofText "public.orders" = .ok orders := rfl
  have hbody : Http.bodyRecord Http.SettingsChange.fields body = .ok ⟨"Prod", "public.orders", ⟨false, none, []⟩⟩ := rfl
  have hadmin : (r.admin.runOn s).1 = .ok (.ok ⟨root, [], .null⟩) := rfl
  obtain ⟨-, -, -, -, -, hgate, -, -, -, hsettings⟩ := canonical_names (σ := Unit)
  have hset := (hsettings r [] body _ hbody).2 s _ orders hadmin hfull
  -- From here on only what is stored matters, not the run of the endpoint that stored it.
  change after.settings.get _ _ = _ ∧ ∀ (b : Browser) u, b.settings = after.settings → _ at hset
  clear_value after
  obtain ⟨hafter, hflag⟩ := hset
  obtain ⟨hhides, hbarred⟩ :=
    hflag (Browser.mk .standard after.settings 50 1000 (.int 30000)) ⟨customer, grantsOfRows grants, .null⟩ rfl
  have hveiled : (Policy.standard.role customer.role).seesHidden ≠ true := by decide +kernel
  have hhidden := hhides.mpr ⟨mt Gate.seesHidden_iff.mpr hveiled, rfl⟩
  refine ⟨hown, hfull, ?_, hafter, hbarred hhidden _ _ _ _ hown, hbarred hhidden _ _ _ _ hfull⟩
  apply (hgate .standard customer grants _ false _ "Prod" "public.orders" orders _ hfull rfl rfl rfl).mpr
  exact ⟨fun _ => ⟨_, List.mem_singleton.mpr rfl, hown⟩, .inr (Gate.maySee_iff.mp rfl)⟩

end TableSteward

import TableSteward.Proofs.Clearance

/-!
# Non-disclosure

A restricted requester learns nothing of tables that were not granted, not even whether they exist.  The
databases are hosts: one of them holds tables, the catalog answers from what it holds, and everything else is
answered by a system that is shown the tables a statement names and nothing more of that database.  Two hosts
that hold the same granted tables, in the same order, are paired, whatever else they hold.
-/
set_option autoImplicit false

namespace TableSteward

open Exchange

/-! ## Hosts -/

def Statement.tables : Statement → List TableRef
  | .columns t | .primaryKey t => [t]
  | s => (s.plan?.map fun p => p.tables.map PlannedTable.ref).getD []

structure HeldTable (δ : Type) where
  schema : String
  table : String
  /-- Listings of base tables pass over some tables that exist. -/
  listed : Bool
  /-- Its columns, primary key and rows. -/
  content : δ

namespace HeldTable

variable {δ : Type}

def fullName (t : HeldTable δ) : String := t.schema ++ "." ++ t.table

def row (t : HeldTable δ) : Row := [("table_schema", .text t.schema), ("table_name", .text t.table)]

def listing (t : HeldTable δ) : Listing := ⟨.text t.schema, .text t.table⟩

def isNamed (ref : TableRef) (t : HeldTable δ) : Bool :=
  t.schema == ref.schema.name && t.table == ref.table.name

end HeldTable

/-- Databases whose answers depend on a state, on the call, and on the contents of the tables of one database
that the call names. -/
structure Host (τ δ : Type) where
  respond : τ → Call → List (Option δ) → Option (List Row) × τ
  database : String
  contents : List (HeldTable δ)
  state : τ

namespace Host

variable {τ δ : Type}

def find (h : Host τ δ) (ref : TableRef) : Option (HeldTable δ) :=
  h.contents.find? (HeldTable.isNamed ref)

/-- The contents that are shown to the system for a call. -/
def shown (h : Host τ δ) : Call → List (Option δ)
  | .execute c s =>
      if c.site = .browsed h.database then s.tables.map fun t => (h.find t).map HeldTable.content else []
  | _ => []

/-- What the catalog says about which tables there are. -/
def catalog? (h : Host τ δ) : Call → Option (List Row)
  | .execute c (.tableExists ref) =>
      if c.site = .browsed h.database then
        some ((h.find ref).map fun t => [("table_name", .text t.table)]).toList
      else none
  | .execute c .listTables =>
      if c.site = .browsed h.database then some ((h.contents.filter HeldTable.listed).map HeldTable.row)
      else none
  | _ => none

/-- The catalog has the word if the system does not fail. -/
def answer (h : Host τ δ) (call : Call) : Option (List Row) × Host τ δ :=
  let (answer, state) := h.respond h.state call (h.shown call)
  (answer.map fun rows => (h.catalog? call).getD rows, { h with state := state })

instance : Server (Host τ δ) := ⟨answer⟩

end Host

/-! ## Paired hosts -/

/-- Two hosts that hold the same tables as far as the gate has them granted. -/
structure Host.Agree {τ δ : Type} (g : Gate) (h k : Host τ δ) : Prop where
  respond : h.respond = k.respond
  database : h.database = k.database
  state : h.state = k.state
  contents : h.contents.filter (fun t => g.isGranted h.database t.fullName) =
    k.contents.filter (fun t => g.isGranted h.database t.fullName)

namespace Host.Agree

variable {τ δ : Type} {g : Gate} {h k : Host τ δ}

theorem find_eq (hagree : h.Agree g k) {ref : TableRef}
    (hgranted : g.isGranted h.database ref.fullName = true) : h.find ref = k.find ref := by
  have hfilter : ∀ contents : List (HeldTable δ),
      (contents.filter fun t => g.isGranted h.database t.fullName).find? (HeldTable.isNamed ref) =
        contents.find? (HeldTable.isNamed ref) := by
    intro contents
    rw [List.find?_filter]
    congr 1
    funext t
    by_cases hnamed : t.isNamed ref = true
    · obtain ⟨hschema, htable⟩ := Bool.and_eq_true_iff.mp hnamed
      have hname : t.fullName = ref.fullName := by
        unfold HeldTable.fullName TableRef.fullName
        rw [eq_of_beq hschema, eq_of_beq htable]
      simp [hname, hgranted, hnamed]
    · simp [hnamed]
  unfold Host.find
  rw [← hfilter, hagree.contents, hfilter]

theorem shown_eq (hagree : h.Agree g k) {call : Call}
    (hnamed : ∀ c s, call = .execute c s → c.site = .browsed h.database → ∀ t ∈ s.tables,
      g.isGranted h.database t.fullName = true) : h.shown call = k.shown call := by
  cases call with
  | execute c s =>
      unfold Host.shown
      simp only [← hagree.database]
      by_cases hsite : c.site = .browsed h.database
      · rw [if_pos hsite, if_pos hsite]
        apply List.map_congr_left
        intro t ht
        rw [hagree.find_eq (hnamed c s rfl hsite t ht)]
      · rw [if_neg hsite, if_neg hsite]
  | connect _ | begin _ | commit _ | rollback _ => rfl

theorem listing_eq (hagree : h.Agree g k) (hrestricted : g.role.tier = .restricted) :
    g.browsable h.database ((h.contents.filter HeldTable.listed).map HeldTable.listing) =
      g.browsable h.database ((k.contents.filter HeldTable.listed).map HeldTable.listing) := by
  have hread : ∀ name, g.mayRead h.database name = g.isGranted h.database name := by
    intro name
    unfold Gate.mayRead
    rw [hrestricted]
    rfl
  have hfilter : ∀ contents : List (HeldTable δ),
      ((contents.filter HeldTable.listed).map HeldTable.listing).filter
          (fun l => g.mayRead h.database l.fullName && g.maySee h.database l.fullName) =
        (((contents.filter fun t => g.isGranted h.database t.fullName).filter
          fun t => t.listed && g.maySee h.database t.fullName).map HeldTable.listing) := by
    intro contents
    rw [List.filter_map, List.filter_filter, List.filter_filter]
    congr 2
    funext t
    change (g.mayRead h.database t.fullName && g.maySee h.database t.fullName && t.listed) = _
    rw [hread, Bool.and_assoc, Bool.and_comm _ t.listed, Bool.and_comm]
  unfold Gate.browsable
  rw [hfilter, hfilter, hagree.contents]

/-- Hosts that agree answer alike, apart from what their catalogs say, and still agree. -/
theorem answer_alike (hagree : h.Agree g k) {call : Call} (hshown : h.shown call = k.shown call)
    {rel : List Row → List Row → Prop}
    (hcatalog : ∀ rows, rel ((h.catalog? call).getD rows) ((k.catalog? call).getD rows)) :
    Option.Rel rel (Server.answer h call).1 (Server.answer k call).1 ∧
      Host.Agree g (Server.answer h call).2 (Server.answer k call).2 := by
  obtain ⟨hrespond, hdatabase, hstate, hcontents⟩ := hagree
  change Option.Rel rel (h.answer call).1 (k.answer call).1 ∧
    Host.Agree g (h.answer call).2 (k.answer call).2
  unfold Host.answer
  rw [← hrespond, ← hstate, ← hshown]
  rcases h.respond h.state call (h.shown call) with ⟨answer, state⟩
  refine ⟨?_, rfl, hdatabase, rfl, hcontents⟩
  cases answer with
  | none => exact .none
  | some rows => exact .some (hcatalog rows)

end Host.Agree

theorem Statement.tables_eq {s : Statement} {p : JoinPlan} (hs : s.isData = true)
    (hp : s.plan? = some p) : s.tables = p.tables.map PlannedTable.ref := by
  cases s with
  | columns _ | primaryKey _ => exact nomatch hs
  | _ => exact congrArg (fun plan => (plan.map fun p => p.tables.map PlannedTable.ref).getD []) hp

theorem Statement.of_telling {s : Statement} (htelling : s.isTelling = true) (hdata : ¬ s.isData = true) :
    ∃ ref, s = .columns ref ∨ s = .primaryKey ref := by
  cases s with
  | columns ref => exact ⟨ref, Or.inl rfl⟩
  | primaryKey ref => exact ⟨ref, Or.inr rfl⟩
  | _ => exact absurd htelling hdata

theorem Statement.isTelling_of_tables {s : Statement} {t : TableRef} (ht : t ∈ s.tables) :
    s.isTelling = true := by
  cases s with
  | columns _ | primaryKey _ | count _ | page _ _ | declareCursor _ | chart _ | metric _ | given _ => rfl
  | _ => exact nomatch ht

namespace Host

variable {τ δ : Type} {A : Account} {g : Gate}

theorem catalog?_eq_none (h : Host τ δ) {call : Call}
    (hprobe : ∀ c s, call = .execute c s → s.isProbe = false) : h.catalog? call = none := by
  cases call with
  | execute c s =>
      cases s with
      | tableExists _ | listTables => exact nomatch hprobe c _ rfl
      | _ => rfl
  | connect _ | begin _ | commit _ | rollback _ => rfl

theorem mapM_ofRow (ts : List (HeldTable δ)) :
    (ts.map HeldTable.row).mapM Listing.ofRow = .ok (ts.map HeldTable.listing) := by
  induction ts with
  | nil => rfl
  | cons t rest ih =>
      rw [List.map_cons, List.mapM_cons, ih]
      rfl

/-- Hosts that agree on what is granted, for an account that allows statements on granted tables only. -/
def pairing (hrestricted : g.role.tier = .restricted) (hkeys : g.hasGrantKeys = true)
    (hA : ∀ js c s database, A js c s → c.site = .browsed database → ∀ t ∈ s.tables,
      g.isGranted database t.fullName = true) : Pairing (Host τ δ) (Host τ δ) A g where
  related := Host.Agree g
  agree := by
    intro h k hagree call js hallowed
    have hshown : h.shown call = k.shown call := by
      apply hagree.shown_eq
      intro c s hcall hsite t ht
      have htelling := Statement.isTelling_of_tables ht
      exact hA js c s _ ((hallowed c s hcall).2 htelling) hsite t ht
    refine hagree.answer_alike hshown fun rows => ?_
    have hprobe : ∀ c s, call = .execute c s → s.isProbe = false :=
      fun c s hcall => (hallowed c s hcall).1
    rw [h.catalog?_eq_none hprobe, k.catalog?_eq_none hprobe]
  probe := by
    intro h k hagree c ref
    have hshown : h.shown (.execute c (.tableExists ref)) = k.shown (.execute c (.tableExists ref)) :=
      hagree.shown_eq (by rintro _ _ ⟨⟩ _ t ht; exact nomatch ht)
    refine hagree.answer_alike hshown fun rows => ?_
    unfold catalog?
    simp only [← hagree.database]
    by_cases hsite : c.site = .browsed h.database
    · simp only [if_pos hsite]
      by_cases hgranted : g.isGranted h.database ref.fullName = true
      · left
        rw [hagree.find_eq hgranted]
      · right
        refine ⟨hkeys, ?_⟩
        intro database hdatabase
        obtain rfl : h.database = database := by
          rw [hsite] at hdatabase
          exact Site.browsed.inj hdatabase
        unfold Gate.mayRead
        rw [hrestricted]
        simpa using hgranted
    · left
      simp only [if_neg hsite]
  listing := by
    intro h k hagree c
    have hshown : h.shown (.execute c .listTables) = k.shown (.execute c .listTables) :=
      hagree.shown_eq (by rintro _ _ ⟨⟩ _ t ht; exact nomatch ht)
    refine hagree.answer_alike hshown fun rows => ?_
    unfold catalog?
    simp only [← hagree.database]
    by_cases hsite : c.site = .browsed h.database
    · right
      simp only [if_pos hsite]
      refine ⟨_, _, mapM_ofRow _, mapM_ofRow _, ?_⟩
      intro database hdatabase
      obtain rfl : h.database = database := by
        rw [hsite] at hdatabase
        exact Site.browsed.inj hdatabase
      exact hagree.listing_eq hrestricted
    · left
      simp only [if_neg hsite]

end Host

/-! ## Runs of requests -/

def Grant.ofNames (names : String × String) : Grant := ⟨.text names.1, names.2⟩

section Grants

variable {g : Gate} {grants : List (String × String)}

theorem Gate.hasGrantKeys_ofNames (hgrants : g.grants = grants.map Grant.ofNames) :
    g.hasGrantKeys = true := by
  unfold Gate.hasGrantKeys
  rw [hgrants, List.all_map]
  exact List.all_eq_true.mpr fun _ _ => rfl

theorem Gate.isGranted_ofNames (hgrants : g.grants = grants.map Grant.ofNames)
    (database fullName : String) :
    g.isGranted database fullName = decide ((database, fullName) ∈ grants) := by
  unfold Gate.isGranted
  rw [hgrants, List.any_map, Bool.eq_iff_iff, decide_eq_true_eq, List.any_eq_true]
  constructor
  · rintro ⟨⟨stored, table⟩, hmem, hkeys⟩
    obtain ⟨hdatabase, htable⟩ := Bool.and_eq_true_iff.mp hkeys
    obtain rfl : stored = database := eq_of_beq hdatabase
    obtain rfl : table = fullName := eq_of_beq htable
    exact hmem
  · intro hmem
    refine ⟨_, hmem, Bool.and_eq_true_iff.mpr ⟨?_, ?_⟩⟩
    · exact beq_self_eq_true database
    · exact beq_self_eq_true fullName

end Grants

theorem Errand.granted_of_allows {w : Errand} (hrestricted : w.gate.role.tier = .restricted)
    {js : List Entry} {c : Connection} {s : Statement} {database : String} (h : w.account js c s)
    (hsite : c.site = .browsed database) :
    ∀ t ∈ s.tables, w.gate.isGranted database t.fullName = true := by
  obtain rfl : w.database = database := Site.browsed.inj (h.site.symm.trans hsite)
  have hgranted : ∀ t, w.Clears js t → w.gate.isGranted w.database t.fullName = true := by
    intro t ht
    have hread := ht.readable
    unfold Gate.mayRead at hread
    rw [hrestricted] at hread
    exact hread
  intro t ht
  by_cases hdata : s.isData = true
  · obtain ⟨p, key, hgrounds, -, hover⟩ := h.data hdata
    rw [Statement.tables_eq hdata hover.plan?] at ht
    obtain ⟨planned, hplanned, rfl⟩ := List.mem_map.mp ht
    exact hgranted _ (hgrounds.admitted planned hplanned).clears
  · rcases Statement.of_telling (Statement.isTelling_of_tables ht) hdata with ⟨ref, rfl | rfl⟩
    · obtain rfl := List.mem_singleton.mp ht
      exact hgranted _ (h.catalog _ (Or.inl rfl))
    · obtain rfl := List.mem_singleton.mp ht
      exact hgranted _ (h.catalog _ (Or.inr rfl))

theorem Host.agree_withContents {τ δ : Type} {g : Gate} {grants : List (String × String)}
    (hgrants : g.grants = grants.map Grant.ofNames) {h : Host τ δ} {other : List (HeldTable δ)}
    (hsame : h.contents.filter (fun t => (h.database, t.fullName) ∈ grants) =
      other.filter fun t => (h.database, t.fullName) ∈ grants) :
    h.Agree g { h with contents := other } := by
  have hgranted : (fun t : HeldTable δ => g.isGranted h.database t.fullName) =
      fun t => decide ((h.database, t.fullName) ∈ grants) :=
    funext fun t => Gate.isGranted_ofNames hgrants h.database t.fullName
  refine ⟨rfl, rfl, rfl, ?_⟩
  rw [hgranted]
  exact hsame

namespace Desk

/-- A requester who is confined to granted tables gets one answer from two databases that hold the same granted
tables, and the same happens on the connections, whatever else the databases hold. -/
theorem discloses_only_granted_tables {τ δ : Type} (d : Desk) (user : User)
    (grants : List (String × String)) (ip : Value) (q : Request) (l : Link (Host τ δ))
    (other : List (HeldTable δ)) (hconfined : d.Confines ⟨user, grants.map Grant.ofNames, ip⟩)
    (hsame : l.server.contents.filter (fun t => (l.server.database, t.fullName) ∈ grants) =
      other.filter fun t => (l.server.database, t.fullName) ∈ grants) :
    let r : Requester := ⟨user, grants.map Grant.ofNames, ip⟩
    let m : Link (Host τ δ) := { l with server := { l.server with contents := other } }
    ((d.answer r q).runOn l).1 = ((d.answer r q).runOn m).1 ∧
      ((d.answer r q).runOn l).2.trace = ((d.answer r q).runOn m).2.trace := by
  intro r m
  have hjournaled := d.answer_journaled r q l
  rw [← hjournaled.1, ← hjournaled.2]
  cases herrand : d.errand? r q with
  | none =>
      have hgrants : (d.browser.gate r).grants = grants.map Grant.ofNames := rfl
      have hrestricted : (d.browser.gate r).role.tier = .restricted :=
        restricted_of_confines rfl rfl hconfined
      have hkept := keeps_answer_without_errand d r herrand
        (P := Host.pairing hrestricted (Gate.hasGrantKeys_ofNames hgrants)
          fun _ _ _ _ hnothing => False.elim hnothing)
        l.journaled m rfl (accounted_nil _) ⟨Host.agree_withContents hgrants hsame, rfl, rfl, rfl⟩
      exact ⟨Same.outcomes_eq hkept.outcomes, hkept.alike.trace⟩
  | some w =>
      obtain ⟨hpolicy, huser, hgrants, -⟩ := gate_of_errand herrand
      have hrestricted : w.gate.role.tier = .restricted := restricted_of_confines hpolicy huser hconfined
      have hkept := keeps_answer d r herrand
        (P := Host.pairing hrestricted (Gate.hasGrantKeys_ofNames hgrants)
          fun _ _ _ _ hallows hsite => Errand.granted_of_allows hrestricted hallows hsite)
        l.journaled m rfl (accounted_nil _) ⟨Host.agree_withContents hgrants hsame, rfl, rfl, rfl⟩
      exact ⟨Same.outcomes_eq hkept.outcomes, hkept.alike.trace⟩

end Desk

/-! ## A table that was not granted -/

namespace Host

/-- The system answers with the content of the first table that it is shown. -/
def first (contents : List (HeldTable (List Row))) : Host Unit (List Row) where
  respond := fun _ _ shown => (some ((shown.head?.bind id).getD []), ())
  database := "Prod"
  contents := contents
  state := ()

def link (contents : List (HeldTable (List Row))) : Link (Host Unit (List Row)) :=
  ⟨first contents, 0, [], ⟨[("Prod", "postgresql://prod")], {}, []⟩⟩

def shared : HeldTable (List Row) := ⟨"public", "t", true, [[("column_name", .text "id")]]⟩

def secret : HeldTable (List Row) := ⟨"public", "secret", true, [[("column_name", .text "salary")]]⟩

end Host

namespace Desk

def standard : Desk := ⟨Policy.standard, {}, {}, 50, 1000, .int 30000⟩

def customer : User := ⟨"7", .text "a@example.com", .text "external_customer", true⟩

/-- A customer who asks for the rows of a table that was not granted is denied access, whether or not there is
such a table. -/
theorem denies_secret_as_missing :
    ((standard.answer ⟨customer, [("Prod", "public.t")].map Grant.ofNames, .null⟩
      (.rows ⟨"Prod", "secret", [], []⟩ (.int 1))).runOn (Host.link [Host.secret, Host.shared])).1 =
        .error (.refused .accessDenied) ∧
      ((standard.answer ⟨customer, [("Prod", "public.t")].map Grant.ofNames, .null⟩
        (.rows ⟨"Prod", "secret", [], []⟩ (.int 1))).runOn (Host.link [Host.shared])).1 =
          .error (.refused .accessDenied) := by
  have hconfined : standard.Confines ⟨customer, [("Prod", "public.t")].map Grant.ofNames, .null⟩ := by
    intro role hrole
    have hcustomer : standard.policy.roles.get? customer.role =
      some ⟨.text "external_customer", .restricted, 10000, false⟩ := by rfl
    obtain rfl := Option.some.inj (hcustomer.symm.trans hrole)
    rfl
  have hsame := (standard.discloses_only_granted_tables customer [("Prod", "public.t")] .null
    (.rows ⟨"Prod", "secret", [], []⟩ (.int 1)) (Host.link [Host.secret, Host.shared]) [Host.shared]
    hconfined (by rfl)).1
  have hdenied : ((standard.answer ⟨customer, [("Prod", "public.t")].map Grant.ofNames, .null⟩
      (.rows ⟨"Prod", "secret", [], []⟩ (.int 1))).runOn (Host.link [Host.secret, Host.shared])).1 =
        .error (.refused .accessDenied) := by rfl
  exact ⟨hdenied, hsame.symm.trans hdenied⟩

end Desk

end TableSteward

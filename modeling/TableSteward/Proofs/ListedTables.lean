import TableSteward.Proofs.Admission
import TableSteward.Proofs.Clearance
import TableSteward.Proofs.ResultColumns

/-!
# The tables that are listed

A listing is cut down to the tables that a user may browse, and a table that is named by its full name is passed on to
the gate.  Both ask for a grant and for the flag of hidden tables, each in its own way.  `listed_iff_authorized` says
that they agree: on tables of the catalog the gate opens just those that are listed, and with visibility set aside it
opens in addition just the hidden tables that are granted.
-/
set_option autoImplicit false

namespace TableSteward

/-! ## Full names -/

namespace TableRef

/-- A table is read again from its full name. -/
theorem ofText_fullName (t : TableRef) : TableRef.ofText t.fullName = .ok t := by
  have hpieces : Text.splitOn '.' t.fullName.toList = [t.schema.name.toList, t.table.name.toList] :=
    Text.splitOn_dotted t.schema.dot_not_mem_name t.table.dot_not_mem_name
  have hnonempty : t.fullName.isEmpty = false := by
    simp [fullName, ← Bool.not_eq_true, String.append_eq_empty_iff]
  unfold ofText
  rw [hnonempty, hpieces]
  simp only [List.map_cons, List.map_nil, String.ofList_toList, Identifier.ofText_name]
  rfl

/-- A table as the catalog lists it. -/
def listing (t : TableRef) : Listing := ⟨.text t.schema.name, .text t.table.name⟩

theorem fullName_listing (t : TableRef) : t.listing.fullName = t.fullName := rfl

end TableRef

namespace Gate

/-! ## The rules -/

/-- The role of the user is restricted, or the policy does not list it. -/
def Confines (g : Gate) : Prop := ∀ role, g.policy.roles.get? g.user.role = some role → role.tier = .restricted

/-- The policy lists the role of the user, and it sees hidden tables. -/
def Unveils (g : Gate) : Prop := ∃ role, g.policy.roles.get? g.user.role = some role ∧ role.seesHidden = true

/-- The rule of grants: who is confined needs a grant of the table. -/
def Grants (g : Gate) (database : String) (t : TableRef) : Prop :=
  g.Confines → ⟨.text database, t.fullName⟩ ∈ g.grants

/-- The rule of hidden tables: visibility is looked at, and it hides the table from who does not see hidden ones. -/
def Hides (g : Gate) (database : String) (t : TableRef) : Prop :=
  ¬ g.Unveils ∧ ∃ visible, g.visible = some visible ∧ visible database t.fullName = false

variable {g : Gate} {database : String} {t : TableRef}

theorem restricted_iff : g.role.tier = .restricted ↔ g.Confines := by
  unfold Gate.role Policy.role Confines
  cases g.policy.roles.get? g.user.role with
  | none => simp
  | some role => simp

theorem seesHidden_iff : g.role.seesHidden = true ↔ g.Unveils := by
  unfold Gate.role Policy.role Unveils
  cases g.policy.roles.get? g.user.role with
  | none => simp
  | some role => simp

theorem isGranted_iff (fullName : String) :
    g.isGranted database fullName = true ↔ ⟨.text database, fullName⟩ ∈ g.grants := by
  constructor
  · exact mem_of_isGranted
  · intro hmem
    have hdatabase : (Value.text database).sameKey (.text database) = true := beq_self_eq_true database
    exact List.any_eq_true.mpr ⟨_, hmem, by rw [hdatabase, beq_self_eq_true fullName]; rfl⟩

theorem mayRead_iff : g.mayRead database t.fullName = true ↔ g.Grants database t := by
  unfold mayRead Grants
  rw [Bool.or_eq_true, bne_iff_ne, isGranted_iff, ← restricted_iff]
  exact imp_iff_not_or.symm

theorem maySee_iff : g.maySee database t.fullName = true ↔ ¬ g.Hides database t := by
  unfold maySee Hides
  rw [Bool.or_eq_true, seesHidden_iff]
  cases g.visible with
  | none => simp
  | some visible => simp [or_iff_not_imp_left]

/-! ## The gate on tables of the catalog -/

variable {σ : Type} {tableExists : TableRef → Exchange σ Bool} {l : Link σ}

/-- Of a table that exists the gate asks for a grant, and for visibility unless this is set aside. -/
theorem runOn_authorize (hrole : g.hasRoleName = true) (hgrants : g.hasGrantKeys = true)
    (hexists : ((tableExists t).runOn l).1 = .ok true) (bypass : Bool) :
    ((g.authorize bypass tableExists database (.text t.fullName)).runOn l).1 =
      if g.mayRead database t.fullName && (bypass || g.maySee database t.fullName) then .ok t
      else .error (.refused .accessDenied) := by
  rcases hrun : (tableExists t).runOn l with ⟨r, l'⟩
  obtain rfl : r = .ok true := by simpa [hrun] using hexists
  have hasked : g.authorize bypass tableExists database (.text t.fullName) = (do
      let found ← tableExists t
      Exchange.require found (.refused .accessDenied)
      Exchange.require (g.mayRead database t.fullName) (.refused .accessDenied)
      Exchange.require (bypass || g.maySee database t.fullName) (.refused .accessDenied)
      return t) := by
    rw [authorize_eq, TableRef.ofText_fullName, hrole, hgrants, Bool.or_true]
    rfl
  rw [hasked, Exchange.runOn_bind, hrun]
  cases g.mayRead database t.fullName <;> cases (bypass || g.maySee database t.fullName) <;> rfl

/-- What is listed is what the gate opens, in the order of the catalog and as often.  With visibility set aside the gate
opens in addition just the hidden tables that are granted. -/
theorem listed_iff_authorized (g : Gate) (hrole : g.hasRoleName = true) (hgrants : g.hasGrantKeys = true)
    (database : String) (tableExists : TableRef → Exchange σ Bool) :
    ∃ shown : TableRef → Bool,
      (∀ refs : List TableRef, g.browsable database (refs.map TableRef.listing) =
        .ok ((refs.filter shown).map TableRef.listing)) ∧
      ∀ t l, ((tableExists t).runOn l).1 = .ok true →
        let answer (bypass : Bool) := ((g.authorize bypass tableExists database (.text t.fullName)).runOn l).1
        (answer false = if shown t then .ok t else .error (.refused .accessDenied)) ∧
        (shown t = true ↔ g.Grants database t ∧ ¬ g.Hides database t) ∧
        (answer true = .ok t ↔ g.Grants database t) ∧
        (answer true ≠ .ok t → answer true = .error (.refused .accessDenied)) ∧
        (answer true = .ok t ∧ answer false ≠ .ok t ↔ g.Hides database t ∧ g.Grants database t) := by
  refine ⟨fun t => g.mayRead database t.fullName && g.maySee database t.fullName, ?_, ?_⟩
  · intro refs
    rw [browsable, hrole, hgrants, Bool.and_self, if_pos rfl, List.filter_map]
    rfl
  · intro t l hexists answer
    have hbrowsed : answer false = _ := runOn_authorize hrole hgrants hexists false
    have hreported : answer true = _ := runOn_authorize hrole hgrants hexists true
    rw [Bool.true_or, Bool.and_true] at hreported
    rw [Bool.false_or] at hbrowsed
    have hhides : g.Hides database t ↔ g.maySee database t.fullName = false := by
      rw [← Bool.not_eq_true, maySee_iff, not_not]
    rw [hbrowsed, hreported, ← mayRead_iff, hhides]
    cases hread : g.mayRead database t.fullName <;> cases hsee : g.maySee database t.fullName <;>
      simp [hread, hsee]

/-- A customer with grants of the orders and of a hidden table.  The listing shows the orders, as often as the catalog
does; a report reads the hidden table too, and nobody the lines, which are not granted. -/
theorem listed_iff_authorized_customer :
    let table (name : String) (h : Name.isIdentifier name = true) : TableRef := ⟨TableRef.defaultSchema, ⟨name, h⟩⟩
    let orders := table "orders" (by decide)
    let hidden := table "margins" (by decide)
    let lines := table "lines" (by decide)
    let g : Gate := ⟨.standard, ⟨"7", .null, .text "external_customer", true⟩,
      [⟨.text "Prod", "public.orders"⟩, ⟨.text "Prod", "public.margins"⟩],
      some fun _ fullName => fullName != "public.margins"⟩
    let tableExists : TableRef → Exchange Unit Bool := fun _ => pure true
    let l : Link Unit := ⟨(), 0, [], ⟨[], {}, []⟩⟩
    let answer (t : TableRef) (bypass : Bool) :=
      ((g.authorize bypass tableExists "Prod" (.text t.fullName)).runOn l).1
    g.hasRoleName = true ∧ g.hasGrantKeys = true ∧ (∀ t, ((tableExists t).runOn l).1 = .ok true) ∧
      g.browsable "Prod" ([orders, hidden, lines, orders].map TableRef.listing) =
        .ok ([orders, orders].map TableRef.listing) ∧
      answer orders false = .ok orders ∧ answer hidden true = .ok hidden ∧ answer hidden false ≠ .ok hidden ∧
      answer lines true = .error (.refused .accessDenied) := by
  intro table orders hidden lines g tableExists l answer
  have hexists : ∀ t, ((tableExists t).runOn l).1 = .ok true := fun _ => rfl
  obtain ⟨shown, hlisted, hanswers⟩ := listed_iff_authorized g rfl rfl "Prod" tableExists
  obtain ⟨hbrowsed, hshown, -⟩ := hanswers orders l (hexists orders)
  obtain ⟨-, hshownHidden, -, -, hreported⟩ := hanswers hidden l (hexists hidden)
  obtain ⟨-, hshownLines, hgrantedLines, hrefused, -⟩ := hanswers lines l (hexists lines)
  have hdenied : ¬ g.Grants "Prod" lines := mt mayRead_iff.mpr (by decide)
  have hhides : g.Hides "Prod" hidden := not_not.mp (mt maySee_iff.mpr (by decide))
  have horders : shown orders = true := hshown.mpr ⟨mayRead_iff.mp rfl, maySee_iff.mp rfl⟩
  have hhidden : shown hidden = false := Bool.eq_false_iff.mpr fun h => (hshownHidden.mp h).2 hhides
  have hlines : shown lines = false := Bool.eq_false_iff.mpr fun h => hdenied (hshownLines.mp h).1
  obtain ⟨hread, hbarred⟩ := hreported.mpr ⟨hhides, mayRead_iff.mp rfl⟩
  refine ⟨rfl, rfl, hexists, ?_, ?_, hread, hbarred, hrefused (mt hgrantedLines.mp hdenied)⟩
  · rw [hlisted]
    simp [horders, hhidden, hlines]
  · rw [horders, if_pos rfl] at hbrowsed
    exact hbrowsed

end Gate

end TableSteward

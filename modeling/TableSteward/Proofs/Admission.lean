import TableSteward.Database.Catalog
import TableSteward.Proofs.Exchange

/-!
# Requirements

The gate, the planner of joins and the catalog end a computation as soon as something that they require is
missing.  Here each of them is given as a plain sequence of requirements and look-ups, so that a law of
sequences applies to it step by step.
-/
set_option autoImplicit false

namespace TableSteward

open Exchange

variable {σ : Type}

/-- The gate asks whether the table exists before it says anything else about it. -/
theorem Gate.authorize_eq (g : Gate) (bypass : Bool) (tableExists : TableRef → Exchange σ Bool)
    (database name : String) :
    g.authorize bypass tableExists database (.text name) = (do
      let t ← lift (TableRef.ofText name)
      require g.hasRoleName .notAKey
      let found ← tableExists t
      require found (.refused .accessDenied)
      require (g.role.tier != .restricted || g.hasGrantKeys) .notAKey
      require (g.mayRead database t.fullName) (.refused .accessDenied)
      require (bypass || g.maySee database t.fullName) (.refused .accessDenied)
      return t) := by
  have hname : TableRef.ofValue (.text name) = TableRef.ofText name := rfl
  unfold Gate.authorize
  rw [hname]
  cases TableRef.ofText name with
  | error f => rfl
  | ok t =>
      have hkeys : (g.role.tier == .restricted && !g.hasGrantKeys) =
          !(g.role.tier != .restricted || g.hasGrantKeys) := by simp [bne]
      have hsee : (!bypass && !g.maySee database t.fullName) =
          !(bypass || g.maySee database t.fullName) := (Bool.not_or _ _).symm
      simp only [hkeys, hsee, throw_bind, throw_if_not, require_bind]
      rfl

/-- A table that is barred is refused in the same words as one that does not exist. -/
theorem Gate.refused_of_bars {α : Type} {g : Gate} {t : TableRef} {database : String} (found : Bool)
    (rest : Exchange σ α) (hkeys : g.hasGrantKeys = true)
    (hread : g.mayRead database t.fullName = false) :
    (do
      require found (.refused .accessDenied)
      require (g.role.tier != .restricted || g.hasGrantKeys) .notAKey
      require (g.mayRead database t.fullName) (.refused .accessDenied)
      rest : Exchange σ α) = throw (.refused .accessDenied) := by
  rw [hkeys, hread, Bool.or_true]
  cases found with
  | true => rfl
  | false => rfl

namespace JoinPlan

theorem lift_eq {α : Type} (r : Result α) : (JoinPlan.lift r : Exchange σ α) = Exchange.lift r := by
  cases r <;> rfl

theorem build_eq (source : JoinSource (Exchange σ)) (main : TableRef) (columns : List Value)
    (join : Option JoinSpec) :
    build source main columns join = (do
      let chain := JoinSpec.hopsOf join
      require (chain.length ≤ depthLimit)
        (.refused (.invalidJoin (.tooDeep chain.length depthLimit)))
      let hops ← buildHops source ⟨.main, main, columns⟩ [.first, .second] chain
      return ⟨⟨.main, main, columns⟩, hops⟩) := by
  unfold build
  simp only [throw_bind, require_bind, decide_eq_true_eq]
  by_cases hdepth : depthLimit < (JoinSpec.hopsOf join).length
  · rw [if_pos hdepth, if_neg (Nat.not_le.mpr hdepth)]
  · rw [if_neg hdepth, if_pos (Nat.not_lt.mp hdepth)]

end JoinPlan

def Listing.ofRow (row : Row) : Result Listing := do
  let schema ← row.cell "table_schema"
  let table ← row.cell "table_name"
  return ⟨schema, table⟩

theorem Catalog.listTables_eq [Server σ] (c : Connection) :
    listTables c = (do
      let rows ← execute c .listTables
      (lift (rows.mapM Listing.ofRow) : Exchange σ _)) := rfl

theorem Catalog.columnInfo_eq [Server σ] (c : Connection) (t : TableRef) :
    columnInfo c t = (do
      let rows ← execute c (.columns t)
      let key ← primaryKey c t
      require (key.all Value.isKey) .notAKey
      (lift (rows.mapM fun row => do
        let name ← row.cell "column_name"
        let dataType ← row.cell "data_type"
        let nullable ← row.cell "is_nullable"
        if !name.isKey then throw .notAKey
        return ⟨name, dataType, isYes nullable, key.any name.sameKey⟩) : Exchange σ _)) := by
  unfold columnInfo Exchange.fail
  simp only [throw_bind, throw_if_not, require_bind]

end TableSteward

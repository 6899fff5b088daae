import TableSteward.Proofs.JoinText
import TableSteward.Proofs.LetterCase

/-!
# Which join chains are accepted

The planner of joins asks a gate for each table and a catalog for its columns.  Here both are arbitrary: their answers
may depend on everything that was asked before.  A chain of at most two hops is accepted just if each hop in turn
passes its checks, and otherwise the first check that fails decides what the chain is refused for and how far the
asking went.
-/
set_option autoImplicit false

namespace TableSteward

/-! ## Authorities -/

/-- A question of the planner: whether a table may be read, or which columns it has. -/
inductive Consultation
  | gate (table : String)
  | catalog (ref : TableRef)
  deriving DecidableEq, Repr

/-- A gate and a catalog, whose answers may depend on the questions before. -/
structure Authority where
  gate : List Consultation → String → Result TableRef
  catalog : List Consultation → TableRef → Result (List Value)

/-- Computations that keep the questions that were asked. -/
abbrev Consulting := ExceptT Fault (StateM (List Consultation))

namespace Consulting

variable {α β : Type}

def runFrom (asked : List Consultation) (x : Consulting α) : Result α × List Consultation :=
  StateT.run (ExceptT.run x) asked

def ask (question : Consultation) (answer : List Consultation → Result α) : Consulting α := do
  let asked ← getThe (List Consultation)
  set (asked ++ [question])
  JoinPlan.lift (answer asked)

variable (asked : List Consultation)

theorem runFrom_bind (x : Consulting α) (f : α → Consulting β) :
    runFrom asked (x >>= f) =
      match runFrom asked x with
      | (.ok a, later) => runFrom later (f a)
      | (.error fault, later) => (.error fault, later) := by
  unfold runFrom
  rw [ExceptT.run_bind, StateT.run_bind]
  rcases StateT.run (ExceptT.run x) asked with ⟨fault | a, later⟩
  · rfl
  · rfl

theorem runFrom_lift (r : Result α) : runFrom asked (JoinPlan.lift r) = (r, asked) := by
  cases r <;> rfl

theorem runFrom_ask (question : Consultation) (answer : List Consultation → Result α) :
    runFrom asked (ask question answer) = (answer asked, asked ++ [question]) := by
  have hasked : runFrom asked (ask question answer) =
      runFrom (asked ++ [question]) (JoinPlan.lift (answer asked)) := rfl
  rw [hasked, runFrom_lift]

end Consulting

namespace Authority

def source (a : Authority) : JoinSource Consulting where
  authorize name := Consulting.ask (.gate name) fun asked => a.gate asked name
  columnsOf ref := Consulting.ask (.catalog ref) fun asked => a.catalog asked ref

/-- What comes of planning a chain, and what was asked on the way. -/
def plan (a : Authority) (main : TableRef) (columns : List Value) (join : Option JoinSpec) :
    Result JoinPlan × List Consultation :=
  Consulting.runFrom [] (JoinPlan.build a.source main columns join)

end Authority

/-! ## The form of a hop -/

/-- The names of a kind of join: its word in any letter case, and no name at all for a left join. -/
inductive JoinKind.Named : JoinKind → String → Prop
  | unnamed : Named left ""
  | left {s : String} : Text.InAnyCase "left".toList s.toList → Named left s
  | inner {s : String} : Text.InAnyCase "inner".toList s.toList → Named inner s

theorem JoinKind.named_left_iff {s : String} : JoinKind.left.Named s ↔ s = "" ∨ Text.lower s = "left" := by
  rw [show Text.lower s = "left" ↔ Text.InAnyCase "left".toList s.toList from Text.lower_eq_iff (by decide)]
  refine ⟨?_, ?_⟩
  · rintro (_ | h)
    · exact .inl rfl
    · exact .inr h
  · rintro (rfl | h)
    · exact .unnamed
    · exact .left h

theorem JoinKind.named_inner_iff {s : String} : JoinKind.inner.Named s ↔ Text.lower s = "inner" := by
  rw [show Text.lower s = "inner" ↔ Text.InAnyCase "inner".toList s.toList from Text.lower_eq_iff (by decide)]
  exact ⟨fun | .inner h => h, .inner⟩

theorem JoinKind.ofName?_iff {s : String} {kind : JoinKind} :
    JoinKind.ofName? s = some kind ↔ kind.Named s := by
  have hword : (if s.isEmpty then "left" else Text.lower s) = "left" ↔ JoinKind.left.Named s := by
    rw [named_left_iff, ← String.isEmpty_iff]
    cases s.isEmpty <;> simp
  have hother : (if s.isEmpty then "left" else Text.lower s) = "inner" ↔ JoinKind.inner.Named s := by
    rw [named_inner_iff]
    by_cases hempty : s = ""
    · subst hempty
      decide
    · rw [if_neg (by rwa [String.isEmpty_iff])]
  unfold ofName?
  generalize (if s.isEmpty then "left" else Text.lower s) = word at hword hother
  dsimp only
  cases kind with
  | left =>
      rw [← hword]
      by_cases h : word = "left" <;> simp [h]
  | inner =>
      rw [← hother]
      by_cases h : word = "left"
      · simp [h]
      · by_cases h' : word = "inner" <;> simp [h, h']

/-- A hop of a known kind over a column of either table. -/
structure JoinSpec.InForm (j : JoinSpec) (kind : JoinKind) (source target : Identifier) : Prop where
  kind : kind.Named j.type
  columns : j.columns = [source.name, target.name]

/-- The first thing wrong with the form of a hop. -/
inductive JoinSpec.Malformed (hop : Hop) (j : JoinSpec) : Refusal → Prop
  | type : (∀ kind : JoinKind, ¬ kind.Named j.type) → Malformed hop j (.invalidJoin (.unknownType hop j.type))
  | count {kind : JoinKind} : kind.Named j.type → j.columns.length ≠ 2 →
      Malformed hop j (.invalidJoin (.columnCount hop))
  | source {kind : JoinKind} {x y : String} : kind.Named j.type → j.columns = [x, y] →
      Name.isIdentifier x = false → Malformed hop j (.invalidIdentifier "column" x)
  | target {kind : JoinKind} {x y : String} : kind.Named j.type → j.columns = [x, y] →
      Name.isIdentifier x = true → Name.isIdentifier y = false → Malformed hop j (.invalidIdentifier "column" y)

theorem Identifier.ofText_name (role : String) (i : Identifier) : Identifier.ofText role i.name = .ok i := by
  rw [ofText, ofText?, dif_pos i.isIdentifier]

theorem Identifier.ofText_of_not {role s : String} (h : Name.isIdentifier s = false) :
    Identifier.ofText role s = refuse (.invalidIdentifier role s) := by
  have hnot : ¬ Name.isIdentifier s = true := by rw [h]; decide
  rw [ofText, ofText?, dif_neg hnot]

namespace JoinPlan

variable {hop : Hop} {j : JoinSpec}

theorem hopForm_of_inForm {kind : JoinKind} {x y : Identifier} (h : j.InForm kind x y) :
    hopForm hop j = .ok (kind, x, y) := by
  rw [hopForm, JoinKind.ofName?_iff.mpr h.kind, h.columns]
  simp only [Identifier.ofText_name, Result.ok_bind]
  rfl

theorem hopForm_of_malformed {r : Refusal} (h : j.Malformed hop r) : hopForm hop j = refuse r := by
  cases h with
  | type hnone =>
      have hkind : JoinKind.ofName? j.type = none := by
        rw [Option.eq_none_iff_forall_ne_some]
        exact fun kind h => hnone kind (JoinKind.ofName?_iff.mp h)
      rw [hopForm, hkind]
  | count hkind hcount =>
      rw [hopForm, JoinKind.ofName?_iff.mpr hkind]
      dsimp only
      split
      · rename_i hcolumns
        rw [hcolumns] at hcount
        exact absurd rfl hcount
      · rfl
  | source hkind hcolumns hx =>
      rw [hopForm, JoinKind.ofName?_iff.mpr hkind, hcolumns]
      dsimp only
      rw [Identifier.ofText_of_not hx]
      rfl
  | @target kind x y hkind hcolumns hx hy =>
      have hsource : Identifier.ofText Identifier.columnRole x = .ok ⟨x, hx⟩ :=
        Identifier.ofText_name _ ⟨x, hx⟩
      rw [hopForm, JoinKind.ofName?_iff.mpr hkind, hcolumns]
      dsimp only
      rw [hsource, Identifier.ofText_of_not hy]
      rfl

end JoinPlan

theorem JoinSpec.inForm_or_malformed (hop : Hop) (j : JoinSpec) :
    (∃ kind x y, j.InForm kind x y) ∨ ∃ r, j.Malformed hop r := by
  by_cases hkind : ∃ kind : JoinKind, kind.Named j.type
  · obtain ⟨kind, hkind⟩ := hkind
    by_cases hcount : j.columns.length = 2
    · obtain ⟨x, y, hcolumns⟩ := List.length_eq_two.mp hcount
      cases hx : Name.isIdentifier x with
      | false => exact .inr ⟨_, .source hkind hcolumns hx⟩
      | true =>
          cases hy : Name.isIdentifier y with
          | false => exact .inr ⟨_, .target hkind hcolumns hx hy⟩
          | true => exact .inl ⟨kind, ⟨x, hx⟩, ⟨y, hy⟩, hkind, hcolumns⟩
    · exact .inr ⟨_, .count hkind hcount⟩
  · exact .inr ⟨_, .type fun kind h => hkind ⟨kind, h⟩⟩

/-! ## One hop -/

section

variable (a : Authority) (left : PlannedTable) (hop : Hop) (asked : List Consultation) (j : JoinSpec)

/-- The gate accepts the table of a hop, and the catalog lists its columns. -/
structure Authority.Admits (table : PlannedTable) : Prop where
  gate : a.gate asked j.table = .ok table.ref
  catalog : a.catalog (asked ++ [.gate j.table]) table.ref = .ok table.columns

/-- The hop is in form, leads to a table that is admitted, and both tables have their column. -/
structure Authority.Passes (planned : PlannedHop) : Prop where
  form : j.InForm planned.kind planned.source.column planned.target.column
  admitted : a.Admits asked j planned.table
  leads : planned.Leads left hop

/-- What is asked on behalf of a hop whose table is admitted. -/
def JoinSpec.questions (ref : TableRef) : List Consultation := [.gate j.table, .catalog ref]

/-- The first check of a hop that fails: what it is refused for, and what was asked until then. -/
inductive Authority.Stops : Fault → List Consultation → Prop
  | form {r : Refusal} : j.Malformed hop r → Stops (.refused r) asked
  | gate {kind : JoinKind} {x y : Identifier} {fault : Fault} : j.InForm kind x y →
      a.gate asked j.table = .error fault → Stops fault (asked ++ [.gate j.table])
  | catalog {kind : JoinKind} {x y : Identifier} {ref : TableRef} {fault : Fault} : j.InForm kind x y →
      a.gate asked j.table = .ok ref → a.catalog (asked ++ [.gate j.table]) ref = .error fault →
      Stops fault (asked ++ j.questions ref)
  | source {kind : JoinKind} {x y : Identifier} {table : PlannedTable} : j.InForm kind x y →
      a.Admits asked j table → x.isAmong left.columns = false →
      Stops (.refused (.invalidJoin (.columnMissing hop x.name left.slot left.ref.fullName)))
        (asked ++ j.questions table.ref)
  | target {kind : JoinKind} {x y : Identifier} {table : PlannedTable} : j.InForm kind x y →
      a.Admits asked j table → x.isAmong left.columns = true → y.isAmong table.columns = false →
      Stops (.refused (.invalidJoin (.columnMissing hop y.name hop.target table.ref.fullName)))
        (asked ++ j.questions table.ref)

end

namespace JoinPlan

variable {a : Authority} {left : PlannedTable} {hop : Hop} {asked : List Consultation} {j : JoinSpec}

theorem requireColumn_of_isAmong {c : Identifier} {t : PlannedTable} (h : c.isAmong t.columns = true) :
    requireColumn hop c t = .ok () := by
  rw [requireColumn, if_pos h]

theorem requireColumn_of_not {c : Identifier} {t : PlannedTable} (h : c.isAmong t.columns = false) :
    requireColumn hop c t = refuse (.invalidJoin (.columnMissing hop c.name t.slot t.ref.fullName)) := by
  rw [requireColumn, h]
  rfl

/-- A hop in form is brought before the gate and then before the catalog, and both its columns are required last. -/
theorem buildHop_of_inForm {kind : JoinKind} {x y : Identifier} (h : j.InForm kind x y) :
    Consulting.runFrom asked (buildHop a.source left hop j) =
      match a.gate asked j.table with
      | .error fault => (.error fault, asked ++ [.gate j.table])
      | .ok ref =>
          match a.catalog (asked ++ [.gate j.table]) ref with
          | .error fault => (.error fault, asked ++ j.questions ref)
          | .ok columns => Consulting.runFrom (asked ++ j.questions ref) (do
              let right : PlannedTable := ⟨hop.target, ref, columns⟩
              lift (requireColumn hop x left)
              lift (requireColumn hop y right)
              return ⟨kind, ⟨some left.slot, x⟩, ⟨some right.slot, y⟩, right⟩) := by
  unfold buildHop
  rw [hopForm_of_inForm h, Consulting.runFrom_bind, Consulting.runFrom_lift]
  dsimp only
  rw [Consulting.runFrom_bind, Authority.source, Consulting.runFrom_ask]
  cases a.gate asked j.table with
  | error fault => rfl
  | ok ref =>
      dsimp only
      rw [Consulting.runFrom_bind, Consulting.runFrom_ask, List.append_assoc]
      cases a.catalog (asked ++ [.gate j.table]) ref with
      | error fault => rfl
      | ok columns => rfl

theorem buildHop_of_admits {kind : JoinKind} {x y : Identifier} {table : PlannedTable}
    (hform : j.InForm kind x y) (hadmits : a.Admits asked j table) :
    Consulting.runFrom asked (buildHop a.source left hop j) =
      Consulting.runFrom (asked ++ j.questions table.ref) (do
        let right : PlannedTable := ⟨hop.target, table.ref, table.columns⟩
        lift (requireColumn hop x left)
        lift (requireColumn hop y right)
        return ⟨kind, ⟨some left.slot, x⟩, ⟨some right.slot, y⟩, right⟩) := by
  rw [buildHop_of_inForm hform, hadmits.gate]
  dsimp only
  rw [hadmits.catalog]

theorem buildHop_of_passes {planned : PlannedHop} (h : a.Passes left hop asked j planned) :
    Consulting.runFrom asked (buildHop a.source left hop j) =
      (.ok planned, asked ++ j.questions planned.table.ref) := by
  obtain ⟨kind, ⟨sourceSlot, x⟩, ⟨targetSlot, y⟩, ⟨slot, ref, columns⟩⟩ := planned
  obtain ⟨hform, hadmits, ⟨hslot, hsource, hx, htarget, hy⟩⟩ := h
  obtain rfl : slot = hop.target := hslot
  obtain rfl : sourceSlot = some left.slot := hsource
  obtain rfl : targetSlot = some hop.target := htarget
  rw [buildHop_of_admits hform hadmits]
  dsimp only
  rw [requireColumn_of_isAmong hx, requireColumn_of_isAmong hy]
  rfl

theorem buildHop_of_stops {fault : Fault} {log : List Consultation}
    (h : a.Stops left hop asked j fault log) :
    Consulting.runFrom asked (buildHop a.source left hop j) = (.error fault, log) := by
  cases h with
  | form hform =>
      unfold buildHop
      rw [hopForm_of_malformed hform, Consulting.runFrom_bind, Consulting.runFrom_lift]
      rfl
  | gate hform hgate => rw [buildHop_of_inForm hform, hgate]
  | catalog hform hgate hcatalog =>
      rw [buildHop_of_inForm hform, hgate]
      dsimp only
      rw [hcatalog]
  | source hform hadmits hx =>
      rw [buildHop_of_admits hform hadmits, requireColumn_of_not hx]
      rfl
  | @target kind x y table hform hadmits hx hy =>
      have hmissing : requireColumn hop y ⟨hop.target, table.ref, table.columns⟩ = _ :=
        requireColumn_of_not hy
      rw [buildHop_of_admits hform hadmits, requireColumn_of_isAmong hx]
      dsimp only
      rw [hmissing]
      rfl

end JoinPlan

theorem Authority.passes_or_stops (a : Authority) (left : PlannedTable) (hop : Hop) (asked : List Consultation)
    (j : JoinSpec) :
    (∃ planned, a.Passes left hop asked j planned) ∨ ∃ fault log, a.Stops left hop asked j fault log := by
  rcases j.inForm_or_malformed hop with ⟨kind, x, y, hform⟩ | ⟨r, hform⟩
  · cases hgate : a.gate asked j.table with
    | error fault => exact .inr ⟨_, _, .gate hform hgate⟩
    | ok ref =>
        cases hcatalog : a.catalog (asked ++ [.gate j.table]) ref with
        | error fault => exact .inr ⟨_, _, .catalog hform hgate hcatalog⟩
        | ok columns =>
            have hadmits : a.Admits asked j ⟨hop.target, ref, columns⟩ := ⟨hgate, hcatalog⟩
            cases hx : x.isAmong left.columns with
            | false => exact .inr ⟨_, _, .source hform hadmits hx⟩
            | true =>
                cases hy : y.isAmong columns with
                | false => exact .inr ⟨_, _, .target hform hadmits hx hy⟩
                | true =>
                    exact .inl ⟨⟨kind, ⟨some left.slot, x⟩, ⟨some hop.target, y⟩, ⟨hop.target, ref, columns⟩⟩,
                      hform, hadmits, ⟨rfl, rfl, hx, rfl, hy⟩⟩
  · exact .inr ⟨_, _, .form hform⟩

/-! ## Chains -/

section

variable (a : Authority)

/-- Each hop passes in turn, from the table of the one before it. -/
inductive Authority.Accepts :
    PlannedTable → List Hop → List Consultation → List JoinSpec → List PlannedHop → List Consultation → Prop
  | done {left : PlannedTable} {places : List Hop} {asked : List Consultation} :
      Accepts left places asked [] [] asked
  | hop {left : PlannedTable} {place : Hop} {places : List Hop} {asked log : List Consultation} {j : JoinSpec}
      {rest : List JoinSpec} {planned : PlannedHop} {others : List PlannedHop} :
      a.Passes left place asked j planned →
      Accepts planned.table places (asked ++ j.questions planned.table.ref) rest others log →
      Accepts left (place :: places) asked (j :: rest) (planned :: others) log

/-- Some hops pass, and the next one stops the chain. -/
inductive Authority.Rejects :
    PlannedTable → List Hop → List Consultation → List JoinSpec → Fault → List Consultation → Prop
  | here {left : PlannedTable} {place : Hop} {places : List Hop} {asked log : List Consultation} {j : JoinSpec}
      {rest : List JoinSpec} {fault : Fault} :
      a.Stops left place asked j fault log → Rejects left (place :: places) asked (j :: rest) fault log
  | later {left : PlannedTable} {place : Hop} {places : List Hop} {asked log : List Consultation} {j : JoinSpec}
      {rest : List JoinSpec} {planned : PlannedHop} {fault : Fault} :
      a.Passes left place asked j planned →
      Rejects planned.table places (asked ++ j.questions planned.table.ref) rest fault log →
      Rejects left (place :: places) asked (j :: rest) fault log

end

section

variable {a : Authority} {left : PlannedTable} {places : List Hop} {asked log : List Consultation}
  {chain : List JoinSpec}

theorem JoinPlan.buildHops_of_accepts {hops : List PlannedHop}
    (h : a.Accepts left places asked chain hops log) :
    Consulting.runFrom asked (buildHops a.source left places chain) = (.ok hops, log) := by
  induction h with
  | @done left places asked =>
      cases places <;> rfl
  | hop hpasses _ ih =>
      rw [buildHops, Consulting.runFrom_bind, buildHop_of_passes hpasses]
      dsimp only
      rw [Consulting.runFrom_bind, ih]
      rfl

theorem JoinPlan.buildHops_of_rejects {fault : Fault} (h : a.Rejects left places asked chain fault log) :
    Consulting.runFrom asked (buildHops a.source left places chain) = (.error fault, log) := by
  induction h with
  | here hstops =>
      rw [buildHops, Consulting.runFrom_bind, buildHop_of_stops hstops]
  | later hpasses _ ih =>
      rw [buildHops, Consulting.runFrom_bind, buildHop_of_passes hpasses]
      dsimp only
      rw [Consulting.runFrom_bind, ih]

theorem Authority.accepts_or_rejects (hplaces : chain.length ≤ places.length) :
    (∃ hops log, a.Accepts left places asked chain hops log) ∨
      ∃ fault log, a.Rejects left places asked chain fault log := by
  induction chain generalizing left places asked with
  | nil => exact .inl ⟨_, _, .done⟩
  | cons j rest ih =>
      cases places with
      | nil => exact absurd hplaces (Nat.not_succ_le_zero _)
      | cons place places =>
          rcases a.passes_or_stops left place asked j with ⟨planned, hpasses⟩ | ⟨fault, log, hstops⟩
          · have hrest : (∃ hops log, a.Accepts planned.table places
                  (asked ++ j.questions planned.table.ref) rest hops log) ∨
                ∃ fault log, a.Rejects planned.table places
                  (asked ++ j.questions planned.table.ref) rest fault log :=
              ih (Nat.le_of_succ_le_succ hplaces)
            rcases hrest with ⟨hops, log, h⟩ | ⟨fault, log, h⟩
            · exact .inl ⟨_, _, .hop hpasses h⟩
            · exact .inr ⟨_, _, .later hpasses h⟩
          · exact .inr ⟨_, _, .here hstops⟩

end

/-! ## What is asked -/

/-- A question about a hop in form whose predecessors have all passed; the catalog is asked about the table that the
gate has accepted. -/
inductive Authority.Due (a : Authority) :
    PlannedTable → List Hop → List Consultation → List JoinSpec → Consultation → Prop
  | gate {left : PlannedTable} {places : List Hop} {asked : List Consultation} {j : JoinSpec}
      {rest : List JoinSpec} {kind : JoinKind} {x y : Identifier} : j.InForm kind x y →
      Due a left places asked (j :: rest) (.gate j.table)
  | catalog {left : PlannedTable} {places : List Hop} {asked : List Consultation} {j : JoinSpec}
      {rest : List JoinSpec} {kind : JoinKind} {x y : Identifier} {ref : TableRef} : j.InForm kind x y →
      a.gate asked j.table = .ok ref → Due a left places asked (j :: rest) (.catalog ref)
  | later {left : PlannedTable} {place : Hop} {places : List Hop} {asked : List Consultation} {j : JoinSpec}
      {rest : List JoinSpec} {planned : PlannedHop} {question : Consultation} :
      a.Passes left place asked j planned →
      Due a planned.table places (asked ++ j.questions planned.table.ref) rest question →
      Due a left (place :: places) asked (j :: rest) question

section

variable {a : Authority} {left : PlannedTable} {places : List Hop} {asked log : List Consultation}
  {chain : List JoinSpec}

theorem Authority.due_of_questions {j : JoinSpec} {rest : List JoinSpec} {kind : JoinKind} {x y : Identifier}
    {ref : TableRef} (hform : j.InForm kind x y) (hgate : a.gate asked j.table = .ok ref) :
    ∀ q ∈ asked ++ j.questions ref, q ∈ asked ∨ a.Due left places asked (j :: rest) q := by
  intro q hq
  rcases List.mem_append.mp hq with hq | hq
  · exact .inl hq
  · rcases List.mem_cons.mp hq with rfl | hq
    · exact .inr (.gate hform)
    · obtain rfl := List.mem_singleton.mp hq
      exact .inr (.catalog hform hgate)

theorem Authority.Stops.due {place : Hop} {j : JoinSpec} {rest : List JoinSpec} {fault : Fault}
    (h : a.Stops left place asked j fault log) :
    ∀ q ∈ log, q ∈ asked ∨ a.Due left places asked (j :: rest) q := by
  cases h with
  | form _ => exact fun q hq => .inl hq
  | gate hform _ =>
      intro q hq
      rcases List.mem_append.mp hq with hq | hq
      · exact .inl hq
      · obtain rfl := List.mem_singleton.mp hq
        exact .inr (.gate hform)
  | catalog hform hgate _ => exact due_of_questions hform hgate
  | source hform hadmits _ => exact due_of_questions hform hadmits.gate
  | target hform hadmits _ _ => exact due_of_questions hform hadmits.gate

/-- What is due behind a hop that passes was asked for it, or is due for a later one. -/
theorem Authority.Passes.due {place : Hop} {j : JoinSpec} {rest : List JoinSpec} {planned : PlannedHop}
    (h : a.Passes left place asked j planned)
    (hlater : ∀ q ∈ log, q ∈ asked ++ j.questions planned.table.ref ∨
      a.Due planned.table places (asked ++ j.questions planned.table.ref) rest q) :
    ∀ q ∈ log, q ∈ asked ∨ a.Due left (place :: places) asked (j :: rest) q := by
  intro q hq
  rcases hlater q hq with hq | hq
  · exact due_of_questions h.form h.admitted.gate q hq
  · exact .inr (.later h hq)

theorem Authority.Accepts.due {hops : List PlannedHop} (h : a.Accepts left places asked chain hops log) :
    ∀ q ∈ log, q ∈ asked ∨ a.Due left places asked chain q := by
  induction h with
  | done => exact fun q hq => .inl hq
  | hop hpasses _ ih => exact hpasses.due ih

theorem Authority.Rejects.due {fault : Fault} (h : a.Rejects left places asked chain fault log) :
    ∀ q ∈ log, q ∈ asked ∨ a.Due left places asked chain q := by
  induction h with
  | here hstops => exact hstops.due
  | later hpasses _ ih => exact hpasses.due ih

/-! ## Plans -/

theorem Authority.Accepts.leads {hops : List PlannedHop} (h : a.Accepts left places asked chain hops log) :
    ChainFrom left places hops := by
  induction h with
  | @done left places => cases places <;> trivial
  | hop hpasses _ ih => exact ⟨hpasses.leads, ih⟩

theorem Authority.Accepts.slots {hops : List PlannedHop} (h : a.Accepts left places asked chain hops log) :
    hops.map (fun h => h.table.slot) = (places.take chain.length).map Hop.target := by
  induction h with
  | done => rfl
  | hop hpasses _ ih =>
      rw [List.map_cons, ih, hpasses.leads.slot, List.length_cons, List.take_succ_cons, List.map_cons]

end

namespace Authority

variable (a : Authority) (main : TableRef) (columns : List Value) (join : Option JoinSpec)

theorem plan_of_deep (h : JoinPlan.depthLimit < (JoinSpec.hopsOf join).length) :
    a.plan main columns join =
      (refuse (.invalidJoin (.tooDeep (JoinSpec.hopsOf join).length JoinPlan.depthLimit)), []) := by
  unfold plan JoinPlan.build
  dsimp only
  rw [if_pos h]
  rfl

theorem plan_of_shallow (h : (JoinSpec.hopsOf join).length ≤ JoinPlan.depthLimit) :
    a.plan main columns join =
      match Consulting.runFrom [] (JoinPlan.buildHops a.source ⟨.main, main, columns⟩ [.first, .second]
          (JoinSpec.hopsOf join)) with
      | (.ok hops, log) => (.ok ⟨⟨.main, main, columns⟩, hops⟩, log)
      | (.error fault, log) => (.error fault, log) := by
  unfold plan JoinPlan.build
  dsimp only
  rw [if_neg (Nat.not_lt.mpr h)]
  rw [Consulting.runFrom_bind]
  rcases Consulting.runFrom [] (JoinPlan.buildHops a.source ⟨.main, main, columns⟩ [.first, .second]
    (JoinSpec.hopsOf join)) with ⟨fault | hops, log⟩
  · rfl
  · rfl

/-- A chain that is not too deep is accepted, or rejected at one of its hops. -/
theorem plan_cases (h : (JoinSpec.hopsOf join).length ≤ JoinPlan.depthLimit) :
    (∃ hops log, a.Accepts ⟨.main, main, columns⟩ [.first, .second] [] (JoinSpec.hopsOf join) hops log ∧
        a.plan main columns join = (.ok ⟨⟨.main, main, columns⟩, hops⟩, log)) ∨
      ∃ fault log, a.Rejects ⟨.main, main, columns⟩ [.first, .second] [] (JoinSpec.hopsOf join) fault log ∧
        a.plan main columns join = (.error fault, log) := by
  have hchain : (∃ hops log,
        a.Accepts ⟨.main, main, columns⟩ [.first, .second] [] (JoinSpec.hopsOf join) hops log) ∨
      ∃ fault log,
        a.Rejects ⟨.main, main, columns⟩ [.first, .second] [] (JoinSpec.hopsOf join) fault log :=
    a.accepts_or_rejects h
  rcases hchain with ⟨hops, log, haccepts⟩ | ⟨fault, log, hrejects⟩
  · refine .inl ⟨hops, log, haccepts, ?_⟩
    rw [plan_of_shallow a main columns join h, JoinPlan.buildHops_of_accepts haccepts]
  · refine .inr ⟨fault, log, hrejects, ?_⟩
    rw [plan_of_shallow a main columns join h, JoinPlan.buildHops_of_rejects hrejects]

theorem plan_ok_iff (p : JoinPlan) (log : List Consultation) :
    a.plan main columns join = (.ok p, log) ↔
      (JoinSpec.hopsOf join).length ≤ JoinPlan.depthLimit ∧ p.main = ⟨.main, main, columns⟩ ∧
        a.Accepts p.main [.first, .second] [] (JoinSpec.hopsOf join) p.hops log := by
  constructor
  · intro hplan
    by_cases h : (JoinSpec.hopsOf join).length ≤ JoinPlan.depthLimit
    · rcases plan_cases a main columns join h with ⟨hops, log', haccepts, hok⟩ | ⟨fault, log', -, herror⟩
      · rw [hplan] at hok
        cases hok
        exact ⟨h, rfl, haccepts⟩
      · rw [hplan] at herror
        cases herror
    · rw [plan_of_deep a main columns join (Nat.lt_of_not_le h)] at hplan
      cases hplan
  · rintro ⟨h, hmain, haccepts⟩
    rw [hmain] at haccepts
    rw [plan_of_shallow a main columns join h, JoinPlan.buildHops_of_accepts haccepts, ← hmain]

theorem plan_error_iff (fault : Fault) (log : List Consultation) :
    a.plan main columns join = (.error fault, log) ↔
      (JoinPlan.depthLimit < (JoinSpec.hopsOf join).length ∧ log = [] ∧
        fault = .refused (.invalidJoin (.tooDeep (JoinSpec.hopsOf join).length JoinPlan.depthLimit))) ∨
      ((JoinSpec.hopsOf join).length ≤ JoinPlan.depthLimit ∧
        a.Rejects ⟨.main, main, columns⟩ [.first, .second] [] (JoinSpec.hopsOf join) fault log) := by
  constructor
  · intro hplan
    by_cases h : (JoinSpec.hopsOf join).length ≤ JoinPlan.depthLimit
    · rcases plan_cases a main columns join h with ⟨hops, log', -, hok⟩ | ⟨fault, log', hrejects, herror⟩
      · rw [hplan] at hok
        cases hok
      · rw [hplan] at herror
        cases herror
        exact .inr ⟨h, hrejects⟩
    · have hdeep := Nat.lt_of_not_le h
      rw [plan_of_deep a main columns join hdeep] at hplan
      cases hplan
      exact .inl ⟨hdeep, rfl, rfl⟩
  · rintro (⟨h, rfl, rfl⟩ | ⟨h, hrejects⟩)
    · exact plan_of_deep a main columns join h
    · rw [plan_of_shallow a main columns join h, JoinPlan.buildHops_of_rejects hrejects]

/-- A chain is planned just if it has at most two hops that pass in turn; otherwise the first failing check says what it
is refused for.  Nothing is asked about a chain that is too deep, nor about a hop before all earlier ones have passed.
A plan leads from the main table on in order, and its text and tables determine it. -/
theorem plan_accepts_valid_chains :
    (∀ p log, a.plan main columns join = (.ok p, log) ↔
      (JoinSpec.hopsOf join).length ≤ 2 ∧ p.main = ⟨.main, main, columns⟩ ∧
        a.Accepts p.main [.first, .second] [] (JoinSpec.hopsOf join) p.hops log) ∧
    (∀ fault log, a.plan main columns join = (.error fault, log) ↔
      (2 < (JoinSpec.hopsOf join).length ∧ log = [] ∧
        fault = .refused (.invalidJoin (.tooDeep (JoinSpec.hopsOf join).length 2))) ∨
      ((JoinSpec.hopsOf join).length ≤ 2 ∧
        a.Rejects ⟨.main, main, columns⟩ [.first, .second] [] (JoinSpec.hopsOf join) fault log)) ∧
    (∀ q ∈ (a.plan main columns join).2, (JoinSpec.hopsOf join).length ≤ 2 ∧
      a.Due ⟨.main, main, columns⟩ [.first, .second] [] (JoinSpec.hopsOf join) q) ∧
    (∀ p log, a.plan main columns join = (.ok p, log) →
      p.tables.map PlannedTable.slot =
          [Slot.main, .joined, .subjoined].take ((JoinSpec.hopsOf join).length + 1) ∧
        ∀ (a' : Authority) main' columns' join' p' log', a'.plan main' columns' join' = (.ok p', log') →
          p'.fromSql = p.fromSql → p'.tables = p.tables → p' = p) := by
  have hwellFormed : ∀ (a : Authority) main columns join p log, a.plan main columns join = (.ok p, log) →
      p.WellFormed := by
    intro a main columns join p log hplan
    obtain ⟨-, hmain, haccepts⟩ := (plan_ok_iff a main columns join p log).mp hplan
    exact ⟨by rw [hmain], haccepts.leads⟩
  refine ⟨plan_ok_iff a main columns join, plan_error_iff a main columns join, ?_, ?_⟩
  · intro q hq
    by_cases h : (JoinSpec.hopsOf join).length ≤ JoinPlan.depthLimit
    · refine ⟨h, ?_⟩
      rcases plan_cases a main columns join h with ⟨hops, log, haccepts, hok⟩ | ⟨fault, log, hrejects, herror⟩
      · rw [hok] at hq
        exact (haccepts.due q hq).resolve_left (List.not_mem_nil)
      · rw [herror] at hq
        exact (hrejects.due q hq).resolve_left (List.not_mem_nil)
    · rw [plan_of_deep a main columns join (Nat.lt_of_not_le h)] at hq
      exact absurd hq List.not_mem_nil
  · intro p log hplan
    obtain ⟨-, hmain, haccepts⟩ := (plan_ok_iff a main columns join p log).mp hplan
    refine ⟨?_, ?_⟩
    · have hslots := haccepts.slots
      rw [List.map_take] at hslots
      rw [JoinPlan.tables, List.map_cons, List.map_map, hmain, List.take_succ_cons]
      exact congrArg _ hslots
    · intro a' main' columns' join' p' log' hplan' hsql htables
      exact (hwellFormed _ _ _ _ _ _ hplan').eq_of_fromSql (hwellFormed _ _ _ _ _ _ hplan) hsql htables

end Authority

end TableSteward

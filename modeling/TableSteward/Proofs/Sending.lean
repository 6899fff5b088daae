import TableSteward.Proofs.Admission
import TableSteward.Proofs.ExportOrder
import TableSteward.Proofs.Settlement

/-!
# Queries that are sent

The queries of a journal are the statements in it that read the rows of tables.  `Sends` relates the outcome of a
computation to the queries that it sends, whether they are answered or not.  Nothing that is done before the first
query sends any: the pool, the transaction, the gate and the catalog are silent, and so is the audit.
-/
set_option autoImplicit false

namespace TableSteward

def Entry.query? (e : Entry) : Option Statement :=
  match e.call with
  | .execute _ s => if s.isData then some s else none
  | _ => none

def queries (js : List Entry) : List Statement := js.filterMap Entry.query?

theorem queries_append (js js' : List Entry) : queries (js ++ js') = queries js ++ queries js' :=
  List.filterMap_append

theorem Entry.query?_execute {c : Connection} {s : Statement} {answer : Option (List Row)}
    (h : s.isData = false) : Entry.query? ⟨.execute c s, answer⟩ = none := by
  unfold query?
  simp [h]

namespace Exchange

variable {σ α β : Type}

/-- From every link, the computation sends some queries, which stand in this relation to its outcome. -/
def Sends (x : Exchange (Journal σ) α) (C : Result α → List Statement → Prop) : Prop :=
  ∀ l, ∃ sent, queries (x.runOn l).2.server.entries = queries l.server.entries ++ sent ∧
    C (x.runOn l).1 sent

def Silent (x : Exchange (Journal σ) α) : Prop := Sends x fun _ sent => sent = []

variable {C : Result α → List Statement → Prop} {D : Result β → List Statement → Prop}

/-! ## Sequences -/

theorem Leaves.sends {C : Result α → Footprint → Prop} {x : Exchange (Journal σ) α} (h : Leaves x C) :
    Sends x fun r sent => ∃ p, C r p ∧ sent = queries p.calls := by
  intro l
  obtain ⟨p, hp, hvalue⟩ := h l
  refine ⟨_, ?_, p, hvalue, rfl⟩
  rw [hp.calls, queries_append]

theorem Sends.weaken {C' : Result α → List Statement → Prop} {x : Exchange (Journal σ) α} (h : Sends x C)
    (hC : ∀ r sent, C r sent → C' r sent) : Sends x C' := by
  intro l
  obtain ⟨sent, hsent, hvalue⟩ := h l
  exact ⟨sent, hsent, hC _ _ hvalue⟩

theorem Leaves.silent {C : Result α → Footprint → Prop} {x : Exchange (Journal σ) α} (h : Leaves x C)
    (hC : ∀ r p, C r p → queries p.calls = []) : Silent x := by
  refine h.sends.weaken ?_
  rintro r _ ⟨p, hp, rfl⟩
  exact hC r p hp

theorem sends_pure {a : α} (h : C (.ok a) []) : Sends (pure a : Exchange (Journal σ) α) C :=
  fun _ => ⟨[], (List.append_nil _).symm, h⟩

theorem sends_lift (r : Result α) (h : C r []) : Sends (lift r : Exchange (Journal σ) α) C := by
  cases r with
  | ok a => exact sends_pure h
  | error f => exact fun _ => ⟨[], (List.append_nil _).symm, h⟩

theorem Sends.bind {x : Exchange (Journal σ) α} {k : α → Exchange (Journal σ) β} (hx : Sends x C)
    (hok : ∀ a sent, C (.ok a) sent → Sends (k a) fun r later => D r (sent ++ later))
    (herror : ∀ f sent, C (.error f) sent → D (.error f) sent) : Sends (x >>= k) D := by
  intro l
  obtain ⟨sent, hsent, hvalue⟩ := hx l
  rw [runOn_bind]
  rcases hrun : x.runOn l with ⟨r, m⟩
  rw [hrun] at hsent hvalue
  cases r with
  | error f => exact ⟨sent, hsent, herror f sent hvalue⟩
  | ok a =>
      obtain ⟨later, hlater, hvalue'⟩ := hok a sent hvalue m
      refine ⟨sent ++ later, ?_, hvalue'⟩
      rw [← List.append_assoc, ← hsent]
      exact hlater

theorem Silent.bind {x : Exchange (Journal σ) α} {k : α → Exchange (Journal σ) β} (hx : Silent x)
    (hok : ∀ a, Sends (k a) D) (herror : ∀ f, D (.error f) []) : Sends (x >>= k) D := by
  refine Sends.bind hx ?_ ?_
  · rintro a _ rfl
    exact hok a
  · rintro f _ rfl
    exact herror f

theorem Silent.andThen {x : Exchange (Journal σ) α} {k : α → Exchange (Journal σ) β} (hx : Silent x)
    (hk : ∀ a, Silent (k a)) : Silent (x >>= k) := hx.bind hk fun _ => rfl

theorem silent_lift (r : Result α) : Silent (lift r : Exchange (Journal σ) α) := sends_lift r rfl

theorem silent_pure (a : α) : Silent (pure a : Exchange (Journal σ) α) := sends_pure rfl

theorem silent_require (holds : Bool) (f : Fault) : Silent (σ := σ) (require holds f) := by
  cases holds with
  | true => exact silent_pure ()
  | false => exact silent_lift (.error f)

theorem sends_attempt {x : Exchange (Journal σ) α} (hx : Sends x C) :
    Sends (attempt x) fun r sent => ∃ outcome, r = .ok outcome ∧ C outcome sent := by
  intro l
  obtain ⟨sent, hsent, hvalue⟩ := hx l
  rw [runOn_attempt]
  exact ⟨sent, hsent, _, rfl, hvalue⟩

theorem silent_attempt {x : Exchange (Journal σ) α} (hx : Silent x) : Silent (attempt x) :=
  (sends_attempt hx).weaken fun _ _ ⟨_, _, h⟩ => h

theorem silent_discard {x : Exchange (Journal σ) α} (hx : Silent x) : Silent (discard x) := by
  intro l
  rw [runOn_discard]
  exact hx l

/-! ## Calls -/

theorem silent_usePool (name : String) : Silent (σ := σ) (usePool name) :=
  (leaves_usePool name).silent fun _ p hp => by rw [hp]; rfl

theorem silent_close (c : Connection) : Silent (σ := σ) (close c) :=
  (leaves_close c).silent fun _ _ ⟨_, hp⟩ => by rw [hp]; rfl

theorem silent_of_called {call : Call} {value : List Row → α} {x : Exchange (Journal σ) α}
    (h : Leaves x (Called call value)) (hcall : ∀ answer, Entry.query? ⟨call, answer⟩ = none) : Silent x := by
  refine h.silent ?_
  rintro _ _ (rows | _)
  · simp [queries, hcall]
  · simp [queries, hcall]

section Calls

variable [Server σ]

theorem silent_begin (c : Connection) : Silent (σ := σ) (begin c) :=
  silent_of_called (leaves_begin c) fun _ => rfl

theorem silent_commit (c : Connection) : Silent (σ := σ) (commit c) :=
  silent_of_called (leaves_commit c) fun _ => rfl

theorem silent_rollback (c : Connection) : Silent (σ := σ) (rollback c) :=
  silent_of_called (leaves_rollback c) fun _ => rfl

theorem silent_execute (c : Connection) {s : Statement} (h : s.isData = false) :
    Silent (σ := σ) (execute c s) :=
  silent_of_called (leaves_execute c s) fun _ => Entry.query?_execute h

theorem silent_connect (site : Site) : Silent (σ := σ) (connect site) := by
  refine (leaves_connect site).silent ?_
  rintro _ _ ⟨_, _, (_ | _)⟩
  · rfl
  · rfl

/-- A query is sent also if it is not answered. -/
theorem sends_execute (c : Connection) {s : Statement} (h : s.isData = true) :
    Sends (σ := σ) (execute c s) fun _ sent => sent = [s] := by
  refine (leaves_execute c s).sends.weaken ?_
  rintro _ _ ⟨_, (_ | _), rfl⟩
  · simp [queries, Entry.query?, h]
  · simp [queries, Entry.query?, h]

theorem silent_onConnection {site : Site} {body : Connection → Exchange (Journal σ) α}
    (hbody : ∀ c, Silent (body c)) : Silent (onConnection site body) := by
  refine (silent_connect site).andThen fun c => ?_
  refine (silent_attempt (hbody c)).andThen fun outcome => ?_
  exact (silent_close c).andThen fun _ => silent_lift outcome

end Calls

end Exchange

open Exchange

variable {σ : Type} [Server σ]

theorem Audit.silent_record (e : AuditEntry) : Silent (σ := σ) (Audit.record e) :=
  silent_discard <| silent_attempt <| silent_onConnection fun c =>
    (silent_discard (silent_execute c rfl)).andThen fun _ => silent_commit c

/-! ## Before the first query -/

namespace Catalog

variable (c : Connection) (t : TableRef)

theorem silent_tableExists : Silent (σ := σ) (tableExists c t) :=
  (silent_execute c rfl).andThen fun _ => silent_pure _

theorem silent_columns : Silent (σ := σ) (columns c t) :=
  (silent_execute c rfl).andThen fun _ => silent_lift _

theorem silent_primaryKey : Silent (σ := σ) (primaryKey c t) :=
  (silent_execute c rfl).andThen fun _ => silent_lift _

theorem silent_authorize (g : Gate) (bypass : Bool) (database name : String) :
    Silent (σ := σ) (g.authorize bypass (tableExists c) database (.text name)) := by
  rw [Gate.authorize_eq]
  refine (silent_lift _).andThen fun t => ?_
  refine (silent_require _ _).andThen fun _ => ?_
  refine (silent_tableExists c t).andThen fun _ => ?_
  refine (silent_require _ _).andThen fun _ => ?_
  refine (silent_require _ _).andThen fun _ => ?_
  refine (silent_require _ _).andThen fun _ => ?_
  exact (silent_require _ _).andThen fun _ => silent_pure t

end Catalog

namespace JoinPlan

variable (c : Connection) (g : Gate) (bypass : Bool) (database : String)

theorem silent_buildHop (left : PlannedTable) (hop : Hop) (j : JoinSpec) :
    Silent (σ := σ) (buildHop (Catalog.joinSource c g bypass database) left hop j) := by
  unfold buildHop
  simp only [lift_eq]
  refine (silent_lift _).andThen fun ⟨kind, a, b⟩ => ?_
  refine (Catalog.silent_authorize c g bypass database j.table).andThen fun ref => ?_
  refine (Catalog.silent_columns c ref).andThen fun columns => ?_
  refine (silent_lift _).andThen fun _ => ?_
  exact (silent_lift _).andThen fun _ => silent_pure _

theorem silent_buildHops :
    ∀ (places : List Hop) (specs : List JoinSpec) (left : PlannedTable),
      Silent (σ := σ) (buildHops (Catalog.joinSource c g bypass database) left places specs) := by
  intro places
  induction places with
  | nil => intro specs left; exact silent_pure _
  | cons hop places ih =>
      intro specs left
      cases specs with
      | nil => exact silent_pure _
      | cons j rest =>
          refine (silent_buildHop c g bypass database left hop j).andThen fun h => ?_
          exact (ih rest h.table).andThen fun _ => silent_pure _

end JoinPlan

theorem Reporter.silent_plan (p : Reporter) (r : Requester) (c : Connection) (s : BlockSource) :
    Silent (σ := σ) (p.plan r c s) := by
  unfold Reporter.plan
  refine (Catalog.silent_authorize c (p.gate r) true s.database s.table).andThen fun ref => ?_
  refine (Catalog.silent_columns c ref).andThen fun columns => ?_
  rw [JoinPlan.build_eq]
  refine (silent_require _ _).andThen fun _ => ?_
  exact (JoinPlan.silent_buildHops c (p.gate r) true s.database _ _ _).andThen fun _ => silent_pure _

theorem Reporter.silent_defaultOrder (c : Connection) (plan : JoinPlan) :
    Silent (σ := σ) (Reporter.defaultOrder c plan) :=
  (Catalog.silent_primaryKey c plan.main.ref).andThen fun _ => silent_lift _

namespace Page

theorem sends_countRows (c : Connection) (q : Query) :
    Sends (σ := σ) (countRows c q) fun _ sent => sent = [.count q] := by
  unfold countRows
  refine (sends_execute c rfl).bind ?_ fun _ _ h => h
  rintro rows _ rfl
  dsimp only
  split
  · exact sends_lift _ rfl
  · exact sends_pure rfl

end Page

namespace CursorExport

theorem queries_closing {c : Connection} {size : Int} {complete : Bool} {closing : List Entry}
    (h : Closing c size complete closing) : queries closing = [] := by
  cases h <;> rfl

theorem queries_fetched (c : Connection) (size : Int) (batches : List (List Row)) :
    queries (batches.map (fetched c size)) = [] := by
  induction batches with
  | nil => rfl
  | cons rows rest ih => exact ih

theorem Course.queries_eq {σ : Type} {e : CursorExport σ} {c : Connection} {complete : Bool}
    {batches : List (List Row)} {calls : List Entry} (h : Course e c complete batches calls) :
    queries calls <+: [.declareCursor e.query] ∧
      (complete = true → queries calls = [.declareCursor e.query]) := by
  cases h with
  | notBegun | beginFailed => exact ⟨List.nil_prefix, nofun⟩
  | readOnlyFailed x z => exact ⟨List.nil_prefix, nofun⟩
  | declareFailed x y z => exact ⟨List.prefix_refl _, fun _ => rfl⟩
  | @read x y z _ _ closing hfilled hclosing =>
      have hread : queries (batches.map (fetched c e.batchSize) ++ closing) = [] := by
        rw [queries_append, queries_fetched, queries_closing hclosing]
        rfl
      have hall : ∀ rest : List Entry, queries rest = [] →
          queries (⟨.begin c, some x⟩ :: ⟨.execute c .readOnly, some y⟩ ::
            ⟨.execute c (.declareCursor e.query), some z⟩ :: rest) = [.declareCursor e.query] :=
        fun rest hrest => congrArg (Statement.declareCursor e.query :: ·) hrest
      rw [hall _ hread]
      exact ⟨List.prefix_refl _, fun _ => rfl⟩

/-- The only query of an export is its cursor, and a complete export has declared it. -/
theorem Exported.queries_eq {σ : Type} {e : CursorExport σ} {d : Delivery} {p : Footprint} (h : Exported e d p) :
    queries p.calls <+: [.declareCursor e.query] ∧
      (d.ending = .complete → queries p.calls = [.declareCursor e.query]) := by
  cases h with
  | untouched | notConnected _ _ => exact ⟨List.nil_prefix, nofun⟩
  | notHeaded c x f => exact ⟨List.nil_prefix, nofun⟩
  | headed c x hcourse hsheet =>
      obtain ⟨hbegun, hall⟩ := hcourse.queries_eq
      exact ⟨hbegun, fun hcomplete => hall (decide_eq_true hcomplete)⟩

end CursorExport

end TableSteward

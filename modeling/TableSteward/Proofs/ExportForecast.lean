import TableSteward.Proofs.AuditFailures
import TableSteward.Proofs.ExportLimit
import TableSteward.Proofs.FilterFaults

/-!
# The forecast of an export

Before a full export a requester asks whether it may be made, and is told the number of rows and one limit.  The export
counts the rows again and applies two limits, one after the other.  `exportCheck_forecasts` says that the answer is
right: whatever else is wrong is told by both in the same words, and with nothing else wrong the export is refused just
if the check says so.

What the two have in common is `Modest`: preparing and counting opens no pools beside that of the database, and never
ends in a fault of size.
-/
set_option autoImplicit false

namespace TableSteward

/-! ## Faults of size -/

/-- The fault of an export that has too many rows. -/
def Fault.IsOfSize : Fault → Prop
  | .refused (.exportTooLarge ..) => True
  | _ => False

theorem Refusal.IsOfFilter.not_isOfSize {r : Refusal} (h : r.IsOfFilter) : ¬ (Fault.refused r).IsOfSize := by
  intro hsize
  cases r with
  | exportTooLarge total limit scope =>
      obtain ⟨hkind, -⟩ := h
      simp [Refusal.kind] at hkind
  | _ => exact hsize

namespace Result

variable {α β : Type} {x : Result α}

/-- No fault of size. -/
def Modest (x : Result α) : Prop := ∀ f, x = .error f → ¬ f.IsOfSize

theorem modest_ok (a : α) : Modest (.ok a) := fun _ h => nomatch h

theorem modest_error {f : Fault} (h : ¬ f.IsOfSize) : Modest (.error f : Result α) := by
  intro g hg
  obtain rfl := Except.error.inj hg
  exact h

theorem modest_of_concludes {P : Prop} (h : Concludes P x) : x.Modest := by
  rcases h.exhaustive with ⟨a, rfl⟩ | ⟨r, rfl, hr⟩ | rfl
  · exact modest_ok a
  · exact modest_error hr.not_isOfSize
  · exact modest_error id

theorem Modest.bind {f : α → Result β} (hx : x.Modest) (hf : ∀ a, (f a).Modest) : (x >>= f).Modest := by
  intro e he
  rcases bind_error_iff.mp he with h | ⟨a, -, h⟩
  · exact hx e h
  · exact hf a e h

theorem modest_mapM {f : α → Result β} (hf : ∀ a, (f a).Modest) (xs : List α) : (xs.mapM f).Modest := by
  intro e he
  obtain ⟨_, x, _, -, -, hx⟩ := mapM_error_iff.mp he
  exact hf x e hx

end Result

open Result

/-! ## Names, values and filters -/

theorem Value.modest_toInteger (v : Value) : v.toInteger.Modest := by
  have hread (s : String) : (readInteger s).Modest := by
    unfold readInteger
    split
    · exact modest_ok _
    · exact modest_error id
  cases v with
  | bool b => exact modest_ok _
  | int n => exact modest_ok _
  | real x | decimal d =>
      simp only [toInteger]
      split
      · exact modest_ok _
      · exact modest_error id
      · exact modest_error id
  | uuid u => exact modest_ok _
  | text s => exact hread s
  | bytes bs | memory bs => exact hread _
  | _ => exact modest_error id

theorem Identifier.modest_ofText (role s : String) : (ofText role s).Modest :=
  modest_of_concludes (concludes_ofText role s)

theorem Identifier.modest_ofValue (role : String) (v : Value) : (ofValue role v).Modest := by
  cases v with
  | text s => exact modest_ofText role s
  | _ => exact modest_error id

theorem TableRef.modest_ofText (s : String) : (ofText s).Modest := by
  unfold ofText
  split
  · exact modest_error id
  · split
    · exact (Identifier.modest_ofText _ _).bind fun _ => modest_ok _
    · exact (Identifier.modest_ofText _ _).bind fun _ => (Identifier.modest_ofText _ _).bind fun _ => modest_ok _
    · exact modest_error id

theorem Name.modest_ofValue (v : Value) : (ofValue v).Modest := by
  cases v with
  | text s => exact modest_ok s
  | _ => exact modest_error id

theorem Identifier.modest_knownColumn (name : String) (known : List Value) (table : String) :
    (knownColumn name known table).Modest := by
  refine (modest_ofText _ name).bind fun column => ?_
  split
  · exact modest_ok column
  · exact (modest_mapM Name.modest_ofValue known).bind fun _ => modest_error id

theorem JoinPlan.modest_split (p : JoinPlan) (reference : String) : (p.split reference).Modest := by
  unfold split
  dsimp only
  split
  · exact modest_error id
  · split
    · exact modest_ok _
    · split
      · exact modest_error id
      · split
        · exact modest_ok _
        · exact modest_error id
    · exact modest_error id

theorem JoinPlan.modest_resolve (p : JoinPlan) (reference : String) : (p.resolve reference).Modest :=
  (p.modest_split reference).bind fun _ => (Identifier.modest_knownColumn _ _ _).bind fun _ => modest_ok _

theorem Where.modest_ofFilters {resolve : Resolver} (hresolve : ∀ name, (resolve name).Modest)
    (filters : List FilterSpec) : (ofFilters resolve filters).Modest := by
  have hcondition (f : FilterSpec) : (condition resolve f).Modest :=
    (modest_of_concludes (Operator.concludes_ofName f.operator)).bind fun operator =>
      (hresolve f.column).bind fun column => modest_of_concludes (Condition.concludes_ofFilter f column operator)
  exact (modest_mapM hcondition filters).bind fun _ => modest_ok _

theorem JoinPlan.modest_defaultOrder (key : List Value) : (defaultOrder key).Modest := by
  unfold defaultOrder
  split
  · exact modest_ok _
  · exact modest_mapM (fun _ => (Identifier.modest_ofValue _ _).bind fun _ => modest_ok _) _

theorem modest_orderTerms {resolve : Resolver} (hresolve : ∀ name, (resolve name).Modest) (sort : List SortSpec)
    (tieBreakers : List OrderKey) : (orderTerms sort resolve tieBreakers).Modest := by
  have hterm (s : SortSpec) : (OrderTerm.ofSort resolve s).Modest := (hresolve s.column).bind fun _ => modest_ok _
  exact (modest_mapM hterm sort).bind fun _ => modest_ok _

theorem Row.modest_cell (row : Row) (column : String) : (row.cell column).Modest := by
  unfold cell
  split
  · exact modest_ok _
  · exact modest_error id

theorem Row.modest_first (row : Row) : row.first.Modest := by
  cases row with
  | nil => exact modest_error id
  | cons entry rest => exact modest_ok _

/-! ## Exchanges -/

namespace Exchange

variable {σ α β : Type}

/-- The pools that have been opened, in their order. -/
def openings : Effects σ (Entries Unit) where
  nothing := []
  append_nothing := List.append_nil
  between p l m := m.pools = { l.pools with opened := l.pools.opened ++ p }
  refl l := by rw [List.append_nil]
  trans {p q l m n} hp hq := by rw [hq, hp, List.append_assoc]

/-- Opens no pool, and ends in no fault of size. -/
def Modest (x : Exchange σ α) : Prop := Has openings x fun r p => r.Modest ∧ p = []

theorem modest_lift {r : Result α} (h : r.Modest) : Modest (lift r : Exchange σ α) := has_lift r ⟨h, rfl⟩

theorem modest_pure (a : α) : Modest (pure a : Exchange σ α) := has_pure ⟨modest_ok a, rfl⟩

theorem modest_throw {f : Fault} (h : ¬ f.IsOfSize) : Modest (throw f : Exchange σ α) :=
  has_throw ⟨modest_error h, rfl⟩

theorem modest_require (holds : Bool) {f : Fault} (h : ¬ f.IsOfSize) :
    Modest (require holds f : Exchange σ Unit) := by
  cases holds with
  | true => exact modest_pure ()
  | false => exact modest_throw h

theorem Modest.bind {x : Exchange σ α} {k : α → Exchange σ β} (hx : Modest x) (hk : ∀ a, Modest (k a)) :
    Modest (x >>= k) := by
  refine Has.bind hx ?_ fun f p h => ⟨modest_error (h.1 f rfl), h.2⟩
  rintro a p ⟨-, rfl⟩
  exact hk a

theorem Modest.discard {x : Exchange σ α} (hx : Modest x) : Modest (Functor.discard x) := by
  have hdiscard : Functor.discard x = x >>= fun _ => pure ⟨⟩ := map_eq_pure_bind _ x
  rw [hdiscard]
  exact hx.bind fun _ => modest_pure _

/-- What fails on a connection leaves its fault to what comes after. -/
theorem Modest.attempt_bind {x : Exchange σ α} {k : Result α → Exchange σ β} (hx : Modest x)
    (hk : ∀ r : Result α, r.Modest → Modest (k r)) : Modest (attempt x >>= k) := by
  refine (has_attempt hx).bind ?_ (by rintro f p ⟨_, h, -⟩; cases h)
  rintro _ p ⟨r, hr, hmodest, rfl⟩
  obtain rfl := Except.ok.inj hr
  exact hk _ hmodest

theorem Modest.reporting {x : Exchange σ α} (task : FailedTask) (hx : Modest x) : Modest (reporting task x) := by
  refine (has_reporting task hx).weaken ?_
  rintro _ p ⟨r, rfl, hr, hp⟩
  refine ⟨fun f hf => ?_, hp⟩
  cases r with
  | ok a => exact nomatch hf
  | error g =>
      cases hf
      show ¬ (if g = .database then Fault.refused (.failed task) else g).IsOfSize
      split
      · exact id
      · exact hr g rfl

theorem modest_note (e : Event) : Modest (note e : Exchange σ Unit) :=
  fun l => ⟨[], openings.refl l, modest_ok _, rfl⟩

/-- A pool that has been used is open. -/
theorem usePool_of_usePool {name : String} {l m n : Link σ} (huse : (usePool name).runOn l = (.ok (), m))
    (hpools : n.pools = m.pools) : (usePool name).runOn n = (.ok (), n) := by
  have hopened : m.pools.opened.get? name = some () := by
    rw [runOn_usePool] at huse
    split at huse
    · rename_i pool _ hpool
      cases huse
      exact hpool
    · cases huse
    · rename_i hnone _
      cases huse
      have hlookup : List.lookup name l.pools.opened = none := hnone
      simp [Entries.get?, List.lookup_append, hlookup]
  rw [runOn_usePool, hpools, hopened]

theorem usePool_again (name : String) (l : Link σ) :
    (usePool name).runOn ((usePool name).runOn l).2 = (usePool name).runOn l := by
  rcases huse : (usePool name).runOn l with ⟨f | u, m⟩
  · obtain rfl : m = l := by
      rw [runOn_usePool] at huse
      split at huse <;> cases huse
      rfl
    exact huse
  · exact usePool_of_usePool huse rfl

section Calls

variable [Server σ]

theorem modest_ask (c : Call) : Modest (ask c : Exchange σ (List Row)) := by
  intro l
  refine ⟨[], ?_, ?_, rfl⟩
  · rw [runOn_ask]
    exact openings.refl l
  · rw [runOn_ask]
    cases (Server.answer l.server c).1 with
    | none => exact modest_error id
    | some rows => exact modest_ok rows

theorem modest_execute (c : Connection) (s : Statement) : Modest (execute c s : Exchange σ (List Row)) :=
  (modest_note _).bind fun _ => modest_ask _

theorem modest_connect (site : Site) : Modest (connect site : Exchange σ Connection) := by
  intro l
  rw [runOn_connect]
  refine ⟨[], ?_⟩
  split
  · exact ⟨openings.refl l, modest_ok _, rfl⟩
  · exact ⟨openings.refl l, modest_error id, rfl⟩

/-- What is asked for a transaction and told to the trace. -/
theorem modest_told (c : Call) (e : Event) : Modest (discard (ask c) >>= fun _ => note e : Exchange σ Unit) :=
  (modest_ask c).discard.bind fun _ => modest_note e

theorem modest_within {c : Connection} {milliseconds : Int} {body : Exchange σ α} (hbody : Modest body) :
    Modest (within c milliseconds body) := by
  have hentering : Modest (entering c milliseconds : Exchange σ Unit) :=
    (modest_execute c _).discard.bind fun _ => (modest_execute c _).discard
  rw [within, inTransaction_eq]
  refine (modest_told _ _).bind fun _ => ?_
  refine (hentering.bind fun _ => hbody).attempt_bind fun r hr => ?_
  cases r with
  | ok a => exact (modest_told _ _).bind fun _ => modest_pure a
  | error f => exact (modest_told _ _).bind fun _ => modest_throw (hr f rfl)

theorem modest_onConnection (site : Site) {body : Connection → Exchange σ α} (hbody : ∀ c, Modest (body c)) :
    Modest (onConnection site body) :=
  (modest_connect site).bind fun c => (hbody c).attempt_bind fun _ hr => (modest_note _).bind fun _ => modest_lift hr

/-- After a block that has an answer, the pool of its database is open. -/
theorem readOnly_of_modest (name : String) (timeout : Value) {body : Connection → Exchange σ α}
    (hbody : ∀ c, Modest (body c)) (l : Link σ) :
    ((readOnly name timeout body).runOn l).1.Modest ∧
      ∀ a m, (readOnly name timeout body).runOn l = (.ok a, m) → (usePool name).runOn m = (.ok (), m) := by
  have hblock : Modest (do
      let milliseconds ← lift timeout.toInteger
      reporting .readRows <| onConnection (.browsed name) fun c => within c milliseconds (body c)
      : Exchange σ α) := by
    refine (modest_lift timeout.modest_toInteger).bind fun milliseconds => Modest.reporting _ ?_
    exact modest_onConnection _ fun c => modest_within (hbody c)
  rw [readOnly_eq, runOn_bind]
  rcases huse : (usePool name).runOn l with ⟨f | u, m⟩
  · rw [runOn_usePool] at huse
    split at huse
    · cases huse
    · cases huse
      exact ⟨modest_error id, nofun⟩
    · cases huse
  · obtain ⟨_, hpools, hmodest, rfl⟩ := hblock m
    refine ⟨hmodest, fun a n hrun => usePool_of_usePool huse ?_⟩
    have hn : n = _ := (congrArg Prod.snd hrun).symm
    rw [hn, hpools, List.append_nil]

end Calls

end Exchange

/-! ## Preparing and counting -/

open Exchange

section Prepare

variable {σ : Type} {l m : Link σ}

theorem Gate.modest_authorize (g : Gate) (bypass : Bool) {tableExists : TableRef → Exchange σ Bool}
    (hexists : ∀ t, Modest (tableExists t)) (database name : String) :
    Modest (g.authorize bypass tableExists database (.text name)) := by
  rw [authorize_eq]
  refine (modest_lift (TableRef.modest_ofText name)).bind fun t => ?_
  refine (modest_require _ id).bind fun _ => ?_
  refine (hexists t).bind fun _ => ?_
  refine (modest_require _ id).bind fun _ => ?_
  refine (modest_require _ id).bind fun _ => ?_
  refine (modest_require _ id).bind fun _ => ?_
  exact (modest_require _ id).bind fun _ => modest_pure t

/-- Who is let in has a role whose name is a key. -/
theorem Gate.hasRoleName_of_authorize {g : Gate} {bypass : Bool} {tableExists : TableRef → Exchange σ Bool}
    {database name : String} {t : TableRef}
    (h : runOn (g.authorize bypass tableExists database (.text name)) l = (.ok t, m)) : g.hasRoleName = true := by
  rw [authorize_eq] at h
  obtain ⟨_, _, -, h⟩ := of_runOn_bind h
  cases hname : g.hasRoleName with
  | true => rfl
  | false =>
      rw [hname] at h
      cases h

variable [Server σ]

theorem Browser.modest_prepare (b : Browser) (r : Requester) (c : Connection) (q : TableRequest) :
    Modest (b.prepare r c q : Exchange σ Prepared) := by
  have hexists (t : TableRef) : Modest (Catalog.tableExists c t : Exchange σ Bool) :=
    (modest_execute c _).bind fun _ => modest_pure _
  refine ((b.gate r).modest_authorize false hexists q.database q.table).bind fun ref => ?_
  refine ((modest_execute c _).bind fun rows =>
    modest_lift (modest_mapM (fun row => row.modest_cell _) rows)).bind fun columns => ?_
  refine (modest_lift (Where.modest_ofFilters (JoinPlan.modest_resolve _) q.filters)).bind fun conditions => ?_
  refine ((modest_execute c _).bind fun rows =>
    modest_lift (modest_mapM Row.modest_first rows)).bind fun key => ?_
  refine (modest_lift (JoinPlan.modest_defaultOrder key)).bind fun tieBreakers => ?_
  exact (modest_lift (modest_orderTerms (JoinPlan.modest_resolve _) q.sort tieBreakers)).bind fun _ => modest_pure _

theorem Page.modest_countRows (c : Connection) (q : Query) : Modest (countRows c q : Exchange σ Int) := by
  refine (modest_execute c _).bind fun rows => ?_
  dsimp only
  split
  · exact modest_lift (Value.modest_toInteger _)
  · exact modest_pure 0

/-- What preparing and counting leads to: a fault that is not of size, or a number of rows for a requester whose role
has a key for its name, and the pool of the database is open then. -/
theorem Browser.prepareCount_cases (b : Browser) (r : Requester) (q : TableRequest) (l : Link σ) :
    (∃ f m, (b.prepareCount r q).runOn l = (.error f, m) ∧ ¬ f.IsOfSize) ∨
    ∃ p total m, (b.prepareCount r q).runOn l = (.ok (p, total), m) ∧ r.user.role.isKey = true ∧
      (usePool q.database).runOn m = (.ok (), m) := by
  obtain ⟨hmodest, hopen⟩ := readOnly_of_modest q.database b.timeout
    (fun c => (b.modest_prepare r c q).bind fun prepared =>
      (Page.modest_countRows c (.table prepared.query)).bind fun total => modest_pure (prepared, total)) l
  rcases hrun : (b.prepareCount r q).runOn l with ⟨f | ⟨p, total⟩, m⟩
  · exact .inl ⟨f, m, rfl, hmodest f (congrArg Prod.fst hrun)⟩
  · refine .inr ⟨p, total, m, rfl, ?_, hopen _ m hrun⟩
    obtain ⟨c, k, n, hbody⟩ := body_of_readOnly hrun
    obtain ⟨prepared, _, hprepare, -⟩ := of_runOn_bind hbody
    obtain ⟨ref, _, hauthorize, -⟩ := of_runOn_bind hprepare
    exact Gate.hasRoleName_of_authorize hauthorize

end Prepare

/-! ## Limits -/

/-- How an export that exceeds its limit is refused: the absolute ceiling is told first. -/
def ExportCheck.refusal (c : ExportCheck) (ceiling : Int) : Refusal :=
  if ceiling < c.total then .exportTooLarge c.total ceiling .absolute else .exportTooLarge c.total c.limit .role

theorem ExportCheck.isOfSize_refusal (c : ExportCheck) (ceiling : Int) :
    (Fault.refused (c.refusal ceiling)).IsOfSize := by
  unfold refusal
  split <;> trivial

/-- What a client is told in so many words. -/
theorem ExportCheck.canExport_iff (c : ExportCheck) (can : Bool) :
    c.toValue.entry? "canExport" = some (.bool can) ↔ c.exceedsLimit = !can := by
  have hentry : c.toValue.entry? "canExport" = some (.bool !c.exceedsLimit) := by
    rfl
  rw [hentry]
  cases c.exceedsLimit <;> cases can <;> simp

namespace Policy

variable {p : Policy} {role : Value} {total : Int} {c : ExportCheck}

theorem checkExport_of_isKey (p : Policy) (hrole : role.isKey = true) (total : Int) :
    ∃ c, p.checkExport role total = .ok c := by
  rw [checkExport, lookUp, if_pos hrole]
  exact ⟨_, rfl⟩

theorem of_checkExport (h : p.checkExport role total = .ok c) :
    p.lookUp role = .ok (p.role role) ∧ c.total = total ∧ c.limit = p.maxExportRows role := by
  obtain ⟨found, hfound, h⟩ := Result.of_bind_ok h
  cases h
  refine ⟨?_, rfl, rfl⟩
  cases hrole : role.isKey with
  | true => exact if_pos hrole
  | false =>
      rw [lookUp, hrole] at hfound
      cases hfound

/-- The one limit of a check is as strict as the two of an export. -/
theorem enforce_of_checkExport (h : p.checkExport role total = .ok c) :
    p.enforce role total = if c.exceedsLimit then refuse (c.refusal p.absoluteCeiling) else .ok () := by
  obtain ⟨hfound, rfl, hlimit⟩ := of_checkExport h
  have hbelow : c.limit ≤ p.absoluteCeiling := hlimit ▸ p.maxExportRows_le role
  unfold enforce enforceAbsolute ExportCheck.refusal
  rw [hfound, ← hlimit]
  by_cases habsolute : p.absoluteCeiling < c.total
  · have hexceeds : c.exceedsLimit = true := decide_eq_true (Int.lt_of_le_of_lt hbelow habsolute)
    rw [if_pos habsolute, if_pos habsolute, if_pos hexceeds]
    rfl
  · rw [if_neg habsolute, if_neg habsolute]
    cases hexceeds : c.exceedsLimit with
    | true => exact if_pos (of_decide_eq_true hexceeds)
    | false => exact if_neg (of_decide_eq_false hexceeds)

theorem enforceAbsolute_of_checkExport (h : p.checkExport role total = .ok c) (hroom : c.exceedsLimit = false) :
    enforceAbsolute total p.absoluteCeiling = .ok () := by
  obtain ⟨-, rfl, hlimit⟩ := of_checkExport h
  have hbelow : c.limit ≤ p.absoluteCeiling := hlimit ▸ p.maxExportRows_le role
  have hfits : ¬ c.limit < c.total := of_decide_eq_false hroom
  exact if_neg (by omega)

end Policy

/-! ## The check and the export -/

namespace Browser

variable {σ : Type} [Server σ]

/-- A check with an answer has counted, and the export goes on from where the check ends. -/
theorem runOn_exportAll_of_check {b : Browser} {r : Requester} {q : TableRequest} {l m : Link σ} {p : Prepared}
    {total : Int} {c : ExportCheck} (hcount : (b.prepareCount r q).runOn l = (.ok (p, total), m))
    (hcheck : b.policy.checkExport r.user.role total = .ok c) (hpool : (usePool q.database).runOn m = (.ok (), m)) :
    ((b.exportAll r q).runOn l).2 = m ∧
      (c.exceedsLimit = true → ((b.exportAll r q).runOn l).1 = refuse (c.refusal b.policy.absoluteCeiling)) ∧
      (c.exceedsLimit = false → ∃ d, ((b.exportAll r q).runOn l).1 = .ok d) := by
  rw [exportAll, runOn_bind, hcount]
  dsimp only
  rw [Policy.enforce_of_checkExport hcheck]
  cases hexceeds : c.exceedsLimit with
  | true => exact ⟨rfl, fun _ => rfl, nofun⟩
  | false =>
      have hstream (e : CursorExport σ) :
          TextStream.ofQuery e total b.policy.absoluteCeiling = .ok (.cursor e .waiting) := by
        rw [TextStream.ofQuery, Policy.enforceAbsolute_of_checkExport hcheck hexceeds]
        rfl
      have hpassed : (lift (if false = true then refuse (c.refusal b.policy.absoluteCeiling) else .ok ()) :
          Exchange σ Unit).runOn m = (.ok (), m) := rfl
      rw [runOn_bind, hpassed]
      dsimp only
      rw [runOn_bind, hpool]
      dsimp only
      rw [hstream]
      exact ⟨rfl, nofun, fun _ => ⟨_, rfl⟩⟩

/-- A check that is asked again of a database that has not changed is answered as before. -/
theorem exportCheck_of_matches (b : Browser) (r : Requester) (q : TableRequest) {R : Counterparts → σ → σ → Prop}
    (hR : Server.Separates R) {ps : Counterparts} {l m : Link σ}
    (hmatch : ((usePool q.database).runOn l).2.Matches R ps m) :
    ((b.exportCheck r q).runOn l).1 = ((b.exportCheck r q).runOn m).1 := by
  obtain ⟨t, -, hon⟩ := b.isDialogue_count (σ := σ) r { q with sort := [] }
  have hagree : Agree R ps (b.exportCheck r q : Exchange σ ExportCheck) (b.exportCheck r q) :=
    agree_bind (agree_readOnly hR q.database b.timeout hon) fun _ _ _ => agree_lift _
  have hopened : (b.exportCheck r q).runOn ((usePool q.database).runOn l).2 = (b.exportCheck r q).runOn l := by
    rw [exportCheck, prepareCount, readOnly_eq, bind_assoc, runOn_bind, runOn_bind, usePool_again]
  obtain ⟨_, -, -, hout⟩ := hagree _ m hmatch
  rw [hopened] at hout
  exact eq_of_outcomes hout

/-- What the check says is what the export comes to.  A fault that is not of size is told by both; otherwise the check
tells whether the export will be refused, and how; and the export, until its stream is read, does nothing that the check
does not do.  It makes no difference when the check is asked, as long as the database does not change. -/
theorem exportCheck_forecasts (b : Browser) (r : Requester) (q : TableRequest) (m : Link σ) :
    let checked := (b.exportCheck r q).runOn m
    let exported := (b.exportAll r { q with sort := [] }).runOn m
    (∀ f, checked.1 = .error f ↔ exported.1 = .error f ∧ ¬ f.IsOfSize) ∧
    (∀ c, checked.1 = .ok c →
      (c.toValue.entry? "canExport" = some (.bool true) ↔ ∃ d, exported.1 = .ok d) ∧
      (c.toValue.entry? "canExport" = some (.bool false) ↔
        exported.1 = refuse (c.refusal b.policy.absoluteCeiling))) ∧
    exported.2 = checked.2 ∧
    ∀ R ps l, Server.Separates R → ((usePool q.database).runOn l).2.Matches R ps m →
      ((b.exportCheck r q).runOn l).1 = checked.1 := by
  intro checked exported
  have hearlier : ∀ R ps l, Server.Separates R → ((usePool q.database).runOn l).2.Matches R ps m →
      ((b.exportCheck r q).runOn l).1 = checked.1 := fun _ _ _ hR hmatch => b.exportCheck_of_matches r q hR hmatch
  rcases b.prepareCount_cases r { q with sort := [] } m with ⟨f, n, hcount, hf⟩ | ⟨p, total, n, hcount, hrole, hpool⟩
  · have hchecked : checked = (.error f, n) := by
      simp only [checked, exportCheck, runOn_bind, hcount]
    have hexported : exported = (.error f, n) := by
      simp only [exported, exportAll, runOn_bind, hcount]
    rw [hchecked] at hearlier ⊢
    rw [hexported]
    refine ⟨fun g => ⟨fun hg => ?_, fun ⟨hg, _⟩ => ?_⟩, nofun, rfl, hearlier⟩
    · cases hg
      exact ⟨rfl, hf⟩
    · cases hg
      rfl
  · obtain ⟨c, hcheck⟩ := b.policy.checkExport_of_isKey hrole total
    have hchecked : checked = (.ok c, n) := by
      simp only [checked, exportCheck, runOn_bind, hcount, hcheck]
      rfl
    obtain ⟨hlink, hrefused, hopened⟩ := runOn_exportAll_of_check hcount hcheck hpool
    rw [hchecked] at hearlier ⊢
    refine ⟨fun g => ⟨nofun, fun ⟨hg, hsize⟩ => ?_⟩, ?_, hlink, hearlier⟩
    · cases hexceeds : c.exceedsLimit with
      | true =>
          obtain rfl := Except.error.inj (hg.symm.trans (hrefused hexceeds))
          exact absurd (c.isOfSize_refusal _) hsize
      | false =>
          obtain ⟨d, hd⟩ := hopened hexceeds
          exact nomatch hg.symm.trans hd
    · rintro _ ⟨⟩
      rw [c.canExport_iff, c.canExport_iff]
      cases hexceeds : c.exceedsLimit with
      | true =>
          have hexported := hrefused hexceeds
          refine ⟨⟨nofun, fun ⟨d, hd⟩ => ?_⟩, fun _ => hexported, fun _ => rfl⟩
          exact nomatch hd.symm.trans hexported
      | false =>
          obtain ⟨d, hd⟩ := hopened hexceeds
          refine ⟨⟨fun _ => ⟨d, hd⟩, fun _ => rfl⟩, nofun, fun hexported => ?_⟩
          exact nomatch hd.symm.trans hexported

end Browser

/-! ## A table of three rows -/

namespace Ledger

/-- The browser for analysts with a limit of their own. -/
def browserFor (limit ceiling : Int) : Browser :=
  { desk.browser with policy := ⟨[(.text "analyst", ⟨.text "analyst", .standard, limit, false⟩)], 1, ceiling⟩ }

/-- An export after a check, with the database as it was. -/
def exportedFor (limit ceiling : Int) : Result (Download (Journal Clerk)) :=
  let checked := ((browserFor limit ceiling).exportCheck analyst request).runOn (clerkLink [])
  (((browserFor limit ceiling).exportAll analyst request).runOn checked.2).1

/-- Three rows under limits that allow them, under a ceiling of two rows that is below the limit of the role, and under
limits of the role of two rows and of less than none. -/
theorem exportCheck_forecasts_three_rows :
    Server.Separates SameStill ∧
    (∃ d, exportedFor 3 3 = .ok d) ∧
    exportedFor 100 2 = refuse (.exportTooLarge 3 2 .absolute) ∧
    exportedFor 2 3 = refuse (.exportTooLarge 3 2 .role) ∧
    exportedFor (-1) 3 = refuse (.exportTooLarge 3 (-1) .role) := by
  have hforecast (limit ceiling : Int) :
      let c : ExportCheck := ⟨3, min limit ceiling, 1, false⟩
      (c.toValue.entry? "canExport" = some (.bool true) ↔ ∃ d, exportedFor limit ceiling = .ok d) ∧
      (c.toValue.entry? "canExport" = some (.bool false) ↔
        exportedFor limit ceiling = refuse (c.refusal ceiling)) := by
    intro c
    let m := (((browserFor limit ceiling).exportCheck analyst request).runOn (clerkLink [])).2
    obtain ⟨-, hanswer, -, hagain⟩ := (browserFor limit ceiling).exportCheck_forecasts analyst request m
    have hmatch : ((Exchange.usePool "Prod").runOn (clerkLink [])).2.Matches SameStill [] m := ⟨rfl, rfl, nofun⟩
    have hbefore : (((browserFor limit ceiling).exportCheck analyst request).runOn (clerkLink [])).1 = .ok c := rfl
    exact hanswer c ((hagain SameStill [] (clerkLink []) separates_clerks hmatch).symm.trans hbefore)
  refine ⟨separates_clerks, ?_, ?_, ?_, ?_⟩
  · exact (hforecast 3 3).1.mp rfl
  · exact (hforecast 100 2).2.mp rfl
  · exact (hforecast 2 3).2.mp rfl
  · exact (hforecast (-1) 3).2.mp rfl

end Ledger

end TableSteward

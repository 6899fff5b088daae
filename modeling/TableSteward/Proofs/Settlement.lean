import Mathlib.Tactic.Choose
import TableSteward.Proofs.Errand
import TableSteward.Proofs.Footprint

/-!
# Settled outcomes

While the contents of a database stay as they are, they settle what a computation comes to, however often and on
whichever connection it is run: only a call that fails can still change its outcome.  Here this is followed through
everything that is done to read a table, from the gate to the last page.
-/
set_option autoImplicit false

namespace TableSteward

open Exchange

/-! ## Contents -/

/-- The part of some rows that a window shows. -/
def Window.slice (w : Window) (rows : List Row) : List Row :=
  let rest := rows.drop (w.offset.getD 0).toNat
  w.limit.elim rest fun n => rest.take n.toNat

/-- What a database holds: what its catalog answers of a table, and the rows of each query in order. -/
structure Contents where
  found : TableRef → List Row
  columns : TableRef → List Row
  primaryKey : TableRef → List Row
  rows : Query → List Row

namespace Contents

def answer? (k : Contents) : Statement → Option (List Row)
  | .tableExists t => some (k.found t)
  | .columns t => some (k.columns t)
  | .primaryKey t => some (k.primaryKey t)
  | .count q => some [[("count", .int (k.rows q).length)]]
  | .page q w => some (w.slice (k.rows q))
  | _ => none

/-- The calls that were answered at all were answered from the contents. -/
def Answers (k : Contents) (js : List Entry) : Prop :=
  ∀ e ∈ js, ∀ c s rows expected, e = ⟨.execute c s, some rows⟩ → k.answer? s = some expected →
    rows = expected

/-- The names of the columns of a table are these. -/
def Lists (k : Contents) (t : TableRef) (columns : List Value) : Prop :=
  (k.columns t).mapM (fun row => row.cell "column_name") = .ok columns

theorem Answers.of_append_left {k : Contents} {js js' : List Entry} (h : k.Answers (js ++ js')) :
    k.Answers js := fun e he => h e (List.mem_append_left _ he)

theorem Answers.of_append_right {k : Contents} {js js' : List Entry} (h : k.Answers (js ++ js')) :
    k.Answers js' := fun e he => h e (List.mem_append_right _ he)

end Contents

/-! ## Outcomes -/

/-- An outcome is as expected, or it is a fault after a call that failed. -/
def Settled {α : Type} (k : Contents) (expected : Result α) (r : Result α) (p : Footprint) : Prop :=
  k.Answers p.calls → r = expected ∨ (∃ f, r = .error f) ∧ ∃ e ∈ p.calls, e.answer = none

theorem Settled.trans {α : Type} {k : Contents} {r mid out : Result α} {p q : Footprint}
    (hp : Settled k r mid p) (hq : Settled k mid out q) : Settled k r out (p ++ q) := by
  intro hanswers
  rcases hp hanswers.of_append_left with rfl | ⟨⟨f, rfl⟩, e, he, hfailed⟩
  · rcases hq hanswers.of_append_right with rfl | ⟨hfault, e, he, hfailed⟩
    · exact .inl rfl
    · exact .inr ⟨hfault, e, List.mem_append_right _ he, hfailed⟩
  · right
    refine ⟨?_, e, List.mem_append_left _ he, hfailed⟩
    rcases hq hanswers.of_append_right with rfl | ⟨hfault, -⟩
    · exact ⟨f, rfl⟩
    · exact hfault

theorem Settled.after {α : Type} {k : Contents} {r out : Result α} {q : Footprint} (p : Footprint)
    (h : Settled k r out q) : Settled k r out (p ++ q) := by
  intro hanswers
  rcases h hanswers.of_append_right with rfl | ⟨hfault, e, he, hfailed⟩
  · exact .inl rfl
  · exact .inr ⟨hfault, e, List.mem_append_right _ he, hfailed⟩

namespace Exchange

variable {σ α β : Type} {k : Contents}

theorem settled_pure (a : α) : Leaves (pure a : Exchange (Journal σ) α) (Settled k (.ok a)) :=
  leaves_pure fun _ => .inl rfl

theorem settled_lift (r : Result α) : Leaves (lift r : Exchange (Journal σ) α) (Settled k r) :=
  leaves_lift r fun _ => .inl rfl

theorem settled_require (holds : Bool) (f : Fault) :
    Leaves (require holds f : Exchange (Journal σ) Unit)
      (Settled k (if holds then .ok () else .error f)) := by
  cases holds with
  | true => exact settled_pure ()
  | false => exact leaves_throw fun _ => .inl rfl

theorem settled_bind {x : Exchange (Journal σ) α} {g : α → Exchange (Journal σ) β} {r : Result α}
    {s : α → Result β} (hx : Leaves x (Settled k r)) (hg : ∀ a, Leaves (g a) (Settled k (s a))) :
    Leaves (x >>= g) (Settled k (r >>= s)) := by
  refine hx.bind ?_ ?_
  · intro a p ha
    have hstart : Settled k (r >>= s) (s a) p := by
      intro hanswers
      rcases ha hanswers with rfl | ⟨⟨f, hf⟩, -⟩
      · exact .inl rfl
      · exact nomatch hf
    exact (hg a).weaken fun out q hout => hstart.trans hout
  · intro f p hf hanswers
    rcases hf hanswers with rfl | ⟨-, hfailed⟩
    · exact .inl rfl
    · exact .inr ⟨⟨f, rfl⟩, hfailed⟩

/-- A call of which only the success matters. -/
theorem settled_of_called {call : Call} {x : Exchange (Journal σ) Unit}
    (hx : Leaves x (Called call fun _ => ())) : Leaves x (Settled k (.ok ())) := by
  refine hx.weaken ?_
  rintro _ _ (_ | _) -
  · exact .inl rfl
  · exact .inr ⟨⟨_, rfl⟩, _, List.mem_singleton_self _, rfl⟩

/-- The fault that is reported instead of another. -/
def reported (task : FailedTask) (f : Fault) : Fault := if f = .database then .refused (.failed task) else f

theorem settled_reporting (task : FailedTask) {x : Exchange (Journal σ) α} {r : Result α}
    (hx : Leaves x (Settled k r)) :
    Leaves (reporting task x) (Settled k (r.mapError (reported task))) := by
  intro l
  obtain ⟨p, hp, hsettled⟩ := hx l
  rw [runOn_reporting]
  refine ⟨p, hp, ?_⟩
  intro hanswers
  rcases hsettled hanswers with hsame | ⟨⟨f, hf⟩, hfailed⟩
  · exact .inl (congrArg (Except.mapError (reported task)) hsame)
  · right
    rw [hf]
    exact ⟨⟨_, rfl⟩, hfailed⟩

section Calls

variable [Server σ]

theorem settled_execute (c : Connection) {s : Statement} {rows : List Row}
    (h : k.answer? s = some rows) : Leaves (σ := σ) (execute c s) (Settled k (.ok rows)) := by
  refine (leaves_execute c s).weaken ?_
  rintro _ _ (answered | _) hanswers
  · left
    rw [id_eq, hanswers _ (List.mem_singleton_self _) c s answered rows rfl h]
  · exact .inr ⟨⟨_, rfl⟩, _, List.mem_singleton_self _, rfl⟩

/-- However the body ends, the end of the transaction can only add a fault of its own. -/
theorem settled_inTransaction {c : Connection} {body : Exchange (Journal σ) α} {r : Result α}
    (hbody : Leaves body (Settled k r)) : Leaves (inTransaction c body) (Settled k r) := by
  unfold inTransaction
  refine settled_bind (s := fun _ => r) (settled_of_called (leaves_begin c)) fun _ => ?_
  refine (leaves_attempt hbody).bind ?_ fun _ _ ⟨_, h, _⟩ => nomatch h
  rintro outcome p ⟨_, ⟨⟩, hsettled⟩
  cases outcome with
  | ok a =>
      have hcommit := settled_bind (settled_of_called (k := k) (leaves_commit (σ := σ) c))
        fun _ => settled_pure a
      exact hcommit.weaken fun _ _ h => hsettled.trans h
  | error f =>
      have hrollback := settled_bind (settled_of_called (k := k) (leaves_rollback (σ := σ) c))
        fun _ => settled_lift (.error f : Result α)
      exact hrollback.weaken fun _ _ h => hsettled.trans h

theorem settled_onConnection {site : Site} {body : Connection → Exchange (Journal σ) α} {r : Result α}
    (hbody : ∀ c, Leaves (body c) (Settled k r)) : Leaves (onConnection site body) (Settled k r) := by
  unfold onConnection
  refine (leaves_connect site).bind ?_ ?_
  · intro c p _
    refine (leaves_attempt (hbody c)).bind ?_ fun _ _ ⟨_, h, _⟩ => nomatch h
    rintro outcome q ⟨_, ⟨⟩, hsettled⟩
    refine (leaves_close c).bind ?_ fun _ _ h => nomatch h.1
    rintro _ _ ⟨-, rfl⟩
    have hlift : Leaves (lift outcome : Exchange (Journal σ) α) (Settled k outcome) := settled_lift outcome
    refine hlift.weaken ?_
    intro out q' hout
    exact (hsettled.trans (hout.after _)).after p
  · rintro _ _ ⟨_, -, (_ | _)⟩ -
    exact .inr ⟨⟨_, rfl⟩, _, List.mem_singleton_self _, rfl⟩

end Calls

/-! ## Pools -/

theorem usePool_server (name : String) (l : Link (Journal σ)) :
    (runOn (usePool name) l).2.server = l.server ∧ (runOn (usePool name) l).2.trace = l.trace := by
  rw [runOn_usePool]
  cases l.pools.opened.get? name <;> cases l.pools.addresses.get? name <;> exact ⟨rfl, rfl⟩

/-- A pool is opened for any database that is configured. -/
theorem usePool_ok {name : String} {l : Link (Journal σ)} (h : l.pools.has name = true) :
    (runOn (usePool name) l).1 = .ok () := by
  rw [runOn_usePool]
  cases l.pools.opened.get? name with
  | some _ => rfl
  | none =>
      obtain ⟨url, hurl⟩ := Option.isSome_iff_exists.mp h
      rw [hurl]

theorem leaves_usePool (name : String) :
    Leaves (usePool name : Exchange (Journal σ) Unit) fun _ p => p = {} := by
  intro l
  obtain ⟨hserver, htrace⟩ := usePool_server name l
  refine ⟨{}, ⟨?_, ?_⟩, rfl⟩
  · rw [hserver]
    exact (List.append_nil _).symm
  · rw [htrace]
    rfl

section Reading

variable [Server σ]

/-- What is read on a database that is configured is settled by its contents. -/
theorem settled_readOnly {name : String} {timeout : Value} {body : Connection → Exchange (Journal σ) α}
    {r : Result α} {milliseconds : Int} {l : Link (Journal σ)}
    (hpool : (runOn (usePool name) l).1 = .ok ()) (htimeout : timeout.toInteger = .ok milliseconds)
    (hbody : ∀ c, Leaves (body c) (Settled k r)) :
    ∃ p : Footprint, p.Between l (runOn (readOnly name timeout body) l).2 ∧
      Settled k (r.mapError (reported .readRows)) (runOn (readOnly name timeout body) l).1 p := by
  obtain ⟨p, hp, rfl⟩ := leaves_usePool name l
  unfold readOnly
  rw [runOn_bind, htimeout]
  rcases hrun : runOn (usePool name) l with ⟨out, m⟩
  rw [hrun] at hpool hp
  obtain rfl : out = .ok () := hpool
  have hread : Leaves (reporting .readRows <| onConnection (.browsed name) fun c => inTransaction c do
      discard (execute c .readOnly)
      discard (execute c (.timeout milliseconds))
      body c) (Settled k (r.mapError (reported .readRows))) := by
    refine settled_reporting _ (settled_onConnection fun c => settled_inTransaction ?_)
    refine settled_bind (s := fun _ => r) (settled_of_called (leaves_execute c _).discarded) fun _ => ?_
    exact settled_bind (s := fun _ => r) (settled_of_called (leaves_execute c _).discarded) fun _ => hbody c
  obtain ⟨q, hq, hsettled⟩ := hread m
  exact ⟨_, hp.trans hq, hsettled.after _⟩

theorem readOnly_requires {name : String} {timeout : Value}
    {body : Connection → Exchange (Journal σ) α} {l m : Link (Journal σ)} {a : α}
    (h : runOn (readOnly name timeout body) l = (.ok a, m)) :
    (runOn (usePool name) l).1 = .ok () ∧ ∃ milliseconds, timeout.toInteger = .ok milliseconds := by
  obtain ⟨_, l', hpool, hrest⟩ := of_runOn_bind h
  obtain ⟨milliseconds, _, htimeout, -⟩ := of_runOn_bind hrest
  refine ⟨?_, milliseconds, (of_runOn_lift htimeout).1⟩
  rw [hpool]

end Reading

end Exchange

/-! ## Preparing and counting -/

section Preparing

variable {σ α β : Type} {k : Contents}

/-- On every connection the outcome is the same, and a value that it may have is of this kind. -/
def Determines (k : Contents) (P : α → Prop) (body : Connection → Exchange (Journal σ) α) : Prop :=
  ∃ r, (∀ a, r = .ok a → P a) ∧ ∀ c, Leaves (body c) (Settled k r)

theorem Determines.andThen {P : α → Prop} {Q : β → Prop} {x : Connection → Exchange (Journal σ) α}
    {g : Connection → α → Exchange (Journal σ) β} (hx : Determines k P x)
    (hg : ∀ a, Determines k (fun b => P a → Q b) fun c => g c a) :
    Determines k Q fun c => x c >>= g c := by
  obtain ⟨r, hP, hr⟩ := hx
  choose s hQ hs using hg
  refine ⟨r >>= s, ?_, fun c => settled_bind (hr c) fun a => hs a c⟩
  intro b hb
  obtain ⟨a, ha, hb⟩ := Result.of_bind_ok hb
  exact hQ a b hb (hP a ha)

theorem Determines.weaken {P P' : α → Prop} {x : Connection → Exchange (Journal σ) α}
    (hx : Determines k P x) (h : ∀ a, P a → P' a) : Determines k P' x := by
  obtain ⟨r, hP, hr⟩ := hx
  exact ⟨r, fun a ha => h a (hP a ha), hr⟩

theorem Determines.next {P : α → Prop} {Q : β → Prop} {x : Connection → Exchange (Journal σ) α}
    {g : Connection → α → Exchange (Journal σ) β} (hx : Determines k P x)
    (hg : ∀ a, Determines k Q fun c => g c a) : Determines k Q fun c => x c >>= g c :=
  hx.andThen fun a => (hg a).weaken fun _ h _ => h

theorem determines_lift {P : α → Prop} (r : Result α) (h : ∀ a, r = .ok a → P a) :
    Determines (σ := σ) k P fun _ => lift r := ⟨r, h, fun _ => settled_lift r⟩

theorem determines_require (holds : Bool) (f : Fault) :
    Determines (σ := σ) k (fun _ => True) fun _ => require holds f :=
  ⟨_, fun _ _ => trivial, fun _ => settled_require holds f⟩

variable [Server σ]

theorem determines_execute {s : Statement} {rows : List Row} (h : k.answer? s = some rows) :
    Determines (σ := σ) k (fun found => found = rows) fun c => execute c s := by
  refine ⟨.ok rows, ?_, fun c => settled_execute c h⟩
  rintro _ ⟨⟩
  rfl

namespace Browser

variable (b : Browser) (r : Requester)

theorem determines_authorize (database table : String) :
    Determines (σ := σ) k (fun _ => True) fun c => b.authorize r c database table := by
  have hsteps : (fun c => b.authorize (σ := Journal σ) r c database table) = fun c => _ :=
    funext fun c => (b.gate r).authorize_eq false (Catalog.tableExists c) database table
  rw [hsteps]
  have hname : Determines (σ := σ) k (fun _ => True) fun _ => lift (TableRef.ofText table) :=
    determines_lift _ fun _ _ => trivial
  refine hname.next fun t => ?_
  refine (determines_require _ _).next fun _ => ?_
  have hfound : Determines (σ := σ) k (fun _ => True) fun c => Catalog.tableExists c t :=
    (determines_execute rfl).next fun rows => determines_lift (.ok !rows.isEmpty) fun _ _ => trivial
  refine hfound.next fun found => ?_
  refine (determines_require _ _).next fun _ => ?_
  refine (determines_require _ _).next fun _ => ?_
  refine (determines_require _ _).next fun _ => ?_
  refine (determines_require _ _).next fun _ => ?_
  exact determines_lift (.ok t) fun _ _ => trivial

end Browser

/-- A query of the whole main table, with the columns that the catalog lists. -/
structure Prepared.From (k : Contents) (p : Prepared) : Prop where
  selection : p.query.selection = .mainTable
  hops : p.query.plan.hops = []
  listed : k.Lists p.query.plan.main.ref p.columns

theorem Browser.determines_prepare (b : Browser) (r : Requester) (q : TableRequest) :
    Determines (σ := σ) k (Prepared.From k) fun c => b.prepare r c q := by
  unfold Browser.prepare
  refine (b.determines_authorize r q.database q.table).next fun ref => ?_
  have hcolumns : Determines (σ := σ) k (k.Lists ref) fun c => Catalog.columns c ref :=
    (determines_execute rfl).andThen fun rows => determines_lift _ fun columns hcolumns hrows => by
      rw [hrows] at hcolumns
      exact hcolumns
  refine hcolumns.andThen fun columns => ?_
  have hfilters : ∀ plan : JoinPlan, Determines (σ := σ) k (fun _ => True) fun _ =>
      lift (Where.ofFilters plan.resolve q.filters) := fun _ => determines_lift _ fun _ _ => trivial
  refine (hfilters _).next fun conditions => ?_
  have hkey : Determines (σ := σ) k (fun _ => True) fun c => Catalog.primaryKey c ref :=
    (determines_execute rfl).next fun rows => determines_lift _ fun _ _ => trivial
  refine hkey.next fun key => ?_
  have htieBreakers : Determines (σ := σ) k (fun _ => True) fun _ => lift (JoinPlan.defaultOrder key) :=
    determines_lift _ fun _ _ => trivial
  refine htieBreakers.next fun tieBreakers => ?_
  have horder : ∀ plan : JoinPlan, Determines (σ := σ) k (fun _ => True) fun _ =>
      lift (orderTerms q.sort plan.resolve tieBreakers) := fun _ => determines_lift _ fun _ _ => trivial
  refine (horder _).next fun order => ?_
  refine determines_lift (.ok _) fun p hp hlisted => ?_
  cases hp
  exact ⟨rfl, rfl, hlisted⟩

end Preparing

/-! ## Counts and pages -/

theorem Contents.countIn_eq (k : Contents) (q : Query) :
    Page.countIn [[("count", .int (k.rows q).length)]] = .ok ((k.rows q).length : Int) := by
  cases hrows : k.rows q with
  | nil => rfl
  | cons row rest =>
      have htruthy : (Value.int ((row :: rest).length : Int)).truthy = true :=
        bne_iff_ne.mpr (by rw [List.length_cons]; omega)
      unfold Page.countIn
      exact (if_pos htruthy).trans rfl

/-- The page that is shown of a query. -/
def Contents.page (k : Contents) (q : Query) (page : Value) (size : Int) : Result Page := do
  let pages ← Page.count (.int (k.rows q).length) (.int size)
  let number ← Page.clamp page pages
  let rows ← ((Window.page size ((number - 1) * size)).slice (k.rows q)).mapM Row.plain
  return ⟨rows, (k.rows q).length, number, size, pages⟩

namespace Page

variable {σ : Type} [Server σ] {k : Contents}

theorem settled_countRows (c : Connection) (q : Query) :
    Leaves (σ := σ) (countRows c q) (Settled k (.ok (k.rows q).length)) := by
  have hcount : ∀ rows : List Row, Leaves (σ := σ)
      (let v := ((rows.head?.bind List.head?).map (·.2)).getD .null
       if v.truthy then lift v.toInteger else return 0) (Settled k (countIn rows)) := by
    intro rows
    unfold countIn
    dsimp only
    split
    · exact settled_lift _
    · exact settled_pure _
  rw [← k.countIn_eq q]
  exact settled_bind (settled_execute c rfl) hcount

theorem settled_fetch (c : Connection) (q : Query) (page : Value) (size : Int) :
    Leaves (σ := σ) (fetch c q page size) (Settled k (k.page q page size)) := by
  unfold fetch
  -- Each step of the fetch is matched by the step of the page that it computes.
  have hrows : ∀ total pages number : Int, Leaves (σ := σ)
      (do
        let rows ← execute c (.page q (.page size ((number - 1) * size)))
        let rows ← lift (rows.mapM Row.plain)
        return (⟨rows, total, number, size, pages⟩ : Page))
      (Settled k (do
        let rows ← ((Window.page size ((number - 1) * size)).slice (k.rows q)).mapM Row.plain
        return ⟨rows, total, number, size, pages⟩)) := by
    intro total pages number
    have hplain : ∀ rows : List Row, Leaves (σ := σ)
        (do
          let rows ← lift (rows.mapM Row.plain)
          return (⟨rows, total, number, size, pages⟩ : Page))
        (Settled k (rows.mapM Row.plain >>= fun rows => .ok ⟨rows, total, number, size, pages⟩)) :=
      fun rows => settled_bind (settled_lift _) fun rows => settled_pure _
    have hanswer : k.answer? (.page q (.page size ((number - 1) * size))) =
        some ((Window.page size ((number - 1) * size)).slice (k.rows q)) := rfl
    have hsettled := settled_bind (settled_execute c hanswer) hplain
    exact hsettled
  have htotal := fun total : Int => settled_bind (k := k) (settled_lift (count (.int total) (.int size)))
    fun pages => settled_bind (settled_lift (clamp page pages)) fun number => hrows total pages number
  have hsettled := settled_bind (settled_countRows c q) htotal
  exact hsettled

end Page

end TableSteward

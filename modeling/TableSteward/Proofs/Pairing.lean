import TableSteward.Proofs.Admission
import TableSteward.Proofs.Journal

/-!
# Runs side by side

A pairing relates the states of two servers so that they answer alike whatever an account allows, and differ at
most in whether tables exist that a gate bars.  `Keeps` is the judgement about an exchange on the journal of the
one server and its double on the other: it executes only what the account allows, the two end alike, and their
values, if there are any, come with the evidence stated.  It is relative to the journal at the start, so that
evidence gathered earlier is an ordinary hypothesis about that journal.

Paired with itself, a server tells what one run does; paired with another, what a run gives away.
-/
set_option autoImplicit false

namespace TableSteward

/-! ## Pairings -/

/-- Two outcomes with one fault, or with related values. -/
inductive Outcomes {α β : Type} (R : α → β → Prop) : Result α → Result β → Prop
  | ok {a : α} {b : β} : R a b → Outcomes R (.ok a) (.ok b)
  | error (f : Fault) : Outcomes R (.error f) (.error f)

theorem Outcomes.imp {α β : Type} {R R' : α → β → Prop} {r : Result α} {r' : Result β}
    (h : Outcomes R r r') (hR : ∀ a b, R a b → R' a b) : Outcomes R' r r' := by
  cases h with
  | ok hab => exact .ok (hR _ _ hab)
  | error f => exact .error f

theorem Outcomes.of_ok {α β : Type} {R : α → β → Prop} {r : Result α} {r' : Result β} {a : α}
    (h : Outcomes R r r') (hr : r = .ok a) : ∃ b, r' = .ok b ∧ R a b := by
  subst hr
  cases h with
  | ok hab => exact ⟨_, rfl, hab⟩

structure Gate.Bars (g : Gate) (c : Connection) (t : TableRef) : Prop where
  keys : g.hasGrantKeys = true
  unread : ∀ database, c.site = .browsed database → g.mayRead database t.fullName = false

/-- The gate lets the same tables of two listings be browsed. -/
def Gate.Levels (g : Gate) (c : Connection) (rows rows' : List Row) : Prop :=
  ∃ xs ys, rows.mapM Listing.ofRow = .ok xs ∧ rows'.mapM Listing.ofRow = .ok ys ∧
    ∀ database, c.site = .browsed database → g.browsable database xs = g.browsable database ys

/-- An account allows every call that is no statement, and of the statements those that it accounts for and
those that are neither telling nor probes. -/
def Call.AllowedBy (call : Call) (A : Account) (js : List Entry) : Prop :=
  ∀ c s, call = .execute c s → s.isProbe = false ∧ (s.isTelling = true → A js c s)

structure Pairing (σ τ : Type) [Server σ] [Server τ] (A : Account) (g : Gate) where
  related : σ → τ → Prop
  agree : ∀ {s t}, related s t → ∀ {call js}, call.AllowedBy A js →
    Option.Rel Eq (Server.answer s call).1 (Server.answer t call).1 ∧
      related (Server.answer s call).2 (Server.answer t call).2
  probe : ∀ {s t}, related s t → ∀ c ref,
    Option.Rel (fun rows rows' => rows = rows' ∨ g.Bars c ref)
      (Server.answer s (.execute c (.tableExists ref))).1
      (Server.answer t (.execute c (.tableExists ref))).1 ∧
      related (Server.answer s (.execute c (.tableExists ref))).2
        (Server.answer t (.execute c (.tableExists ref))).2
  listing : ∀ {s t}, related s t → ∀ c,
    Option.Rel (fun rows rows' => rows = rows' ∨ g.Levels c rows rows')
      (Server.answer s (.execute c .listTables)).1 (Server.answer t (.execute c .listTables)).1 ∧
      related (Server.answer s (.execute c .listTables)).2 (Server.answer t (.execute c .listTables)).2

theorem rel_refl {R : List Row → List Row → Prop} (hR : ∀ rows, R rows rows) :
    ∀ answer : Option (List Row), Option.Rel R answer answer
  | some rows => .some (hR rows)
  | none => .none

def Pairing.self (σ : Type) [Server σ] (A : Account) (g : Gate) : Pairing σ σ A g where
  related s t := s = t
  agree := by
    rintro s _ rfl call js -
    exact ⟨rel_refl (fun _ => rfl) _, rfl⟩
  probe := by
    rintro s _ rfl c ref
    exact ⟨rel_refl (fun _ => Or.inl rfl) _, rfl⟩
  listing := by
    rintro s _ rfl c
    exact ⟨rel_refl (fun _ => Or.inl rfl) _, rfl⟩

section Keeping

variable {σ τ : Type} [Server σ] [Server τ] {A : Account} {g : Gate}

/-- Two links that differ in their servers only, which are paired behind the journal. -/
structure Link.Alike (P : Pairing σ τ A g) (l : Link (Journal σ)) (m : Link τ) : Prop where
  server : P.related l.server.server m.server
  connections : l.connections = m.connections
  trace : l.trace = m.trace
  pools : l.pools = m.pools

namespace Exchange

variable {α β γ δ : Type}

/-- How two runs may end that began with the journal `js`. -/
structure Kept (P : Pairing σ τ A g) (js : List Entry) (R : α → β → List Entry → Prop)
    (r : Result α × Link (Journal σ)) (r' : Result β × Link τ) : Prop where
  prolongs : js <+: r.2.server.entries
  accounted : Accounted A r.2.server.entries
  alike : r.2.Alike P r'.2
  outcomes : Outcomes (fun a b => R a b r.2.server.entries) r.1 r'.1

def Keeps (P : Pairing σ τ A g) (js : List Entry) (x : Exchange (Journal σ) α) (y : Exchange τ β)
    (R : α → β → List Entry → Prop) : Prop :=
  ∀ l m, l.server.entries = js → Accounted A js → l.Alike P m → Kept P js R (x.runOn l) (y.runOn m)

/-- Equal values with some evidence. -/
def Same (Q : α → List Entry → Prop) : α → α → List Entry → Prop := fun a b js => a = b ∧ Q a js

theorem Same.outcomes_eq {Q : α → List Entry → Prop} {js : List Entry} {r r' : Result α}
    (h : Outcomes (fun a b => Same Q a b js) r r') : r = r' := by
  cases h with
  | ok hab => rw [hab.1]
  | error f => rfl

/-- Evidence that later entries leave standing. -/
def Lasting (R : α → β → List Entry → Prop) : Prop :=
  ∀ a b js js', js <+: js' → R a b js → R a b js'

variable {P : Pairing σ τ A g} {js : List Entry}

/-! ## Sequences -/

section Sequences

variable {R : α → β → List Entry → Prop} {T : γ → δ → List Entry → Prop}

theorem Keeps.weaken {R' : α → β → List Entry → Prop} {x : Exchange (Journal σ) α} {y : Exchange τ β}
    (h : Keeps P js x y R) (hR : ∀ a b js', js <+: js' → R a b js' → R' a b js') :
    Keeps P js x y R' := by
  intro l m hl hA hlm
  obtain ⟨hpre, hacc, halike, hout⟩ := h l m hl hA hlm
  exact ⟨hpre, hacc, halike, hout.imp fun a b hab => hR a b _ hpre hab⟩

theorem keeps_pure {a : α} {b : β} (h : R a b js) :
    Keeps P js (pure a : Exchange (Journal σ) α) (pure b) R := by
  intro l m hl hA hlm
  subst hl
  exact ⟨List.prefix_refl _, hA, hlm, .ok h⟩

theorem keeps_throw (f : Fault) : Keeps P js (throw f : Exchange (Journal σ) α) (throw f) R := by
  intro l m hl hA hlm
  subst hl
  exact ⟨List.prefix_refl _, hA, hlm, .error f⟩

theorem Keeps.andThen {x : Exchange (Journal σ) α} {y : Exchange τ β} {k : α → Exchange (Journal σ) γ}
    {k' : β → Exchange τ δ} (hx : Keeps P js x y R)
    (hk : ∀ a b js', js <+: js' → R a b js' → Keeps P js' (k a) (k' b) T) :
    Keeps P js (x >>= k) (y >>= k') T := by
  intro l m hl hA hlm
  obtain ⟨hpre, hacc, halike, hout⟩ := hx l m hl hA hlm
  rw [runOn_bind, runOn_bind]
  rcases hrun : x.runOn l with ⟨r, l'⟩
  rcases hrun' : y.runOn m with ⟨r', m'⟩
  rw [hrun, hrun'] at halike hout
  rw [hrun] at hpre hacc
  cases hout with
  | error f => exact ⟨hpre, hacc, halike, .error f⟩
  | ok hab =>
      obtain ⟨hpre', hacc', halike', hout'⟩ := hk _ _ _ hpre hab l' m' rfl hacc halike
      exact ⟨hpre.trans hpre', hacc', halike', hout'⟩

theorem Keeps.bind {Q : α → List Entry → Prop} {x : Exchange (Journal σ) α} {y : Exchange τ α}
    {k : α → Exchange (Journal σ) γ} {k' : α → Exchange τ δ} (hx : Keeps P js x y (Same Q))
    (hk : ∀ a js', js <+: js' → Q a js' → Keeps P js' (k a) (k' a) T) :
    Keeps P js (x >>= k) (y >>= k') T := by
  apply hx.andThen
  rintro a _ js' hpre ⟨rfl, ha⟩
  exact hk a js' hpre ha

theorem keeps_discard {x : Exchange (Journal σ) α} {y : Exchange τ β} (hx : Keeps P js x y R) :
    Keeps P js (discard x) (discard y) (Same fun _ js' => ∃ a b, R a b js') := by
  intro l m hl hA hlm
  obtain ⟨hpre, hacc, halike, hout⟩ := hx l m hl hA hlm
  rw [runOn_discard, runOn_discard]
  refine ⟨hpre, hacc, halike, ?_⟩
  rcases hrun : x.runOn l with ⟨r, l'⟩
  rcases hrun' : y.runOn m with ⟨r', m'⟩
  rw [hrun, hrun'] at hout
  cases hout with
  | ok hab => exact .ok ⟨rfl, _, _, hab⟩
  | error f => exact .error f

theorem keeps_attempt {x : Exchange (Journal σ) α} {y : Exchange τ β} (hx : Keeps P js x y R) :
    Keeps P js (attempt x) (attempt y) fun r r' js' => Outcomes (fun a b => R a b js') r r' := by
  intro l m hl hA hlm
  obtain ⟨hpre, hacc, halike, hout⟩ := hx l m hl hA hlm
  rw [runOn_attempt, runOn_attempt]
  exact ⟨hpre, hacc, halike, .ok hout⟩

theorem keeps_reporting (task : FailedTask) {x : Exchange (Journal σ) α} {y : Exchange τ β}
    (hx : Keeps P js x y R) : Keeps P js (reporting task x) (reporting task y) R := by
  intro l m hl hA hlm
  obtain ⟨hpre, hacc, halike, hout⟩ := hx l m hl hA hlm
  rw [runOn_reporting, runOn_reporting]
  refine ⟨hpre, hacc, halike, ?_⟩
  rcases hrun : x.runOn l with ⟨r, l'⟩
  rcases hrun' : y.runOn m with ⟨r', m'⟩
  rw [hrun, hrun'] at hout
  cases hout with
  | ok hab => exact .ok hab
  | error f => exact .error _

theorem keeps_outcome {r : Result α} {r' : Result β} (h : Outcomes (fun a b => R a b js) r r') :
    Keeps P js (lift r : Exchange (Journal σ) α) (lift r') R := by
  cases h with
  | ok hab => exact keeps_pure hab
  | error f => exact keeps_throw f

theorem keeps_lift (r : Result α) {Q : α → List Entry → Prop} (h : ∀ a, r = .ok a → Q a js) :
    Keeps P js (lift r : Exchange (Journal σ) α) (lift r) (Same Q) := by
  cases r with
  | ok a => exact keeps_pure ⟨rfl, h a rfl⟩
  | error f => exact keeps_throw f

theorem keeps_lift_bind {r : Result α} {k : α → Exchange (Journal σ) γ} {k' : α → Exchange τ δ}
    (hk : ∀ a, r = .ok a → Keeps P js (k a) (k' a) T) :
    Keeps P js (lift r >>= k) (lift r >>= k') T := by
  cases r with
  | ok a => exact hk a rfl
  | error f => exact keeps_throw f

theorem keeps_require_bind {holds : Bool} {f : Fault} {k : Unit → Exchange (Journal σ) γ}
    {k' : Unit → Exchange τ δ} (hk : holds = true → Keeps P js (k ()) (k' ()) T) :
    Keeps P js (require holds f >>= k) (require holds f >>= k') T := by
  rw [require_bind, require_bind]
  cases holds with
  | true => exact hk rfl
  | false => exact keeps_throw f

theorem keeps_note (e : Event) :
    Keeps P js (note e : Exchange (Journal σ) Unit) (note e) (Same fun _ js' => js' = js) := by
  intro l m hl hA hlm
  subst hl
  obtain ⟨hserver, hconnections, htrace, hpools⟩ := hlm
  refine ⟨List.prefix_refl _, hA, ⟨hserver, hconnections, ?_, hpools⟩, .ok ⟨rfl, rfl⟩⟩
  rw [runOn_note, runOn_note, htrace]

theorem keeps_usePool (name : String) :
    Keeps P js (usePool name : Exchange (Journal σ) Unit) (usePool name)
      (Same fun _ js' => js' = js) := by
  intro l m hl hA hlm
  subst hl
  obtain ⟨hserver, hconnections, htrace, hpools⟩ := hlm
  rw [runOn_usePool, runOn_usePool, hpools]
  split
  · exact ⟨List.prefix_refl _, hA, ⟨hserver, hconnections, htrace, hpools⟩, .ok ⟨rfl, rfl⟩⟩
  · exact ⟨List.prefix_refl _, hA, ⟨hserver, hconnections, htrace, hpools⟩, .error _⟩
  · exact ⟨List.prefix_refl _, hA, ⟨hserver, hconnections, htrace, rfl⟩, .ok ⟨rfl, rfl⟩⟩

end Sequences

/-! ## Calls -/

section Calls

variable {R : α → β → List Entry → Prop}

theorem outcomes_of_rel {rel : List Row → List Row → Prop} {answer answer' : Option (List Row)}
    (h : Option.Rel rel answer answer') :
    Outcomes (fun rows rows' => answer = some rows ∧ rel rows rows')
      (answer.elim (.error .database) .ok) (answer'.elim (.error .database) .ok) := by
  cases h with
  | some h => exact .ok ⟨rfl, h⟩
  | none => exact .error _

theorem keeps_ask_rel (call : Call) {rel : List Row → List Row → Prop}
    (hanswer : ∀ {s t}, P.related s t →
      Option.Rel rel (Server.answer s call).1 (Server.answer t call).1 ∧
        P.related (Server.answer s call).2 (Server.answer t call).2)
    (hallowed : ∀ c s, call = .execute c s → s.isTelling = true → A js c s) :
    Keeps P js (ask call) (ask call)
      fun rows rows' js' => js' = js ++ [⟨call, some rows⟩] ∧ rel rows rows' := by
  intro l m hl hA hlm
  subst hl
  obtain ⟨hserver, hconnections, htrace, hpools⟩ := hlm
  obtain ⟨hrel, hrelated⟩ := hanswer hserver
  rw [runOn_ask, runOn_ask]
  refine ⟨?_, ?_, ⟨hrelated, hconnections, htrace, hpools⟩, ?_⟩
  · rw [Journal.answer_entries]
    exact List.prefix_append _ _
  · rw [Journal.answer_entries]
    exact hA.concat _ hallowed
  · refine (outcomes_of_rel hrel).imp ?_
    rintro rows rows' ⟨hrows, h⟩
    refine ⟨?_, h⟩
    rw [Journal.answer_entries, Journal.answer_fst, hrows]

theorem keeps_ask {call : Call} (h : call.AllowedBy A js) :
    Keeps P js (ask call) (ask call) (Same fun rows js' => js' = js ++ [⟨call, some rows⟩]) := by
  have hask := keeps_ask_rel (P := P) call (fun hst => P.agree hst h) fun c s hc => (h c s hc).2
  refine hask.weaken ?_
  rintro rows _ js' - ⟨hjs', rfl⟩
  exact ⟨rfl, hjs'⟩

/-- A statement that is no probe needs an account if it is telling. -/
theorem keeps_execute (c : Connection) (s : Statement) (hprobe : s.isProbe = false)
    (h : s.isTelling = true → A js c s) :
    Keeps P js (execute c s) (execute c s)
      (Same fun rows js' => js' = js ++ [⟨.execute c s, some rows⟩]) := by
  unfold execute
  refine (keeps_note _).bind ?_
  intro _ _ _ hjs
  subst hjs
  apply keeps_ask
  intro _ _ hsame
  cases hsame
  exact ⟨hprobe, h⟩

theorem keeps_call (call : Call) (h : ∀ c s, call ≠ .execute c s) :
    Keeps P js (discard (ask call)) (discard (ask call)) (Same fun _ _ => True) := by
  have hask : Keeps P js (ask call) (ask call) (Same fun rows js' => js' = js ++ [⟨call, some rows⟩]) :=
    keeps_ask fun c s hcall => absurd hcall (h c s)
  refine (keeps_discard hask).weaken ?_
  rintro _ _ _ - ⟨rfl, -⟩
  exact ⟨rfl, trivial⟩

/-- Whether a table exists is answered alike unless the gate bars the table. -/
theorem keeps_execute_tableExists (c : Connection) (t : TableRef) :
    Keeps P js (execute c (.tableExists t)) (execute c (.tableExists t))
      fun rows rows' js' => js' = js ++ [⟨.execute c (.tableExists t), some rows⟩] ∧
        (rows = rows' ∨ g.Bars c t) := by
  unfold execute
  refine (keeps_note _).bind ?_
  intro _ _ _ hjs
  subst hjs
  refine keeps_ask_rel _ (fun hst => P.probe hst c t) ?_
  rintro _ _ ⟨⟩ htelling
  exact nomatch htelling

theorem keeps_execute_listTables (c : Connection) :
    Keeps P js (execute c .listTables) (execute c .listTables)
      fun rows rows' _ => rows = rows' ∨ g.Levels c rows rows' := by
  unfold execute
  refine (keeps_note _).bind fun _ js' _ _ => ?_
  have hask : Keeps P js' (ask (.execute c .listTables)) (ask (.execute c .listTables)) _ :=
    keeps_ask_rel _ (fun hst => P.listing hst c) (by rintro _ _ ⟨⟩ htelling; exact nomatch htelling)
  exact hask.weaken fun _ _ _ _ h => h.2

theorem keeps_begin (c : Connection) :
    Keeps P js (begin c) (begin c) (Same fun _ _ => True) := by
  unfold begin
  refine (keeps_call (.begin c) fun _ _ h => nomatch h).bind fun _ _ _ _ => ?_
  exact (keeps_note _).weaken fun _ _ _ _ h => ⟨h.1, trivial⟩

theorem keeps_commit (c : Connection) :
    Keeps P js (commit c) (commit c) (Same fun _ _ => True) := by
  unfold commit
  refine (keeps_call (.commit c) fun _ _ h => nomatch h).bind fun _ _ _ _ => ?_
  exact (keeps_note _).weaken fun _ _ _ _ h => ⟨h.1, trivial⟩

theorem keeps_rollback (c : Connection) :
    Keeps P js (rollback c) (rollback c) (Same fun _ _ => True) := by
  unfold rollback
  refine (keeps_call (.rollback c) fun _ _ h => nomatch h).bind fun _ _ _ _ => ?_
  exact (keeps_note _).weaken fun _ _ _ _ h => ⟨h.1, trivial⟩

theorem Keeps.onState {k : Link (Journal σ) → Exchange (Journal σ) α} {k' : Link τ → Exchange τ β}
    (h : ∀ l m, l.connections = m.connections → Keeps P js (k l) (k' m) R) :
    Keeps P js (get >>= k) (get >>= k') R := by
  intro l m hl hA hlm
  rw [runOn_bind, runOn_bind]
  exact h l m hlm.connections l m hl hA hlm

theorem keeps_setConnections (n : Nat) :
    Keeps P js (modify fun l => { l with connections := n } : Exchange (Journal σ) PUnit)
      (modify fun m => { m with connections := n }) (Same fun _ js' => js' = js) := by
  intro l m hl hA hlm
  subst hl
  obtain ⟨hserver, -, htrace, hpools⟩ := hlm
  exact ⟨List.prefix_refl _, hA, ⟨hserver, rfl, htrace, hpools⟩, .ok ⟨rfl, rfl⟩⟩

theorem keeps_connect (site : Site) :
    Keeps P js (connect site) (connect site) (Same fun c _ => c.site = site) := by
  unfold connect
  refine Keeps.onState fun l m hconnections => ?_
  rw [hconnections]
  refine (keeps_call (.connect _) fun _ _ h => nomatch h).bind fun _ _ _ _ => ?_
  refine (keeps_setConnections _).bind fun _ _ _ _ => ?_
  refine (keeps_note _).bind fun _ _ _ _ => ?_
  exact keeps_pure ⟨rfl, rfl⟩

/-- What a computation on a connection leaves behind is what it says of that connection. -/
theorem keeps_onConnection {site : Site} {body : Connection → Exchange (Journal σ) α}
    {body' : Connection → Exchange τ β}
    (hbody : ∀ c js', js <+: js' → c.site = site → Keeps P js' (body c) (body' c) R) :
    Keeps P js (onConnection site body) (onConnection site body') R := by
  unfold onConnection
  refine (keeps_connect site).bind fun c js' hpre hc => ?_
  refine (keeps_attempt (hbody c js' hpre hc)).andThen fun r r' js₁ _ hr => ?_
  refine (keeps_note _).bind ?_
  intro _ _ _ hjs
  subst hjs
  exact keeps_outcome hr

theorem keeps_inTransaction {c : Connection} {body : Exchange (Journal σ) α} {body' : Exchange τ β}
    (hR : Lasting R) (hbody : ∀ js', js <+: js' → Keeps P js' body body' R) :
    Keeps P js (inTransaction c body) (inTransaction c body') R := by
  unfold inTransaction
  refine (keeps_begin c).bind fun _ js' hpre _ => ?_
  refine (keeps_attempt (hbody js' hpre)).andThen fun r r' js₁ _ hr => ?_
  cases hr with
  | ok hab =>
      refine (keeps_commit c).bind fun _ js₂ hpre₂ _ => ?_
      exact keeps_pure (hR _ _ js₁ js₂ hpre₂ hab)
  | error f => exact (keeps_rollback c).bind fun _ _ _ _ => keeps_throw f

theorem keeps_readOnly {name : String} {timeout : Value}
    {body : Connection → Exchange (Journal σ) α} {body' : Connection → Exchange τ β} (hR : Lasting R)
    (hbody : ∀ c js', js <+: js' → c.site = .browsed name → Keeps P js' (body c) (body' c) R) :
    Keeps P js (readOnly name timeout body) (readOnly name timeout body') R := by
  unfold readOnly
  refine (keeps_usePool name).bind ?_
  intro _ _ _ hjs
  subst hjs
  refine keeps_lift_bind fun milliseconds _ => ?_
  refine keeps_reporting _ (keeps_onConnection fun c js₁ h₁ hc => ?_)
  refine keeps_inTransaction hR fun js₂ h₂ => ?_
  refine (keeps_discard (keeps_execute c .readOnly rfl nofun)).bind fun _ js₃ h₃ _ => ?_
  refine (keeps_discard (keeps_execute c (.timeout milliseconds) rfl nofun)).bind fun _ js₄ h₄ _ => ?_
  exact hbody c js₄ (((h₁.trans h₂).trans h₃).trans h₄) hc

end Calls

end Exchange

end Keeping

end TableSteward

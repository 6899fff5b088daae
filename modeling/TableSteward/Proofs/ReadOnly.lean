import TableSteward.Proofs.Exchange

/-!
# What a read-only block runs

A block opens its connection, runs its body there once and commits.  If the connection does not open the body is
never run, and then, as after a fault of the body or of the commit, the block ends in a fault.  `Calm` says of a
measure of the server that a computation leaves it alone, as all calls but those of the body do.
-/
set_option autoImplicit false

namespace TableSteward.Exchange

variable {σ α β : Type}

/-! ## Measures of the server -/

def Calm (measure : σ → Nat) (x : Exchange σ α) : Prop :=
  ∀ l, measure (x.runOn l).2.server = measure l.server

variable {measure : σ → Nat}

theorem calm_pure (a : α) : Calm measure (pure a) := fun _ => rfl

theorem calm_throw (f : Fault) : Calm measure (throw f : Exchange σ α) := fun _ => rfl

theorem calm_lift (r : Result α) : Calm measure (lift r) := by
  cases r with
  | ok a => exact calm_pure a
  | error f => exact calm_throw f

theorem calm_note (e : Event) : Calm measure (note e) := fun _ => rfl

theorem Calm.bind {x : Exchange σ α} {g : α → Exchange σ β} (hx : Calm measure x) (hg : ∀ a, Calm measure (g a)) :
    Calm measure (x >>= g) := by
  intro l
  have hfirst := hx l
  rw [runOn_bind]
  rcases hrun : x.runOn l with ⟨f | a, m⟩
  · rw [hrun] at hfirst
    exact hfirst
  · rw [hrun] at hfirst
    exact (hg a m).trans hfirst

theorem Calm.discard {x : Exchange σ α} (hx : Calm measure x) : Calm measure (discard x) := by
  intro l
  rw [runOn_discard]
  exact hx l

theorem calm_usePool (name : String) : Calm measure (usePool name : Exchange σ Unit) := by
  intro l
  rw [runOn_usePool]
  cases l.pools.opened.get? name <;> cases l.pools.addresses.get? name <;> rfl

section Calls

variable [Server σ]

theorem calm_ask (hcalls : ∀ (s : σ) c, measure (Server.answer s c).2 = measure s) (c : Call) :
    Calm measure (ask c : Exchange σ (List Row)) := by
  intro l
  rw [runOn_ask]
  exact hcalls l.server c

variable (hcalls : ∀ (s : σ) c, measure (Server.answer s c).2 = measure s)

include hcalls

theorem calm_connect (site : Site) : Calm measure (connect site : Exchange σ Connection) := by
  intro l
  simp only [connect, runOn_bind, runOn_get, runOn_discard, runOn_ask]
  cases (Server.answer l.server (.connect ⟨l.connections + 1, site⟩)).1 with
  | none => exact hcalls _ _
  | some rows => exact hcalls _ _

theorem calm_begin (c : Connection) : Calm measure (begin c : Exchange σ Unit) :=
  (calm_ask hcalls _).discard.bind fun _ => calm_note _

theorem calm_execute (c : Connection) (s : Statement) : Calm measure (execute c s : Exchange σ (List Row)) :=
  (calm_note _).bind fun _ => calm_ask hcalls _

theorem calm_commit (c : Connection) : Calm measure (commit c : Exchange σ Unit) :=
  (calm_ask hcalls _).discard.bind fun _ => calm_note _

theorem calm_rollback (c : Connection) : Calm measure (rollback c : Exchange σ Unit) :=
  (calm_ask hcalls _).discard.bind fun _ => calm_note _

end Calls

/-! ## The block -/

section Block

variable [Server σ]

/-- What a transaction does at its end. -/
def ending (c : Connection) : Result α → Exchange σ α
  | .ok a => do
      commit c
      return a
  | .error f => do
      rollback c
      throw f

theorem inTransaction_eq (c : Connection) (body : Exchange σ α) :
    inTransaction c body = begin c >>= fun _ => attempt body >>= ending c := by
  rw [inTransaction]
  congr

theorem runOn_inTransaction (c : Connection) (body : Exchange σ α) (l : Link σ) :
    (inTransaction c body).runOn l =
      match (begin c).runOn l with
      | (.ok _, m) => (ending c (body.runOn m).1).runOn (body.runOn m).2
      | (.error f, m) => (.error f, m) := by
  rw [inTransaction_eq, runOn_bind]
  rcases (begin c).runOn l with ⟨f | u, m⟩
  · rfl
  · simp only [runOn_bind, runOn_attempt]

theorem runOn_ending_ok_iff (c : Connection) (r : Result α) (l : Link σ) (a : α) :
    ((ending c r).runOn l).1 = .ok a ↔ r = .ok a ∧ (Server.answer l.server (.commit c)).1 ≠ none := by
  cases r with
  | error f =>
      simp only [ending, rollback, runOn_bind, runOn_discard, runOn_ask, runOn_note]
      cases (Server.answer l.server (.rollback c)).1 with
      | none => exact ⟨nofun, nofun⟩
      | some rows => exact ⟨nofun, nofun⟩
  | ok b =>
      simp only [ending, commit, runOn_bind, runOn_discard, runOn_ask, runOn_note]
      cases (Server.answer l.server (.commit c)).1 with
      | none => exact ⟨nofun, fun h => absurd rfl h.2⟩
      | some rows => exact ⟨fun h => ⟨h, nofun⟩, fun h => h.1⟩

theorem runOn_ending_error (c : Connection) (f : Fault) (l : Link σ) :
    ∃ g, ((ending c (.error f : Result α)).runOn l).1 = .error g := by
  cases hend : ((ending c (.error f : Result α)).runOn l).1 with
  | error g => exact ⟨g, rfl⟩
  | ok a => exact nomatch ((runOn_ending_ok_iff c _ l a).mp hend).1

theorem runOn_onConnection (site : Site) (body : Connection → Exchange σ α) (l : Link σ) :
    (onConnection site body).runOn l =
      match (connect site).runOn l with
      | (.ok c, m) =>
          (((body c).runOn m).1,
            { ((body c).runOn m).2 with trace := .closed c :: ((body c).runOn m).2.trace })
      | (.error f, m) => (.error f, m) := by
  rw [onConnection, runOn_bind]
  rcases (connect site).runOn l with ⟨f | c, m⟩
  · rfl
  · simp only [runOn_bind, runOn_attempt, close, runOn_note]
    cases ((body c).runOn m).1 <;> rfl

/-- What a block does on its connection before its body. -/
def entering (c : Connection) (milliseconds : Int) : Exchange σ Unit := do
  discard (execute c .readOnly)
  discard (execute c (.timeout milliseconds))

/-- The way to the connection on which the body of a block runs. -/
def opening (name : String) (timeout : Value) : Exchange σ Connection := do
  usePool name
  let milliseconds ← lift timeout.toInteger
  let c ← connect (.browsed name)
  begin c
  entering c milliseconds
  return c

/-- The transaction of a block, once its connection is there. -/
def within (c : Connection) (milliseconds : Int) (body : Exchange σ α) : Exchange σ α :=
  inTransaction c do
    entering c milliseconds
    body

theorem runOn_within (c : Connection) (milliseconds : Int) (body : Exchange σ α) (l : Link σ) :
    (within c milliseconds body).runOn l =
      match (begin c).runOn l with
      | (.error f, m) => (.error f, m)
      | (.ok _, m) =>
          match (entering c milliseconds).runOn m with
          | (.error f, n) => (ending c (.error f : Result α)).runOn n
          | (.ok _, n) => (ending c (body.runOn n).1).runOn (body.runOn n).2 := by
  rw [within, runOn_inTransaction]
  rcases (begin c).runOn l with ⟨f | u, m⟩
  · rfl
  · simp only [runOn_bind]
    rcases (entering c milliseconds).runOn m with ⟨f | u, n⟩ <;> rfl

theorem readOnly_eq (name : String) (timeout : Value) (body : Connection → Exchange σ α) :
    readOnly name timeout body = (do
      usePool name
      let milliseconds ← lift timeout.toInteger
      reporting .readRows (onConnection (.browsed name) fun c => within c milliseconds (body c))) := by
  simp only [readOnly, within, entering, bind_assoc]

variable {name : String} {timeout : Value} {l m : Link σ} {c : Connection}

/-- A block whose connection opens is its body on this connection, and the end of the transaction. -/
theorem readOnly_of_opens (body : Connection → Exchange σ α)
    (h : (opening name timeout).runOn l = (.ok c, m)) :
    (∀ a, ((readOnly name timeout body).runOn l).1 = .ok a ↔
      ((body c).runOn m).1 = .ok a ∧ (Server.answer ((body c).runOn m).2.server (.commit c)).1 ≠ none) ∧
    ((readOnly name timeout body).runOn l).2.server =
      ((ending c ((body c).runOn m).1).runOn ((body c).runOn m).2).2.server := by
  obtain ⟨u, l₁, hpool, h⟩ := of_runOn_bind h
  obtain ⟨milliseconds, l₂, htimeout, h⟩ := of_runOn_bind h
  obtain ⟨d, l₃, hconnect, h⟩ := of_runOn_bind h
  obtain ⟨v, l₄, hbegin, h⟩ := of_runOn_bind h
  obtain ⟨w, l₅, hentering, hpure⟩ := of_runOn_bind h
  obtain ⟨hd, rfl⟩ : d = c ∧ l₅ = m := by
    cases hpure
    exact ⟨rfl, rfl⟩
  subst hd
  have hrun : (readOnly name timeout body).runOn l =
      (reporting .readRows (onConnection (.browsed name) fun c => within c milliseconds (body c))).runOn l₂ := by
    rw [readOnly_eq, runOn_bind, hpool]
    simp only
    rw [runOn_bind, htimeout]
  rw [hrun, runOn_reporting, runOn_onConnection, hconnect]
  simp only [runOn_within, hbegin, hentering, and_true]
  intro a
  rw [← runOn_ending_ok_iff]
  cases ((ending d ((body d).runOn l₅).1).runOn ((body d).runOn l₅).2).1 with
  | error f => exact ⟨nofun, nofun⟩
  | ok b => rfl

variable {measure : σ → Nat} (hcalls : ∀ (s : σ) c, measure (Server.answer s c).2 = measure s)

include hcalls

theorem calm_ending (c : Connection) (r : Result α) : Calm measure (ending c r) := by
  cases r with
  | ok a => exact (calm_commit hcalls c).bind fun _ => calm_pure a
  | error f => exact (calm_rollback hcalls c).bind fun _ => calm_throw f

theorem calm_entering (c : Connection) (milliseconds : Int) : Calm measure (entering c milliseconds : Exchange σ Unit) :=
  (calm_execute hcalls c _).discard.bind fun _ => (calm_execute hcalls c _).discard

theorem calm_opening (name : String) (timeout : Value) : Calm measure (opening name timeout : Exchange σ Connection) :=
  (calm_usePool name).bind fun _ => (calm_lift _).bind fun milliseconds =>
    (calm_connect hcalls _).bind fun c => (calm_begin hcalls c).bind fun _ =>
      (calm_entering hcalls c milliseconds).bind fun _ => calm_pure c

theorem within_of_not_entered {c : Connection} {milliseconds : Int} (body : Exchange σ α) {l : Link σ} {f : Fault}
    (h : ((do begin c; entering c milliseconds; return c : Exchange σ Connection).runOn l).1 = .error f) :
    (∃ g, ((within c milliseconds body).runOn l).1 = .error g) ∧
      measure ((within c milliseconds body).runOn l).2.server = measure l.server := by
  have hbegin := calm_begin hcalls c l
  rw [runOn_bind] at h
  rw [runOn_within]
  rcases hrun : (begin c).runOn l with ⟨g | v, m⟩
  · rw [hrun] at hbegin
    exact ⟨⟨g, rfl⟩, hbegin⟩
  rw [hrun] at h hbegin
  have hentering := calm_entering hcalls c milliseconds m
  simp only [runOn_bind] at h ⊢
  rcases hrun' : (entering c milliseconds).runOn m with ⟨g | w, n⟩
  · rw [hrun'] at hentering
    have hending := calm_ending hcalls c (.error g : Result α) n
    exact ⟨runOn_ending_error c g n, (hending.trans hentering).trans hbegin⟩
  · rw [hrun'] at h
    cases h

/-- A block whose connection does not open ends in a fault, and its body is not run. -/
theorem readOnly_of_not_opens (body : Connection → Exchange σ α) {f : Fault}
    (h : ((opening name timeout).runOn l).1 = .error f) :
    (∃ g, ((readOnly name timeout body).runOn l).1 = .error g) ∧
      measure ((readOnly name timeout body).runOn l).2.server = measure l.server := by
  have hpool : measure ((usePool name).runOn l).2.server = measure l.server := calm_usePool name l
  rw [opening, runOn_bind] at h
  rw [readOnly_eq, runOn_bind]
  rcases hrun : (usePool name).runOn l with ⟨g | u, l₁⟩
  · rw [hrun] at hpool
    exact ⟨⟨g, rfl⟩, hpool⟩
  rw [hrun] at h hpool
  cases htimeout : timeout.toInteger with
  | error g =>
      simp only [runOn_bind]
      exact ⟨⟨g, rfl⟩, hpool⟩
  | ok milliseconds =>
      have hlift : (lift (.ok milliseconds) : Exchange σ Int).runOn l₁ = (.ok milliseconds, l₁) := rfl
      have hconnect := calm_connect hcalls (.browsed name) l₁
      simp only [htimeout] at h ⊢
      rw [runOn_bind, hlift] at h ⊢
      simp only at h ⊢
      rw [runOn_bind] at h
      rw [runOn_reporting, runOn_onConnection]
      rcases hrun' : (connect (.browsed name)).runOn l₁ with ⟨g | c, l₂⟩
      · rw [hrun'] at hconnect
        exact ⟨⟨_, rfl⟩, hconnect.trans hpool⟩
      rw [hrun'] at h hconnect
      obtain ⟨⟨g, hg⟩, hwithin⟩ := within_of_not_entered hcalls (body c) h
      simp only [hg]
      exact ⟨⟨_, rfl⟩, (hwithin.trans hconnect).trans hpool⟩

end Block

end TableSteward.Exchange

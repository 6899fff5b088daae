import TableSteward.Proofs.ReadOnly
import TableSteward.Proofs.Settlement
import TableSteward.Proofs.Trail

/-!
# The filing of audit rows

A visit to the database of the application files one audit row, or fails on the way.  Nothing else that is done for a
requester goes there: whatever is read is read from browsed databases, and a block that succeeds has ended with the
commit of its transaction.
-/
set_option autoImplicit false

namespace TableSteward

open Exchange

namespace Footprint

/-- Only browsed databases are called. -/
def Away (p : Footprint) : Prop := ∀ e ∈ p.calls, ∃ name, e.call.connection.site = .browsed name

theorem away_empty : Away {} := fun _ h => (nomatch h)

theorem Away.append {p q : Footprint} (hp : p.Away) (hq : q.Away) : (p ++ q).Away := fun e he =>
  (List.mem_append.mp he).elim (hp e) (hq e)

/-- The last call was the commit of a transaction on a browsed database. -/
def Committed (p : Footprint) : Prop :=
  ∃ (earlier : List Entry) (c : Connection) (name : String) (z : List Row), c.site = .browsed name ∧
    p.calls = earlier ++ [⟨.commit c, some z⟩]

theorem Committed.after {p q : Footprint} (hq : q.Committed) : (p ++ q).Committed := by
  obtain ⟨earlier, c, name, z, hc, hcalls⟩ := hq
  refine ⟨p.calls ++ earlier, c, name, z, hc, ?_⟩
  rw [calls_append, hcalls, List.append_assoc]

/-- The closing of connections is no call. -/
theorem Committed.closing {p : Footprint} (hp : p.Committed) (closed : List Connection) :
    (p ++ ⟨[], closed⟩).Committed := by
  obtain ⟨earlier, c, name, z, hc, hcalls⟩ := hp
  exact ⟨earlier, c, name, z, hc, (List.append_nil _).trans hcalls⟩

theorem away_closing (closed : List Connection) : Away ⟨[], closed⟩ := fun _ h => (nomatch h)

end Footprint

namespace Exchange

variable {σ α β : Type}

def StaysAway (x : Exchange (Journal σ) α) : Prop := Leaves x fun _ p => p.Away

theorem staysAway_lift (r : Result α) : StaysAway (lift r : Exchange (Journal σ) α) :=
  leaves_lift r Footprint.away_empty

theorem staysAway_pure (a : α) : StaysAway (pure a : Exchange (Journal σ) α) := leaves_pure Footprint.away_empty

theorem StaysAway.bind {x : Exchange (Journal σ) α} {k : α → Exchange (Journal σ) β} (hx : StaysAway x)
    (hk : ∀ a, StaysAway (k a)) : StaysAway (x >>= k) :=
  Leaves.bind hx (fun a _ hp => (hk a).weaken fun _ _ hq => hp.append hq) fun _ _ hp => hp

theorem staysAway_attempt {x : Exchange (Journal σ) α} (hx : StaysAway x) : StaysAway (attempt x) :=
  (leaves_attempt hx).weaken fun _ _ ⟨_, _, hp⟩ => hp

theorem staysAway_discard {x : Exchange (Journal σ) α} (hx : StaysAway x) : StaysAway (discard x) :=
  (leaves_discard hx).weaken fun _ _ ⟨_, _, hp⟩ => hp

theorem leaves_reporting (task : FailedTask) {x : Exchange (Journal σ) α} {C : Result α → Footprint → Prop}
    (hx : Leaves x C) : Leaves (reporting task x) fun r p => ∃ outcome,
      r = outcome.mapError (fun f => if f = .database then .refused (.failed task) else f) ∧ C outcome p :=
  has_reporting (E := footprints σ) task hx

theorem staysAway_usePool (name : String) : StaysAway (usePool name : Exchange (Journal σ) Unit) :=
  (leaves_usePool name).weaken fun _ _ hp => hp ▸ Footprint.away_empty

theorem staysAway_close (c : Connection) : StaysAway (close c : Exchange (Journal σ) Unit) :=
  (leaves_close c).weaken fun _ _ hp => hp.2 ▸ Footprint.away_closing _

theorem away_of_called {call : Call} {value : List Row → α} {name : String} {r : Result α} {p : Footprint}
    (h : Called call value r p) (hc : call.connection.site = .browsed name) : p.Away := by
  cases h <;> exact List.forall_mem_singleton.mpr ⟨name, hc⟩

section Calls

variable [Server σ] {c : Connection} {name : String} (hc : c.site = .browsed name)

include hc

theorem staysAway_execute (s : Statement) : StaysAway (execute c s : Exchange (Journal σ) (List Row)) :=
  (leaves_execute c s).weaken fun _ _ h => away_of_called h hc

theorem staysAway_begin : StaysAway (begin c : Exchange (Journal σ) Unit) :=
  (leaves_begin c).weaken fun _ _ h => away_of_called h hc

theorem staysAway_dialogue (d : Dialogue α) : StaysAway (d.on c : Exchange (Journal σ) α) := by
  induction d with
  | done r => exact staysAway_lift r
  | ask s next ih => exact (staysAway_attempt (staysAway_execute hc s)).bind fun answer => ih answer.toOption

/-- The end of a transaction: it succeeds only by its commit. -/
theorem leaves_ending (r : Result α) :
    Leaves (ending c r : Exchange (Journal σ) α) fun out p => p.Away ∧ (out.isOk = true → p.Committed) := by
  cases r with
  | ok a =>
      refine (leaves_commit c).bind ?_ ?_
      · rintro _ _ (z | _)
        exact leaves_pure ⟨List.forall_mem_singleton.mpr ⟨name, hc⟩, fun _ => ⟨[], c, name, z, hc, rfl⟩⟩
      · rintro f _ h
        exact ⟨away_of_called h hc, nofun⟩
  | error f =>
      refine (leaves_rollback c).bind ?_ fun g _ h => ⟨away_of_called h hc, nofun⟩
      rintro _ _ h
      refine leaves_throw ⟨?_, nofun⟩
      rw [Footprint.append_empty]
      exact away_of_called h hc

theorem staysAway_entering (milliseconds : Int) : StaysAway (σ := σ) (entering c milliseconds) :=
  (staysAway_discard (staysAway_execute hc _)).bind fun _ => staysAway_discard (staysAway_execute hc _)

theorem leaves_within (milliseconds : Int) {body : Exchange (Journal σ) α} (hbody : StaysAway body) :
    Leaves (within c milliseconds body) fun out p => p.Away ∧ (out.isOk = true → p.Committed) := by
  rw [within, inTransaction_eq]
  refine Leaves.bind (staysAway_begin hc) (fun _ p hp => ?_) fun f p hp => ⟨hp, fun h => absurd h Bool.false_ne_true⟩
  have hentered : StaysAway (do entering c milliseconds; body) := (staysAway_entering hc milliseconds).bind fun _ => hbody
  refine (leaves_attempt hentered).bind ?_ (by rintro _ _ ⟨_, ⟨⟩, -⟩)
  rintro outcome q ⟨_, -, hq⟩
  refine (leaves_ending hc outcome).weaken ?_
  rintro out s ⟨hs, hok⟩
  exact ⟨hp.append (hq.append hs), fun h => (hok h).after.after⟩

end Calls

/-- A block that succeeds has just committed. -/
theorem leaves_readOnly [Server σ] (name : String) (timeout : Value) {body : Connection → Exchange (Journal σ) α}
    (hbody : ∀ c, c.site = .browsed name → StaysAway (body c)) :
    Leaves (readOnly name timeout body) fun r p => p.Away ∧ (r.isOk = true → p.Committed) := by
  rw [readOnly_eq]
  refine Leaves.bind (staysAway_usePool name) (fun _ p hp => ?_) fun _ _ hp => ⟨hp, nofun⟩
  refine Leaves.bind (staysAway_lift timeout.toInteger) (fun milliseconds q hq => ?_)
    fun _ _ hq => ⟨hp.append hq, nofun⟩
  have hconnection : Leaves (onConnection (.browsed name) fun c => within c milliseconds (body c)) fun r p =>
      p.Away ∧ (r.isOk = true → p.Committed) := by
    unfold onConnection
    refine (leaves_connect _).bind ?_ ?_
    · rintro c s ⟨_, hc, h⟩
      have hs : s.Away ∧ c.site = .browsed name := by
        cases h
        exact ⟨List.forall_mem_singleton.mpr ⟨name, hc⟩, hc⟩
      refine (leaves_attempt (leaves_within hs.2 milliseconds (hbody c hs.2))).bind ?_ fun _ _ ⟨_, h, _⟩ => nomatch h
      rintro outcome t ⟨_, ⟨⟩, ht, hok⟩
      refine (leaves_close c).bind ?_ fun _ _ h => nomatch h.1
      rintro _ _ ⟨-, rfl⟩
      refine leaves_lift outcome ⟨hs.1.append (ht.append ((Footprint.away_closing _).append Footprint.away_empty)),
        fun h => ?_⟩
      exact ((hok h).closing [c]).after
    · rintro f s ⟨c, hc, h⟩
      exact ⟨away_of_called h hc, nofun⟩
  refine (leaves_reporting .readRows hconnection).weaken ?_
  rintro _ s ⟨outcome, rfl, hs, hok⟩
  refine ⟨hp.append (hq.append hs), fun h => ?_⟩
  have houtcome : outcome.isOk = true := by
    cases outcome with
    | ok a => rfl
    | error f => exact h
  exact (hok houtcome).after.after

end Exchange

/-! ## Visits -/

/-- An attempt to file an audit row: the database is not to be reached, the row is not written, or a commit is tried. -/
inductive Visit (e : AuditEntry) : List Entry → Prop
  | unreached (c : Connection) : c.site = .application → Visit e [⟨.connect c, none⟩]
  | unwritten (c : Connection) (x : List Row) : c.site = .application →
      Visit e [⟨.connect c, some x⟩, ⟨.execute c (.recordAudit e), none⟩]
  | written (c : Connection) (x y : List Row) (answer : Option (List Row)) : c.site = .application →
      Visit e [⟨.connect c, some x⟩, ⟨.execute c (.recordAudit e), some y⟩, ⟨.commit c, answer⟩]

/-- Whatever becomes of the row, the requester hears nothing of it. -/
theorem Audit.leaves_record {σ : Type} [Server σ] (e : AuditEntry) :
    Leaves (σ := σ) (Audit.record e) fun r p => r = .ok () ∧ Visit e p.calls := by
  have hrow : Leaves (σ := σ) (onConnection .application fun c => do
      discard (execute c (.recordAudit e))
      commit c) fun _ p => Visit e p.calls := by
    unfold onConnection
    refine (leaves_connect _).bind ?_ ?_
    · rintro c _ ⟨_, hc, h⟩
      cases h with
      | answered x =>
          have hbody : Leaves (σ := σ) (do discard (execute c (.recordAudit e)); commit c) fun _ p =>
              p.calls = [⟨.execute c (.recordAudit e), none⟩] ∨
              ∃ y answer, p.calls = [⟨.execute c (.recordAudit e), some y⟩, ⟨.commit c, answer⟩] := by
            refine (leaves_execute c _).discarded.bind ?_ ?_
            · rintro _ _ (y | _)
              refine (leaves_commit c).weaken ?_
              rintro _ _ (z | _) <;> exact .inr ⟨y, _, rfl⟩
            · rintro _ _ (_ | _)
              exact .inl rfl
          refine (leaves_attempt hbody).bind ?_ fun _ _ ⟨_, h, _⟩ => nomatch h
          rintro outcome q ⟨_, ⟨⟩, hq⟩
          refine (leaves_close c).bind ?_ fun _ _ h => nomatch h.1
          rintro _ _ ⟨-, rfl⟩
          refine leaves_lift outcome ?_
          rcases hq with hq | ⟨y, answer, hq⟩
          · simpa [hq] using Visit.unwritten c x hc
          · simpa [hq] using Visit.written c x y answer hc
    · rintro _ _ ⟨c, hc, (_ | _)⟩
      exact .unreached c hc
  refine (leaves_discard (leaves_attempt hrow)).weaken ?_
  rintro _ p ⟨_, rfl, _, rfl, hp⟩
  exact ⟨rfl, hp⟩

end TableSteward

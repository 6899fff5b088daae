import TableSteward.Browse.Browser
import TableSteward.Proofs.ReadOnly
import TableSteward.Proofs.Receiver
import TableSteward.Proofs.Trail

/-!
# Sittings

A sitting is what a read-only block does on its connection: it begins one transaction, makes it read-only before it
executes anything else, ends it by a commit just if nothing was raised in it, and closes the connection.  A full export
sits longer: its connection is opened with the header, its transaction with the first batch, and both end when the
receiver has drained the stream or given it up, or when something is raised.
-/
set_option autoImplicit false

namespace TableSteward

open Exchange

namespace Trail

/-- Every call and every event is about one of some connections. -/
structure About (P : Connection → Prop) (p : Trail) : Prop where
  calls : ∀ e ∈ p.calls, P e.call.connection
  events : ∀ e ∈ p.events, ∃ c, e.connection? = some c ∧ P c

/-- Only the site is spoken to. -/
abbrev At (site : Site) : Trail → Prop := About fun c => c.site = site

section About

variable {P Q : Connection → Prop} {p q : Trail}

theorem about_empty (P : Connection → Prop) : About P {} := ⟨fun _ h => (nomatch h), fun _ h => (nomatch h)⟩

theorem About.append (hp : p.About P) (hq : q.About P) : (p ++ q).About P := by
  refine ⟨fun e he => ?_, fun e he => ?_⟩
  · exact (List.mem_append.mp he).elim (hp.calls e) (hq.calls e)
  · exact (List.mem_append.mp he).elim (hp.events e) (hq.events e)

theorem About.mono (hp : p.About P) (h : ∀ c, P c → Q c) : p.About Q := by
  refine ⟨fun e he => h _ (hp.calls e he), fun e he => ?_⟩
  obtain ⟨c, hc, hP⟩ := hp.events e he
  exact ⟨c, hc, h c hP⟩

end About

def connecting (c : Connection) (answer : List Row) : Trail := ⟨[⟨.connect c, some answer⟩], [.connected c]⟩

def beginning (c : Connection) (answer : List Row) : Trail := ⟨[⟨.begin c, some answer⟩], [.begun c]⟩

def ending (c : Connection) (commits : Bool) (answer : List Row) : Trail :=
  if commits then ⟨[⟨.commit c, some answer⟩], [.committed c]⟩
  else ⟨[⟨.rollback c, some answer⟩], [.rolledBack c]⟩

def closing (c : Connection) : Trail := ⟨[], [.closed c]⟩

/-- The server did not let the connection be. -/
def unconnected (c : Connection) : Trail := ⟨[⟨.connect c, none⟩], []⟩

section Pieces

variable {P : Connection → Prop} {c : Connection}

theorem about_said (h : P c) (xs : List (Statement × Option (List Row))) : (said c xs).About P := by
  refine ⟨fun e he => ?_, fun e he => ?_⟩
  · obtain ⟨x, -, rfl⟩ := List.mem_map.mp he
    exact h
  · obtain ⟨x, -, rfl⟩ := List.mem_map.mp he
    exact ⟨c, rfl, h⟩

theorem about_connecting (h : P c) (x : List Row) : (connecting c x).About P :=
  ⟨List.forall_mem_singleton.mpr h, List.forall_mem_singleton.mpr ⟨c, rfl, h⟩⟩

theorem about_beginning (h : P c) (y : List Row) : (beginning c y).About P :=
  ⟨List.forall_mem_singleton.mpr h, List.forall_mem_singleton.mpr ⟨c, rfl, h⟩⟩

theorem about_ending (h : P c) (commits : Bool) (z : List Row) : (ending c commits z).About P := by
  cases commits <;> exact ⟨List.forall_mem_singleton.mpr h, List.forall_mem_singleton.mpr ⟨c, rfl, h⟩⟩

theorem about_closing (h : P c) : (closing c).About P :=
  ⟨fun _ he => (nomatch he), List.forall_mem_singleton.mpr ⟨c, rfl, h⟩⟩

theorem about_unconnected (h : P c) : (unconnected c).About P :=
  ⟨List.forall_mem_singleton.mpr h, fun _ he => (nomatch he)⟩

end Pieces

end Trail

/-- Whether one of some statements failed. -/
def AnyFailed (xs : List (Statement × Option (List Row))) : Prop := ∃ x ∈ xs, x.2 = none

theorem anyFailed_append (xs ys : List (Statement × Option (List Row))) :
    AnyFailed (xs ++ ys) ↔ AnyFailed xs ∨ AnyFailed ys := by
  simp only [AnyFailed, List.mem_append, or_and_right, exists_or]

theorem anyFailed_singleton {s : Statement} {answer : Option (List Row)} :
    AnyFailed [(s, answer)] ↔ answer = none := by
  simp [AnyFailed]

/-! ## Read-only blocks -/

section Blocks

variable {σ α : Type}

/-- What a block leaves behind, and what its outcome says of that: it was not to be had, its database was not to be
reached, or it sat on one connection.  Its statements, if they are those of a dialogue that lets failures pass, have
failed only if that is what it reports. -/
inductive Sitting (passes : Prop) (name : String) : Result α → Trail → Prop
  | declined (f : Fault) : Sitting passes name (.error f) {}
  | unreached (c : Connection) : c.site = .browsed name →
      Sitting passes name (.error (.refused (.failed .readRows))) (.unconnected c)
  | held (c : Connection) (r : Result α) (x y z : List Row) (answer : Option (List Row))
      (xs : List (Statement × Option (List Row))) :
      c.site = .browsed name →
      (passes → AnyFailed ((.readOnly, answer) :: xs) → r = .error (.refused (.failed .readRows))) →
      Sitting passes name r (.connecting c x ++ (.beginning c y ++ (.said c ((.readOnly, answer) :: xs) ++
        (.ending c r.isOk z ++ .closing c))))

namespace Exchange

variable [Server σ]

/-- What goes before the body of a block or the batches of an export: the transaction is made read-only, and one more
statement follows. -/
theorem trails_readOnly_then (c : Connection) (s : Statement) :
    Has (trails σ) (do discard (execute c .readOnly); discard (execute c s)) fun r p => ∃ answer xs,
      p = .said c ((.readOnly, answer) :: xs) ∧
        (r = .ok () ∧ ¬ AnyFailed ((.readOnly, answer) :: xs) ∨ r = .error .database) := by
  have hexecute : ∀ s, Has (trails σ) (discard (execute c s)) fun r p => ∃ answer : Option (List Row),
      p = .said c [(s, answer)] ∧ (r = .ok () ∧ answer ≠ none ∨ r = .error .database ∧ answer = none) := fun s => by
    refine (has_discard (trails_execute c s)).weaken ?_
    rintro _ _ ⟨_, rfl, answer, rfl, rfl⟩
    cases answer with
    | some rows => exact ⟨_, rfl, .inl ⟨rfl, nofun⟩⟩
    | none => exact ⟨_, rfl, .inr ⟨rfl, rfl⟩⟩
  refine (hexecute .readOnly).bind ?_ ?_
  · rintro _ _ ⟨answer, rfl, (⟨-, hanswer⟩ | ⟨h, -⟩)⟩
    · refine (hexecute s).weaken ?_
      rintro r _ ⟨answer', rfl, hr⟩
      refine ⟨answer, [(s, answer')], rfl, hr.imp ?_ And.left⟩
      rintro ⟨rfl, hanswer'⟩
      refine ⟨rfl, fun hfailed => ?_⟩
      rcases (anyFailed_append [_] _).mp hfailed with h | h
      · exact hanswer (anyFailed_singleton.mp h)
      · exact hanswer' (anyFailed_singleton.mp h)
    · exact nomatch h
  · rintro f _ ⟨answer, rfl, (⟨h, -⟩ | ⟨h, -⟩)⟩
    · exact nomatch h
    · exact ⟨answer, [], rfl, .inr h⟩

/-- What a body does on the connection of its block: it executes statements, and if it lets failures pass, one that
failed is its outcome. -/
def Speaks (passes : Prop) (c : Connection) (body : Exchange (Journal σ) α) : Prop :=
  Has (trails σ) body fun r p => ∃ xs, p = .said c xs ∧ (passes → AnyFailed xs → r = .error .database)

variable (hworks : Server.TransactionsWork σ)

include hworks

theorem trails_ending (c : Connection) (r : Result α) :
    Has (trails σ) (ending c r) fun out p => out = r ∧ ∃ z, p = .ending c r.isOk z := by
  cases r with
  | ok a =>
      refine (trails_commit hworks c).bind ?_ fun _ _ h => nomatch h.1
      rintro _ _ ⟨-, z, rfl⟩
      exact has_pure ⟨rfl, z, rfl⟩
  | error f =>
      refine (trails_rollback hworks c).bind ?_ fun _ _ h => nomatch h.1
      rintro _ _ ⟨-, z, rfl⟩
      exact has_throw ⟨rfl, z, rfl⟩

theorem trails_within {passes : Prop} {c : Connection} (milliseconds : Int) {body : Exchange (Journal σ) α}
    (hbody : Speaks passes c body) :
    Has (trails σ) (within c milliseconds body) fun r p => ∃ y answer xs z,
      p = .beginning c y ++ (.said c ((.readOnly, answer) :: xs) ++ .ending c r.isOk z) ∧
        (passes → AnyFailed ((.readOnly, answer) :: xs) → r = .error .database) := by
  have hentered : Has (trails σ) (do entering c milliseconds; body : Exchange (Journal σ) α) fun r p => ∃ answer xs,
      p = .said c ((.readOnly, answer) :: xs) ∧
        (passes → AnyFailed ((.readOnly, answer) :: xs) → r = .error .database) := by
    refine (trails_readOnly_then c (.timeout milliseconds)).bind ?_ ?_
    · rintro _ _ ⟨answer, xs, rfl, (⟨-, hanswered⟩ | h)⟩
      · refine hbody.weaken ?_
        rintro r _ ⟨ys, rfl, hfailed⟩
        refine ⟨answer, xs ++ ys, (Trail.said_append c (_ :: xs) ys).symm, fun hpass h => ?_⟩
        rcases (anyFailed_append (_ :: xs) _).mp h with h | h
        · exact absurd h hanswered
        · exact hfailed hpass h
      · exact nomatch h
    · rintro f _ ⟨answer, xs, rfl, (⟨h, -⟩ | h)⟩
      · exact nomatch h
      · exact ⟨answer, xs, rfl, fun _ _ => congrArg _ (Except.error.inj h)⟩
  rw [within, inTransaction_eq]
  refine (trails_begin hworks c).bind ?_ (by rintro _ _ ⟨⟨⟩, -⟩)
  rintro _ _ ⟨-, y, rfl⟩
  refine (has_attempt hentered).bind ?_ (by rintro _ _ ⟨_, ⟨⟩, -⟩)
  rintro outcome _ ⟨_, ⟨⟩, answer, xs, rfl, hfailed⟩
  refine (trails_ending hworks c outcome).weaken ?_
  rintro _ _ ⟨rfl, z, rfl⟩
  exact ⟨y, answer, xs, z, rfl, hfailed⟩

theorem trails_readOnly {passes : Prop} (name : String) (timeout : Value) {body : Connection → Exchange (Journal σ) α}
    (hbody : ∀ c, Speaks passes c (body c)) : Has (trails σ) (readOnly name timeout body) (Sitting passes name) := by
  rw [readOnly_eq]
  refine (trails_usePool name).bind ?_ ?_
  · rintro _ _ ⟨-, rfl⟩
    refine (has_lift (C := fun _ p => p = {}) timeout.toInteger rfl).bind ?_ ?_
    · rintro milliseconds _ rfl
      have hconnection : Has (trails σ) (onConnection (.browsed name) fun c => within c milliseconds (body c))
          fun r p => ∃ c : Connection, c.site = .browsed name ∧
            (r = .error .database ∧ p = .unconnected c ∨
              ∃ x y answer xs z, p = .connecting c x ++ (.beginning c y ++ (.said c ((.readOnly, answer) :: xs) ++
                (.ending c r.isOk z ++ .closing c))) ∧
                (passes → AnyFailed ((.readOnly, answer) :: xs) → r = .error .database)) := by
        unfold onConnection
        refine (trails_connect _).bind ?_ ?_
        · rintro c _ ⟨_, hsite, (⟨x, ⟨⟩, rfl⟩ | ⟨h, -⟩)⟩
          · refine (has_attempt (trails_within hworks milliseconds (hbody c))).bind ?_ fun _ _ ⟨_, h, _⟩ => nomatch h
            rintro outcome _ ⟨_, ⟨⟩, y, answer, xs, z, rfl, hfailed⟩
            refine (trails_close c).bind ?_ fun _ _ h => nomatch h.1
            rintro _ _ ⟨-, rfl⟩
            refine has_lift outcome ⟨c, hsite, .inr ⟨x, y, answer, xs, z, ?_, hfailed⟩⟩
            simp only [Trail.append_assoc]
            rfl
          · exact nomatch h
        · rintro f _ ⟨c, hsite, (⟨_, h, -⟩ | ⟨⟨⟩, rfl⟩)⟩
          · exact nomatch h
          · exact ⟨c, hsite, .inl ⟨rfl, rfl⟩⟩
      refine (has_reporting .readRows hconnection).weaken ?_
      rintro _ _ ⟨outcome, rfl, c, hsite, (⟨rfl, rfl⟩ | ⟨x, y, answer, xs, z, rfl, hfailed⟩)⟩
      · exact .unreached c hsite
      · have hok : outcome.isOk = (outcome.mapError fun f =>
            if f = .database then Fault.refused (.failed .readRows) else f).isOk := by
          cases outcome <;> rfl
        rw [hok]
        refine .held c _ x y z answer xs hsite fun hpass h => ?_
        rw [hfailed hpass h]
        rfl
    · rintro f _ rfl
      exact .declined f
  · rintro f _ ⟨-, rfl⟩
    exact .declined f

end Exchange

end Blocks

/-! ## Audit rows -/

/-- An audit row is none of the business of a browsed database, and nobody hears whether it was written. -/
theorem Audit.trails_record {σ : Type} [Server σ] (hworks : Server.TransactionsWork σ) (e : AuditEntry) :
    Has (trails σ) (Audit.record e) fun r p => r = .ok () ∧ p.At .application := by
  have hrow : Has (trails σ) (onConnection .application fun c => do
      discard (execute c (.recordAudit e))
      commit c) fun _ p => p.At .application := by
    unfold onConnection
    refine (trails_connect _).bind ?_ ?_
    · rintro c _ ⟨_, hsite, (⟨x, ⟨⟩, rfl⟩ | ⟨h, -⟩)⟩
      · have hbody : Has (trails σ) (do discard (execute c (.recordAudit e)); commit c : Exchange (Journal σ) Unit)
            fun _ p => p.At .application := by
          refine (has_discard (trails_execute c _)).bind ?_ ?_
          · rintro _ _ ⟨_, -, answer, -, rfl⟩
            refine (trails_commit hworks c).weaken ?_
            rintro _ _ ⟨-, z, rfl⟩
            exact (Trail.about_said hsite _).append (Trail.about_ending hsite true z)
          · rintro _ _ ⟨_, -, answer, -, rfl⟩
            exact Trail.about_said hsite _
        refine (has_attempt hbody).bind ?_ fun _ _ ⟨_, h, _⟩ => nomatch h
        rintro outcome q ⟨_, ⟨⟩, hq⟩
        refine (trails_close c).bind ?_ fun _ _ h => nomatch h.1
        rintro _ _ ⟨-, rfl⟩
        exact has_lift outcome ((Trail.about_connecting hsite x).append (hq.append
          ((Trail.about_closing hsite).append (Trail.about_empty _))))
      · exact nomatch h
    · rintro _ _ ⟨c, hsite, (⟨_, h, -⟩ | ⟨-, rfl⟩)⟩
      · exact nomatch h
      · exact Trail.about_unconnected hsite
  refine (has_discard (has_attempt hrow)).weaken ?_
  rintro _ _ ⟨_, rfl, _, rfl, hp⟩
  exact ⟨rfl, hp⟩

/-! ## Exports -/

namespace CursorExport

variable {σ α : Type}

/-- The words for a failure of the database. -/
def reported (f : Fault) : Fault := if f = .database then .refused (.failed .exportRows) else f

/-- What a step of an export leaves behind while its transaction is open, and what its outcome says of that: there is
more to come, the stream is drained, or something was raised. -/
inductive Drawn (e : CursorExport (Journal σ)) (c : Connection) (xs : List (Statement × Option (List Row))) :
    Result (Option String × TextStream (Journal σ)) → Trail → Prop
  | more (chunk : String) (written : Nat) : ¬ AnyFailed xs →
      Drawn e c xs (.ok (some chunk, .cursor e (.reading c written))) (.said c xs)
  | drained (z : List Row) (later : Trail) : ¬ AnyFailed xs → later.At .application →
      Drawn e c xs (.ok (none, .finished)) (.said c xs ++ (.ending c true z ++ (.closing c ++ later)))
  | failed (f : Fault) (z : List Row) : (AnyFailed xs → f = .refused (.failed .exportRows)) →
      Drawn e c xs (.error f) (.said c xs ++ (.ending c false z ++ .closing c))

theorem Drawn.after {e : CursorExport (Journal σ)} {c : Connection} {xs ys : List (Statement × Option (List Row))}
    {r : Result (Option String × TextStream (Journal σ))} {p : Trail} (h : Drawn e c xs r p) (hys : ¬ AnyFailed ys) :
    Drawn e c (ys ++ xs) r (.said c ys ++ p) := by
  have hboth : ¬ AnyFailed xs → ¬ AnyFailed (ys ++ xs) := fun hxs h => ((anyFailed_append _ _).mp h).elim hys hxs
  cases h with
  | more chunk written hxs =>
      rw [← Trail.said_append]
      exact .more chunk written (hboth hxs)
  | drained z later hxs hlater =>
      rw [← Trail.append_assoc, ← Trail.said_append]
      exact .drained z later (hboth hxs) hlater
  | failed f z hf =>
      rw [← Trail.append_assoc, ← Trail.said_append]
      exact .failed f z fun h => hf (((anyFailed_append _ _).mp h).resolve_left hys)

/-- The way from the first step of an export to its header. -/
inductive Headed (e : CursorExport (Journal σ)) :
    Result (Option String × TextStream (Journal σ)) → Trail → Prop
  | unreached (c : Connection) : c.site = e.site → Headed e (.error .database) (.unconnected c)
  | headed (c : Connection) (x : List Row) (header : String) : c.site = e.site →
      Headed e (.ok (some header, .cursor e (.headed c))) (.connecting c x)
  | unheaded (c : Connection) (x : List Row) (f : Fault) : c.site = e.site →
      Headed e (.error f) (.connecting c x ++ .closing c)

variable [Server σ]

theorem trails_next_waiting (e : CursorExport (Journal σ)) : Has (trails σ) (e.next .waiting) (Headed e) := by
  unfold next
  refine (trails_connect e.site).bind ?_ ?_
  · rintro c _ ⟨_, hsite, (⟨x, ⟨⟩, rfl⟩ | ⟨h, -⟩)⟩
    · cases hheader : Csv.header e.columns with
      | ok header => exact has_pure (.headed c x header hsite)
      | error f =>
          refine (trails_close c).bind ?_ fun _ _ h => nomatch h.1
          rintro _ _ ⟨-, rfl⟩
          exact has_throw (.unheaded c x f hsite)
    · exact nomatch h
  · rintro f _ ⟨c, hsite, (⟨_, h, -⟩ | ⟨⟨⟩, rfl⟩)⟩
    · exact nomatch h
    · exact .unreached c hsite

variable (hworks : Server.TransactionsWork σ)

include hworks

theorem trails_abandon (c : Connection) :
    Has (trails σ) (abandon c true) fun r p => r = .ok () ∧ ∃ z, p = .ending c false z ++ .closing c := by
  refine (has_discard (has_attempt (trails_rollback hworks c))).bind ?_ ?_
  · rintro _ _ ⟨_, -, _, -, -, z, rfl⟩
    refine (trails_close c).weaken ?_
    rintro _ _ ⟨rfl, rfl⟩
    exact ⟨rfl, z, rfl⟩
  · rintro f p ⟨_, h, _, rfl, -⟩
    exact nomatch h

theorem trails_guarded {c : Connection} {body : Exchange (Journal σ) α} {C D : Result α → Trail → Prop}
    (hbody : Has (trails σ) body C) (hok : ∀ a p, C (.ok a) p → D (.ok a) p)
    (herror : ∀ f p z, C (.error f) p → D (.error (reported f)) (p ++ (.ending c false z ++ .closing c))) :
    Has (trails σ) (guarded c body) D := by
  unfold guarded
  refine (has_attempt hbody).bind ?_ fun _ _ ⟨_, h, _⟩ => nomatch h
  rintro outcome p ⟨_, ⟨⟩, hp⟩
  cases outcome with
  | ok a =>
      refine has_pure ?_
      rw [(trails σ).append_nothing]
      exact hok a p hp
  | error f =>
      refine (trails_abandon hworks c).bind ?_ fun _ _ h => nomatch h.1
      rintro _ _ ⟨-, z, rfl⟩
      rw [reporting_throw]
      refine has_throw ?_
      rw [(trails σ).append_nothing]
      exact herror f p z hp

/-- The statements of one batch, and how the transaction has ended if it has. -/
theorem trails_batch (c : Connection) (size : Int) (columns : List Value) :
    Has (trails σ) (batch c size columns) fun r p => ∃ xs,
      (∃ count chunk, r = .ok (some (count, chunk)) ∧ ¬ AnyFailed xs ∧ p = .said c xs) ∨
      (r = .ok none ∧ ¬ AnyFailed xs ∧ ∃ z, p = .said c xs ++ .ending c true z) ∨
      ∃ f z, r = .error f ∧ (AnyFailed xs → f = .refused (.failed .exportRows)) ∧
        p = .said c xs ++ (.ending c false z ++ .closing c) := by
  refine trails_guarded hworks (C := fun r p => ∃ xs,
    (∃ count chunk, r = .ok (some (count, chunk)) ∧ ¬ AnyFailed xs ∧ p = .said c xs) ∨
    (r = .ok none ∧ ¬ AnyFailed xs ∧ ∃ z, p = .said c xs ++ .ending c true z) ∨
    ∃ f, r = .error f ∧ (AnyFailed xs → f = .database) ∧ p = .said c xs) ?_ ?_ ?_
  · refine (trails_execute c (.fetch size)).bind ?_ ?_
    · rintro rows _ ⟨answer, hanswer, rfl⟩
      have hfetched : ¬ AnyFailed [(Statement.fetch size, answer)] := by
        rw [anyFailed_singleton]
        rintro rfl
        exact nomatch hanswer
      cases rows with
      | nil =>
          refine (has_discard (trails_execute c .closeCursor)).bind ?_ ?_
          · rintro _ _ ⟨_, hclosed, answer', rfl, rfl⟩
            have hended : ¬ AnyFailed [(Statement.fetch size, answer), (.closeCursor, answer')] := by
              refine fun h => ((anyFailed_append [_] _).mp h).elim hfetched ?_
              rw [anyFailed_singleton]
              rintro rfl
              exact nomatch hclosed
            refine (trails_commit hworks c).bind ?_ fun _ _ h => nomatch h.1
            rintro _ _ ⟨-, z, rfl⟩
            exact has_pure ⟨[_, _], .inr (.inl ⟨rfl, hended, z, rfl⟩)⟩
          · rintro f _ ⟨_, hf, answer', rfl, rfl⟩
            refine ⟨[_, _], .inr (.inr ⟨f, rfl, fun _ => ?_, rfl⟩)⟩
            cases answer' with
            | some rows => exact nomatch hf
            | none => exact Except.error.inj hf
      | cons row rest =>
          dsimp only
          cases (row :: rest).mapM (Csv.rowLine columns) with
          | error f => exact has_throw ⟨[_], .inr (.inr ⟨f, rfl, fun h => absurd h hfetched, rfl⟩)⟩
          | ok lines => exact has_pure ⟨[_], .inl ⟨_, _, rfl, hfetched, rfl⟩⟩
    · rintro f _ ⟨answer, hf, rfl⟩
      refine ⟨[_], .inr (.inr ⟨f, rfl, fun _ => ?_, rfl⟩)⟩
      cases answer with
      | some rows => exact nomatch hf
      | none => exact Except.error.inj hf
  · rintro a p ⟨xs, h | ⟨h, hxs, hp⟩ | ⟨_, h, -⟩⟩
    · exact ⟨xs, .inl h⟩
    · exact ⟨xs, .inr (.inl ⟨h, hxs, hp⟩)⟩
    · exact nomatch h
  · rintro f p z ⟨xs, ⟨_, _, h, -⟩ | ⟨h, -⟩ | ⟨_, ⟨⟩, hfailed, rfl⟩⟩
    · exact nomatch h
    · exact nomatch h
    · refine ⟨xs, .inr (.inr ⟨_, z, rfl, fun h => ?_, rfl⟩)⟩
      rw [hfailed h]
      rfl

variable {e : CursorExport (Journal σ)}
  (haudits : ∀ n, Has (trails σ) (e.onComplete n) fun r p => r = .ok () ∧ p.At .application)

include haudits

theorem trails_next_reading (c : Connection) (written : Nat) :
    Has (trails σ) (e.next (.reading c written)) fun r p => ∃ xs, Drawn e c xs r p := by
  show Has (trails σ) (e.readBatch c written) _
  rw [readBatch_eq]
  refine (trails_batch hworks c e.batchSize e.columns).bind ?_ ?_
  · rintro out _ ⟨xs, ⟨count, chunk, ⟨⟩, hxs, rfl⟩ | ⟨⟨⟩, hxs, z, rfl⟩ | ⟨_, _, h, -⟩⟩
    · refine has_pure ⟨xs, ?_⟩
      rw [(trails σ).append_nothing]
      exact .more chunk _ hxs
    · refine (trails_close c).bind ?_ fun _ _ h => nomatch h.1
      rintro _ _ ⟨-, rfl⟩
      refine (haudits written).bind ?_ fun _ _ h => nomatch h.1
      rintro _ later ⟨-, hlater⟩
      refine has_pure ⟨xs, ?_⟩
      rw [(trails σ).append_nothing, Trail.append_assoc]
      exact .drained z later hxs hlater
    · exact nomatch h
  · rintro f _ ⟨xs, ⟨_, _, h, -⟩ | ⟨h, -⟩ | ⟨_, z, ⟨⟩, hfailed, rfl⟩⟩
    · exact nomatch h
    · exact nomatch h
    · exact ⟨xs, .failed f z hfailed⟩

/-- The transaction of an export is made read-only before anything else, too. -/
theorem trails_next_headed (c : Connection) :
    Has (trails σ) (e.next (.headed c)) fun r p => ∃ y answer xs q,
      p = .beginning c y ++ q ∧ Drawn e c ((.readOnly, answer) :: xs) r q := by
  have hopening : Has (trails σ) (guarded c do
      discard (execute c .readOnly)
      discard (execute c (.declareCursor e.query))) fun r p => ∃ answer xs,
        (r = .ok () ∧ ¬ AnyFailed ((.readOnly, answer) :: xs) ∧ p = .said c ((.readOnly, answer) :: xs)) ∨
        ∃ f z, r = .error f ∧ (AnyFailed ((.readOnly, answer) :: xs) → f = .refused (.failed .exportRows)) ∧
          p = .said c ((.readOnly, answer) :: xs) ++ (.ending c false z ++ .closing c) := by
    refine trails_guarded hworks (C := fun r p => ∃ answer xs, p = .said c ((.readOnly, answer) :: xs) ∧
      (r = .ok () ∧ ¬ AnyFailed ((.readOnly, answer) :: xs) ∨ r = .error .database)) ?_ ?_ ?_
    · exact trails_readOnly_then c (.declareCursor e.query)
    · rintro _ _ ⟨answer, xs, rfl, ⟨-, hxs⟩ | h⟩
      · exact ⟨answer, xs, .inl ⟨rfl, hxs, rfl⟩⟩
      · exact nomatch h
    · rintro _ _ z ⟨answer, xs, rfl, ⟨h, -⟩ | ⟨⟨⟩⟩⟩
      · exact nomatch h
      · exact ⟨answer, xs, .inr ⟨_, z, rfl, fun _ => rfl, rfl⟩⟩
  have hopen : Has (trails σ) (e.openCursor c) fun r p => ∃ y answer xs,
      (r = .ok () ∧ ¬ AnyFailed ((.readOnly, answer) :: xs) ∧
        p = .beginning c y ++ .said c ((.readOnly, answer) :: xs)) ∨
      ∃ f z, r = .error f ∧ (AnyFailed ((.readOnly, answer) :: xs) → f = .refused (.failed .exportRows)) ∧
        p = .beginning c y ++ (.said c ((.readOnly, answer) :: xs) ++ (.ending c false z ++ .closing c)) := by
    refine (has_attempt (trails_begin hworks c)).bind ?_ fun _ _ ⟨_, h, _⟩ => nomatch h
    rintro _ _ ⟨_, ⟨⟩, rfl, y, rfl⟩
    refine hopening.weaken ?_
    rintro _ _ ⟨answer, xs, ⟨rfl, hxs, rfl⟩ | ⟨f, z, rfl, hf, rfl⟩⟩
    · exact ⟨y, answer, xs, .inl ⟨rfl, hxs, rfl⟩⟩
    · exact ⟨y, answer, xs, .inr ⟨f, z, rfl, hf, rfl⟩⟩
  refine hopen.bind ?_ ?_
  · rintro _ _ ⟨y, answer, xs, ⟨-, hxs, rfl⟩ | ⟨_, _, h, -⟩⟩
    · refine (trails_next_reading hworks haudits c 0).weaken ?_
      rintro r q ⟨ys, hq⟩
      exact ⟨y, answer, xs ++ ys, _, Trail.append_assoc .., hq.after hxs⟩
    · exact nomatch h
  · rintro f _ ⟨y, answer, xs, ⟨h, -⟩ | ⟨_, z, ⟨⟩, hf, rfl⟩⟩
    · exact nomatch h
    · exact ⟨y, answer, xs, _, rfl, .failed f z hf⟩

end CursorExport

end TableSteward

import TableSteward.Proofs.Dialogue
import TableSteward.Proofs.Effects
import TableSteward.Proofs.Journal

/-!
# Trails

All that a computation leaves behind: its calls with their answers, and the events that it adds to the trace, each in the
order of time.  The connections that it opens are numbered from the last one of the link on, so none of them has been
there before.
-/
set_option autoImplicit false

namespace TableSteward

def Call.connection : Call → Connection
  | .connect c | .begin c | .execute c _ | .commit c | .rollback c => c

namespace Event

def connected? : Event → Option Connection
  | .connected c => some c
  | _ => none

/-- The connection that an event is about; the disposal of a pool is about none. -/
def connection? : Event → Option Connection
  | .connected c | .begun c | .executed c _ | .committed c | .rolledBack c | .closed c => some c
  | .disposed _ => none

end Event

structure Trail where
  calls : List Entry := []
  events : List Event := []

namespace Trail

instance : Append Trail := ⟨fun p q => ⟨p.calls ++ q.calls, p.events ++ q.events⟩⟩

@[simp] theorem calls_append (p q : Trail) : (p ++ q).calls = p.calls ++ q.calls := rfl

@[simp] theorem events_append (p q : Trail) : (p ++ q).events = p.events ++ q.events := rfl

@[simp] theorem append_empty (p : Trail) : p ++ {} = p := by
  cases p
  exact congrArg₂ Trail.mk (List.append_nil _) (List.append_nil _)

@[simp] theorem empty_append (p : Trail) : {} ++ p = p := rfl

theorem append_assoc (p q r : Trail) : p ++ q ++ r = p ++ (q ++ r) :=
  congrArg₂ Trail.mk (List.append_assoc ..) (List.append_assoc ..)

def connected (p : Trail) : List Connection := p.events.filterMap Event.connected?

theorem connected_append (p q : Trail) : (p ++ q).connected = p.connected ++ q.connected :=
  List.filterMap_append

/-- The trail leads from one link to another. -/
structure Between {σ : Type} (p : Trail) (l m : Link (Journal σ)) : Prop where
  calls : m.server.entries = l.server.entries ++ p.calls
  events : m.trace = p.events.reverse ++ l.trace
  numbers : p.connected.map Connection.number = List.range' (l.connections + 1) p.connected.length
  connections : m.connections = l.connections + p.connected.length

theorem Between.refl {σ : Type} (l : Link (Journal σ)) : Between {} l l :=
  ⟨(List.append_nil _).symm, rfl, rfl, rfl⟩

theorem Between.trans {σ : Type} {p q : Trail} {l m n : Link (Journal σ)} (hp : p.Between l m)
    (hq : q.Between m n) : (p ++ q).Between l n := by
  constructor
  · rw [hq.calls, hp.calls, calls_append, List.append_assoc]
  · rw [hq.events, hp.events, events_append, List.reverse_append, List.append_assoc]
  · have hstart : m.connections + 1 = l.connections + 1 + p.connected.length := by
      rw [hp.connections]
      omega
    rw [connected_append, List.map_append, hp.numbers, hq.numbers, hstart, List.length_append,
      List.range'_append_1]
  · rw [hq.connections, hp.connections, connected_append, List.length_append, Nat.add_assoc]

/-- Calls and events without a new connection. -/
theorem between_of_calls {σ : Type} {p : Trail} {l m : Link (Journal σ)} (hnone : p.connected = [])
    (hcalls : m.server.entries = l.server.entries ++ p.calls) (hevents : m.trace = p.events.reverse ++ l.trace)
    (hconnections : m.connections = l.connections) : p.Between l m := by
  refine ⟨hcalls, hevents, ?_, ?_⟩
  · rw [hnone]
    rfl
  · rw [hnone, hconnections]
    rfl

/-- What a dialogue leaves behind: statements with their answers. -/
def said (c : Connection) (xs : List (Statement × Option (List Row))) : Trail :=
  ⟨xs.map fun x => ⟨.execute c x.1, x.2⟩, xs.map fun x => .executed c x.1⟩

theorem said_append (c : Connection) (xs ys : List (Statement × Option (List Row))) :
    said c (xs ++ ys) = said c xs ++ said c ys :=
  congrArg₂ Trail.mk List.map_append List.map_append

end Trail

def trails (σ : Type) : Effects (Journal σ) Trail where
  nothing := {}
  append_nothing := Trail.append_empty
  between p l m := p.Between l m
  refl := .refl
  trans := .trans

/-- Transactions are begun, committed and rolled back without fail. -/
def Server.TransactionsWork (σ : Type) [Server σ] : Prop :=
  ∀ (s : σ) (c : Connection), (Server.answer s (.begin c)).1 ≠ none ∧ (Server.answer s (.commit c)).1 ≠ none ∧
    (Server.answer s (.rollback c)).1 ≠ none

namespace Exchange

variable {σ α β : Type}

/-! ## Events and calls -/

theorem trails_note (e : Event) (he : e.connected? = none) :
    Has (trails σ) (note e) fun r p => r = .ok () ∧ p = ⟨[], [e]⟩ := by
  intro l
  rw [runOn_note]
  refine ⟨_, ?_, rfl, rfl⟩
  refine Trail.between_of_calls ?_ (List.append_nil _).symm rfl rfl
  rw [Trail.connected, List.filterMap_cons_none he]
  rfl

theorem trails_close (c : Connection) :
    Has (trails σ) (close c) fun r p => r = .ok () ∧ p = ⟨[], [.closed c]⟩ := trails_note (.closed c) rfl

theorem trails_usePool (name : String) :
    Has (trails σ) (usePool name) fun r p => r ≠ .error .database ∧ p = {} := by
  intro l
  rw [runOn_usePool]
  refine ⟨{}, ?_, ?_, rfl⟩
  · cases l.pools.opened.get? name <;> cases l.pools.addresses.get? name <;>
      exact ⟨(List.append_nil _).symm, rfl, rfl, rfl⟩
  · cases l.pools.opened.get? name <;> cases l.pools.addresses.get? name <;> nofun

section Calls

variable [Server σ]

theorem trails_ask (call : Call) :
    Has (trails σ) (ask call) fun r p => ∃ answer, r = answer.elim (.error .database) .ok ∧
      p = ⟨[⟨call, answer⟩], []⟩ := by
  intro l
  rw [runOn_ask, Journal.answer_fst]
  exact ⟨_, Trail.between_of_calls rfl (Journal.answer_entries ..) rfl rfl, _, rfl, rfl⟩

theorem trails_execute (c : Connection) (s : Statement) :
    Has (trails σ) (execute c s) fun r p => ∃ answer, r = answer.elim (.error .database) .ok ∧
      p = Trail.said c [(s, answer)] := by
  refine (trails_note _ rfl).bind ?_ fun _ _ h => nomatch h.1
  rintro _ _ ⟨-, rfl⟩
  refine (trails_ask _).weaken ?_
  rintro _ _ ⟨answer, rfl, rfl⟩
  exact ⟨answer, rfl, rfl⟩

theorem trails_connect (site : Site) :
    Has (trails σ) (connect site) fun r p => ∃ c : Connection, c.site = site ∧
      ((∃ rows, r = .ok c ∧ p = ⟨[⟨.connect c, some rows⟩], [.connected c]⟩) ∨
        r = .error .database ∧ p = ⟨[⟨.connect c, none⟩], []⟩) := by
  intro l
  let c : Connection := ⟨l.connections + 1, site⟩
  have hentries := Journal.answer_entries l.server (.connect c)
  simp only [connect, runOn_bind, runOn_get, runOn_discard, runOn_ask]
  cases hanswer : (Server.answer l.server (.connect c)).1 with
  | none =>
      rw [hanswer] at hentries
      exact ⟨⟨[⟨.connect c, none⟩], []⟩, Trail.between_of_calls rfl hentries rfl rfl, c, rfl, .inr ⟨rfl, rfl⟩⟩
  | some rows =>
      rw [hanswer] at hentries
      exact ⟨⟨[⟨.connect c, some rows⟩], [.connected c]⟩, ⟨hentries, rfl, rfl, rfl⟩, c, rfl, .inl ⟨rows, rfl, rfl⟩⟩

/-- A call that never fails, and the event that notes it. -/
theorem trails_asked {call : Call} {e : Event} (he : e.connected? = none)
    (hanswer : ∀ s : σ, (Server.answer s call).1 ≠ none) :
    Has (trails σ) (do discard (ask call); note e) fun r p =>
      r = .ok () ∧ ∃ rows, p = ⟨[⟨call, some rows⟩], [e]⟩ := by
  have hask : Has (trails σ) (ask call) fun r p => ∃ rows, r = .ok rows ∧ p = ⟨[⟨call, some rows⟩], []⟩ := by
    intro l
    rw [runOn_ask, Journal.answer_fst]
    obtain ⟨rows, hrows⟩ := Option.ne_none_iff_exists'.mp (hanswer l.server.server)
    have hentries := Journal.answer_entries l.server call
    rw [Journal.answer_fst, hrows] at hentries
    rw [hrows]
    exact ⟨_, Trail.between_of_calls rfl hentries rfl rfl, rows, rfl, rfl⟩
  refine (has_discard hask).bind ?_ ?_
  · rintro _ _ ⟨_, -, rows, -, rfl⟩
    refine (trails_note e he).weaken ?_
    rintro _ _ ⟨rfl, rfl⟩
    exact ⟨rfl, rows, rfl⟩
  · rintro _ _ ⟨_, h, rows, rfl, -⟩
    exact nomatch h

section

variable (hworks : Server.TransactionsWork σ)

include hworks

theorem trails_begin (c : Connection) :
    Has (trails σ) (begin c) fun r p => r = .ok () ∧ ∃ rows, p = ⟨[⟨.begin c, some rows⟩], [.begun c]⟩ :=
  trails_asked rfl fun s => (hworks s c).1

theorem trails_commit (c : Connection) :
    Has (trails σ) (commit c) fun r p => r = .ok () ∧ ∃ rows, p = ⟨[⟨.commit c, some rows⟩], [.committed c]⟩ :=
  trails_asked rfl fun s => (hworks s c).2.1

theorem trails_rollback (c : Connection) :
    Has (trails σ) (rollback c) fun r p => r = .ok () ∧ ∃ rows, p = ⟨[⟨.rollback c, some rows⟩], [.rolledBack c]⟩ :=
  trails_asked rfl fun s => (hworks s c).2.2

end

/-! ## Dialogues -/

/-- A dialogue that lets failures pass leaves nothing but its statements, and a failed one is its outcome. -/
theorem trails_dialogue (c : Connection) {d : Dialogue α} (hpass : d.LetsPass) :
    Has (trails σ) (d.on c) fun r p => ∃ xs, p = Trail.said c xs ∧ ((∃ x ∈ xs, x.2 = none) → r = .error .database) := by
  induction d with
  | done r =>
      refine has_lift r ⟨[], rfl, ?_⟩
      rintro ⟨x, hx, -⟩
      exact nomatch hx
  | ask s next ih =>
      refine (has_attempt (trails_execute c s)).bind ?_ fun _ _ ⟨_, h, _⟩ => nomatch h
      rintro outcome _ ⟨_, ⟨⟩, answer, rfl, rfl⟩
      cases answer with
      | some rows =>
          refine (ih (some rows) (hpass.2 rows)).weaken ?_
          rintro r _ ⟨xs, rfl, hfailed⟩
          refine ⟨(s, some rows) :: xs, (Trail.said_append c [_] xs).symm, fun ⟨x, hx, hnone⟩ => ?_⟩
          rcases List.mem_cons.mp hx with rfl | hx
          · exact nomatch hnone
          · exact hfailed ⟨x, hx, hnone⟩
      | none =>
          have hend : (next none).on c = (throw .database : Exchange (Journal σ) α) := by
            rw [hpass.1]
            rfl
          show Has (trails σ) ((next none).on c) _
          rw [hend]
          exact has_throw ⟨[(s, none)], rfl, fun _ => rfl⟩

end Calls

end Exchange

end TableSteward

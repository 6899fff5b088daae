import TableSteward.Proofs.Effects
import TableSteward.Proofs.Journal

/-!
# Footprints

What a computation leaves behind: the calls that it made, with their answers, and the connections that it closed.
`Leaves` relates the footprint of a computation to its outcome.  There is a rule for each way of putting
computations together and one for each kind of call; a call has one footprint if it is answered and another if it
fails.
-/
set_option autoImplicit false

namespace TableSteward

def Event.closed? : Event → Option Connection
  | .closed c => some c
  | _ => none

structure Footprint where
  calls : List Entry := []
  closed : List Connection := []

namespace Footprint

instance : Append Footprint := ⟨fun p q => ⟨p.calls ++ q.calls, p.closed ++ q.closed⟩⟩

@[simp] theorem calls_append (p q : Footprint) : (p ++ q).calls = p.calls ++ q.calls := rfl

@[simp] theorem closed_append (p q : Footprint) : (p ++ q).closed = p.closed ++ q.closed := rfl

@[simp] theorem append_mk (calls calls' : List Entry) (closed closed' : List Connection) :
    (⟨calls, closed⟩ : Footprint) ++ ⟨calls', closed'⟩ = ⟨calls ++ calls', closed ++ closed'⟩ := rfl

@[simp] theorem append_empty (p : Footprint) : p ++ {} = p := by
  cases p
  simp

/-- The footprint leads from one link to another. -/
structure Between {σ : Type} (p : Footprint) (l m : Link (Journal σ)) : Prop where
  calls : m.server.entries = l.server.entries ++ p.calls
  closed : m.trace.filterMap Event.closed? = p.closed.reverse ++ l.trace.filterMap Event.closed?

theorem Between.refl {σ : Type} (l : Link (Journal σ)) : Between {} l l :=
  ⟨(List.append_nil _).symm, rfl⟩

theorem Between.trans {σ : Type} {p q : Footprint} {l m n : Link (Journal σ)} (hp : p.Between l m)
    (hq : q.Between m n) : (p ++ q).Between l n := by
  constructor
  · rw [hq.calls, hp.calls, calls_append, List.append_assoc]
  · rw [hq.closed, hp.closed, closed_append, List.reverse_append, List.append_assoc]

end Footprint

namespace Exchange

variable {σ α β : Type}

def footprints (σ : Type) : Effects (Journal σ) Footprint where
  nothing := {}
  append_nothing := Footprint.append_empty
  between p l m := p.Between l m
  refl := .refl
  trans := .trans

def Leaves (x : Exchange (Journal σ) α) (C : Result α → Footprint → Prop) : Prop :=
  ∀ l, ∃ p : Footprint, p.Between l (x.runOn l).2 ∧ C (x.runOn l).1 p

variable {C : Result α → Footprint → Prop} {D : Result β → Footprint → Prop}

/-! ## Sequences -/

theorem leaves_pure {a : α} (h : C (.ok a) {}) : Leaves (pure a : Exchange (Journal σ) α) C :=
  has_pure (E := footprints σ) h

theorem leaves_throw {f : Fault} (h : C (.error f) {}) :
    Leaves (throw f : Exchange (Journal σ) α) C :=
  has_throw (E := footprints σ) h

theorem leaves_lift (r : Result α) (h : C r {}) : Leaves (lift r : Exchange (Journal σ) α) C :=
  has_lift (E := footprints σ) r h

theorem Leaves.weaken {C' : Result α → Footprint → Prop} {x : Exchange (Journal σ) α} (h : Leaves x C)
    (hC : ∀ r p, C r p → C' r p) : Leaves x C' :=
  Has.weaken (E := footprints σ) h hC

theorem Leaves.bind {x : Exchange (Journal σ) α} {k : α → Exchange (Journal σ) β} (hx : Leaves x C)
    (hok : ∀ a p, C (.ok a) p → Leaves (k a) fun r q => D r (p ++ q))
    (herror : ∀ f p, C (.error f) p → D (.error f) p) : Leaves (x >>= k) D :=
  Has.bind (E := footprints σ) hx hok herror

theorem leaves_attempt {x : Exchange (Journal σ) α} (hx : Leaves x C) :
    Leaves (attempt x) fun r p => ∃ outcome, r = .ok outcome ∧ C outcome p :=
  has_attempt (E := footprints σ) hx

theorem leaves_discard {x : Exchange (Journal σ) α} (hx : Leaves x C) :
    Leaves (discard x) fun r p => ∃ outcome, r = outcome.map (fun _ => ⟨⟩) ∧ C outcome p :=
  has_discard (E := footprints σ) hx

theorem leaves_get_bind {k : Link (Journal σ) → Exchange (Journal σ) α} (h : ∀ l, Leaves (k l) C) :
    Leaves (get >>= k) C :=
  has_get_bind (E := footprints σ) h

theorem leaves_setConnections (n : Nat) :
    Leaves (σ := σ) (modify fun l => { l with connections := n }) fun r p => r = .ok ⟨⟩ ∧ p = {} :=
  fun _ => ⟨{}, ⟨(List.append_nil _).symm, rfl⟩, rfl, rfl⟩

/-! ## Calls -/

theorem leaves_note (e : Event) :
    Leaves (σ := σ) (note e) fun r p => r = .ok () ∧ p = ⟨[], e.closed?.toList⟩ := by
  intro l
  rw [runOn_note]
  refine ⟨_, ⟨(List.append_nil _).symm, ?_⟩, rfl, rfl⟩
  cases h : e.closed? with
  | none => simp [h]
  | some c => simp [h]

theorem leaves_close (c : Connection) :
    Leaves (σ := σ) (close c) fun r p => r = .ok () ∧ p = ⟨[], [c]⟩ := leaves_note (.closed c)

/-- What a call comes to: its rows, or a failure of the database. -/
inductive Called (call : Call) (value : List Row → α) : Result α → Footprint → Prop
  | answered (rows : List Row) : Called call value (.ok (value rows)) ⟨[⟨call, some rows⟩], []⟩
  | failed : Called call value (.error .database) ⟨[⟨call, none⟩], []⟩

theorem Leaves.discarded {call : Call} {value : List Row → α} {x : Exchange (Journal σ) α}
    (hx : Leaves x (Called call value)) : Leaves (discard x) (Called call fun _ => ⟨⟩) := by
  refine (leaves_discard hx).weaken ?_
  rintro _ _ ⟨_, rfl, (rows | _)⟩
  · exact .answered rows
  · exact .failed

section Calls

variable [Server σ]

theorem leaves_ask (call : Call) : Leaves (σ := σ) (ask call) (Called call id) := by
  intro l
  rw [runOn_ask, Journal.answer_fst]
  refine ⟨⟨[⟨call, (Server.answer l.server.server call).1⟩], []⟩, ⟨rfl, rfl⟩, ?_⟩
  cases (Server.answer l.server.server call).1 with
  | none => exact .failed
  | some rows => exact .answered rows

/-- A call that is noted once it has been answered. -/
theorem leaves_asked (call : Call) {e : Event} (he : e.closed? = none) :
    Leaves (σ := σ) (do discard (ask call); note e) (Called call fun _ => ()) := by
  refine (leaves_ask call).discarded.bind ?_ ?_
  · rintro _ _ (rows | _)
    refine (leaves_note e).weaken ?_
    rintro _ _ ⟨rfl, rfl⟩
    rw [he]
    exact .answered rows
  · rintro _ _ (_ | _)
    exact .failed

theorem leaves_begin (c : Connection) :
    Leaves (σ := σ) (begin c) (Called (.begin c) fun _ => ()) := leaves_asked _ rfl

theorem leaves_commit (c : Connection) :
    Leaves (σ := σ) (commit c) (Called (.commit c) fun _ => ()) := leaves_asked _ rfl

theorem leaves_rollback (c : Connection) :
    Leaves (σ := σ) (rollback c) (Called (.rollback c) fun _ => ()) := leaves_asked _ rfl

theorem leaves_execute (c : Connection) (s : Statement) :
    Leaves (σ := σ) (execute c s) (Called (.execute c s) id) := by
  refine (leaves_note _).bind ?_ fun _ _ h => nomatch h.1
  rintro _ _ ⟨-, rfl⟩
  exact leaves_ask _

theorem leaves_connect (site : Site) :
    Leaves (σ := σ) (connect site) fun r p => ∃ c : Connection, c.site = site ∧
      Called (.connect c) (fun _ => c) r p := by
  unfold connect
  refine leaves_get_bind fun _ => ?_
  refine (leaves_ask (.connect _)).discarded.bind ?_ ?_
  · rintro _ _ (rows | _)
    refine (leaves_setConnections _).bind ?_ fun _ _ h => nomatch h.1
    rintro _ _ ⟨-, rfl⟩
    refine (leaves_note _).bind ?_ fun _ _ h => nomatch h.1
    rintro _ _ ⟨-, rfl⟩
    exact leaves_pure ⟨_, rfl, .answered rows⟩
  · rintro _ _ (_ | _)
    exact ⟨_, rfl, .failed⟩

end Calls

end Exchange

end TableSteward

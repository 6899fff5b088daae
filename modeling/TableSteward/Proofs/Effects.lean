import TableSteward.Proofs.Exchange

/-!
# Effects

A computation leads from one link to another, and what it did in between can be told in several ways: by the calls that
it made, or by the events that it left in the trace.  `Has` relates the outcome of a computation to its effect, and there
is one rule for each way of putting computations together, whichever way the effects are told.
-/
set_option autoImplicit false

namespace TableSteward

/-- A way of telling what happened between two links. -/
structure Effects (σ ε : Type) [Append ε] where
  nothing : ε
  append_nothing : ∀ p : ε, p ++ nothing = p
  between : ε → Link σ → Link σ → Prop
  refl : ∀ l, between nothing l l
  trans : ∀ {p q l m n}, between p l m → between q m n → between (p ++ q) l n

namespace Exchange

variable {σ ε α β : Type} [Append ε] {E : Effects σ ε}

def Has (E : Effects σ ε) (x : Exchange σ α) (C : Result α → ε → Prop) : Prop :=
  ∀ l, ∃ p, E.between p l (x.runOn l).2 ∧ C (x.runOn l).1 p

variable {C : Result α → ε → Prop} {D : Result β → ε → Prop}

theorem has_pure {a : α} (h : C (.ok a) E.nothing) : Has E (pure a) C :=
  fun l => ⟨E.nothing, E.refl l, h⟩

theorem has_throw {f : Fault} (h : C (.error f) E.nothing) : Has E (throw f) C :=
  fun l => ⟨E.nothing, E.refl l, h⟩

theorem has_lift (r : Result α) (h : C r E.nothing) : Has E (lift r) C := by
  cases r with
  | ok a => exact has_pure h
  | error f => exact has_throw h

theorem Has.weaken {C' : Result α → ε → Prop} {x : Exchange σ α} (h : Has E x C) (hC : ∀ r p, C r p → C' r p) :
    Has E x C' := by
  intro l
  obtain ⟨p, hp, hvalue⟩ := h l
  exact ⟨p, hp, hC _ _ hvalue⟩

theorem Has.bind {x : Exchange σ α} {k : α → Exchange σ β} (hx : Has E x C)
    (hok : ∀ a p, C (.ok a) p → Has E (k a) fun r q => D r (p ++ q))
    (herror : ∀ f p, C (.error f) p → D (.error f) p) : Has E (x >>= k) D := by
  intro l
  obtain ⟨p, hp, hvalue⟩ := hx l
  rw [runOn_bind]
  rcases hrun : x.runOn l with ⟨r, m⟩
  rw [hrun] at hp hvalue
  cases r with
  | error f => exact ⟨p, hp, herror f p hvalue⟩
  | ok a =>
      obtain ⟨q, hq, hvalue'⟩ := hok a p hvalue m
      exact ⟨p ++ q, E.trans hp hq, hvalue'⟩

theorem has_attempt {x : Exchange σ α} (hx : Has E x C) :
    Has E (attempt x) fun r p => ∃ outcome, r = .ok outcome ∧ C outcome p := by
  intro l
  obtain ⟨p, hp, hvalue⟩ := hx l
  rw [runOn_attempt]
  exact ⟨p, hp, _, rfl, hvalue⟩

theorem has_discard {x : Exchange σ α} (hx : Has E x C) :
    Has E (discard x) fun r p => ∃ outcome, r = outcome.map (fun _ => ⟨⟩) ∧ C outcome p := by
  intro l
  obtain ⟨p, hp, hvalue⟩ := hx l
  rw [runOn_discard]
  exact ⟨p, hp, _, rfl, hvalue⟩

theorem has_reporting (task : FailedTask) {x : Exchange σ α} (hx : Has E x C) :
    Has E (reporting task x) fun r p => ∃ outcome,
      r = outcome.mapError (fun f => if f = .database then .refused (.failed task) else f) ∧ C outcome p := by
  intro l
  obtain ⟨p, hp, hvalue⟩ := hx l
  rw [runOn_reporting]
  exact ⟨p, hp, _, rfl, hvalue⟩

theorem has_get_bind {k : Link σ → Exchange σ α} (h : ∀ l, Has E (k l) C) : Has E (get >>= k) C := by
  intro l
  rw [runOn_bind]
  exact h l l

end Exchange

end TableSteward

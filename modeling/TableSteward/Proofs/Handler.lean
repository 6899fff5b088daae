import Mathlib.Tactic.Choose
import TableSteward.Http.Application
import TableSteward.Proofs.Exchange

/-!
# Runs of handlers

`runOn` gives what a handler comes to on a service: a value, an answer or a fault, together with the service after it.
A handler is `Stateless` if it neither looks at the service nor changes it, as everything is that examines a request or
puts an answer together.  It is `Quiet` if it leaves the stores and the files alone.
-/
set_option autoImplicit false

namespace TableSteward

/-! ## Quiet changes -/

namespace Service

variable {σ : Type} {s t u : Service σ}

/-- Nothing but the link and the cache has changed, and perhaps some ids were taken. -/
def Quiet (s t : Service σ) : Prop :=
  ∃ link cache ids, t = { s with link := link, cache := cache, ids := ids } ∧ s.ids ≤ ids

theorem Quiet.refl (s : Service σ) : Quiet s s := ⟨s.link, s.cache, s.ids, rfl, Nat.le_refl _⟩

theorem Quiet.trans (h : Quiet s t) (h' : Quiet t u) : Quiet s u := by
  obtain ⟨link, cache, ids, rfl, hids⟩ := h
  obtain ⟨link', cache', ids', rfl, hids'⟩ := h'
  exact ⟨link', cache', ids', rfl, Nat.le_trans hids hids'⟩

theorem Quiet.withLink (s : Service σ) (link : Link σ) : Quiet s { s with link := link } :=
  ⟨link, s.cache, s.ids, rfl, Nat.le_refl _⟩

theorem Quiet.withCache (s : Service σ) (cache : MetricsCache Number) : Quiet s { s with cache := cache } :=
  ⟨s.link, cache, s.ids, rfl, Nat.le_refl _⟩

end Service

namespace Action

variable {σ α β : Type}

theorem runOn_map (f : α → β) (x : Action σ α) (s : Service σ) :
    (f <$> x).runOn s = ((x.runOn s).1.map f, (x.runOn s).2) := by
  rw [map_eq_pure_bind, runOn_bind]
  rcases x.runOn s with ⟨r, t⟩
  cases r <;> rfl

def Quiet (x : Action σ α) : Prop := ∀ s : Service σ, s.Quiet (x.runOn s).2

theorem quiet_pure (a : α) : Quiet (pure a : Action σ α) := fun s => .refl s

theorem quiet_lift (r : Result α) : Quiet (lift r : Action σ α) := by
  intro s
  rw [runOn_lift]
  exact .refl s

theorem quiet_refused (r : Refusal) : Quiet (refused r : Action σ α) := fun s => .refl s

theorem quiet_onLink (x : Exchange σ α) : Quiet (onLink x) := fun s => .withLink s _

theorem quiet_get : Quiet (get : Action σ (Service σ)) := fun s => .refl s

theorem Quiet.bind {x : Action σ α} {k : α → Action σ β} (hx : x.Quiet) (hk : ∀ a, (k a).Quiet) :
    (x >>= k).Quiet := by
  intro s
  have hfirst := hx s
  rw [runOn_bind]
  cases hrun : x.runOn s with
  | mk outcome t =>
      rw [hrun] at hfirst
      cases outcome with
      | error f => exact hfirst
      | ok a => exact hfirst.trans (hk a t)

theorem Quiet.bindOption {x : Action σ (Option α)} {k : Option α → Action σ β} (hx : x.Quiet)
    (hnone : (k none).Quiet) (hsome : ∀ a, (k (some a)).Quiet) : (x >>= k).Quiet := by
  refine hx.bind fun found => ?_
  cases found with
  | none => exact hnone
  | some a => exact hsome a

end Action

/-! ## Runs -/

namespace Http.Handler

variable {σ α β : Type}

def runOn (h : Handler σ α) (s : Service σ) : Result (Except Response α) × Service σ := Action.runOn h.run s

@[simp] theorem runOn_pure (a : α) (s : Service σ) : runOn (pure a : Handler σ α) s = (.ok (.ok a), s) := rfl

@[simp] theorem runOn_answer (r : Response) (s : Service σ) :
    runOn (answer r : Handler σ α) s = (.ok (.error r), s) := rfl

@[simp] theorem runOn_act (x : Action σ α) (s : Service σ) :
    runOn (act x) s = ((x.runOn s).1.map .ok, (x.runOn s).2) := by
  change Action.runOn (x >>= fun a => pure (Except.ok a)) s = _
  rw [Action.runOn_bind]
  rcases x.runOn s with ⟨r, t⟩
  cases r <;> rfl

@[simp] theorem runOn_state (s : Service σ) : runOn state s = (.ok (.ok s), s) := rfl

@[simp] theorem runOn_lift (r : Result α) (s : Service σ) : runOn (lift r : Handler σ α) s = (r.map .ok, s) := by
  rw [lift, runOn_act, Action.runOn_lift]

@[simp] theorem runOn_link (x : Exchange σ α) (s : Service σ) :
    runOn (link x) s = ((x.runOn s.link).1.map .ok, { s with link := (x.runOn s.link).2 }) := by
  rw [link, runOn_act, Action.runOn_onLink]

theorem runOn_bind (h : Handler σ α) (k : α → Handler σ β) (s : Service σ) :
    runOn (h >>= k) s =
      match runOn h s with
      | (.ok (.ok a), t) => runOn (k a) t
      | (.ok (.error r), t) => (.ok (.error r), t)
      | (.error f, t) => (.error f, t) := by
  rw [runOn, ExceptT.run_bind, Action.runOn_bind, runOn]
  rcases Action.runOn h.run s with ⟨r, t⟩
  rcases r with f | ⟨r | a⟩ <;> rfl

theorem discard_bind (h : Handler σ α) (k : Handler σ β) :
    (do discard h; k) = h >>= fun _ => k := bind_map_left _ h fun _ => k

/-! ## Handlers that do not look at the service -/

def Stateless (h : Handler σ α) : Prop := ∃ outcome, ∀ s, runOn h s = (outcome, s)

theorem stateless_pure (a : α) : Stateless (pure a : Handler σ α) := ⟨_, fun _ => rfl⟩

theorem stateless_answer (r : Response) : Stateless (answer r : Handler σ α) := ⟨_, fun _ => rfl⟩

theorem stateless_lift (r : Result α) : Stateless (lift r : Handler σ α) := ⟨_, fun s => runOn_lift r s⟩

theorem Stateless.bind {h : Handler σ α} {k : α → Handler σ β} (hh : h.Stateless) (hk : ∀ a, (k a).Stateless) :
    (h >>= k).Stateless := by
  obtain ⟨outcome, hrun⟩ := hh
  rcases outcome with f | ⟨r | a⟩
  · exact ⟨.error f, fun s => by rw [runOn_bind, hrun]⟩
  · exact ⟨.ok (.error r), fun s => by rw [runOn_bind, hrun]⟩
  · obtain ⟨outcome, hrest⟩ := hk a
    exact ⟨outcome, fun s => by rw [runOn_bind, hrun]; exact hrest s⟩

/-- An action, with an answer that is made of its result alone. -/
theorem runOn_act_bind (x : Action σ α) {finish : α → Handler σ β} (hfinish : ∀ a, (finish a).Stateless) :
    ∃ outcome : α → Result (Except Response β), (∀ a s, runOn (finish a) s = (outcome a, s)) ∧
      ∀ s, runOn (act x >>= finish) s = ((x.runOn s).1 >>= outcome, (x.runOn s).2) := by
  choose outcome houtcome using hfinish
  refine ⟨outcome, houtcome, fun s => ?_⟩
  rw [runOn_bind, runOn_act]
  rcases x.runOn s with ⟨f | a, t⟩
  · rfl
  · exact houtcome a t

theorem stateless_valid (document : Value) (c : Checked α) : Stateless (valid document c : Handler σ α) := by
  cases c with
  | ok a => exact stateless_pure a
  | wrong is =>
      simp only [valid]
      split
      · exact stateless_lift _
      · split
        · exact stateless_lift _
        · exact stateless_answer _

theorem stateless_succeed (v : Value) : Stateless (succeed v : Handler σ Response) :=
  (stateless_lift _).bind fun _ => stateless_pure _

theorem stateless_confirm (more : Entries Value) : Stateless (confirm more : Handler σ Response) :=
  stateless_succeed _

theorem stateless_inQuery (r : Request) (check : Entries Value → Checked α) :
    Stateless (r.inQuery check : Handler σ α) := stateless_valid _ _

theorem stateless_inBody (body : Option Value) (check : Value → Checked α) :
    Stateless (inBody body check : Handler σ α) := by
  unfold inBody
  split
  · exact stateless_valid _ _
  · exact stateless_valid _ _

theorem stateless_inOptionalBody (body : Option Value) (default : α) (check : Value → Checked α) :
    Stateless (inOptionalBody body default check : Handler σ α) := by
  unfold inOptionalBody
  split
  · exact stateless_pure _
  · exact stateless_pure _
  · exact stateless_valid _ _

theorem stateless_document (r : Request) : Stateless (r.document : Handler σ (Option Value)) := by
  rw [Request.document]
  split
  · exact stateless_pure _
  · split
    · exact stateless_answer _
    · split <;> first | exact stateless_pure _ | exact stateless_answer _

/-! ## Handlers that leave the stores alone -/

def Quiet (h : Handler σ α) : Prop := ∀ s : Service σ, s.Quiet (runOn h s).2

theorem Stateless.quiet {h : Handler σ α} (hh : h.Stateless) : h.Quiet := by
  obtain ⟨outcome, hrun⟩ := hh
  intro s
  rw [hrun]
  exact .refl s

theorem quiet_state : Quiet (state : Handler σ (Service σ)) := fun s => .refl s

theorem quiet_act {x : Action σ α} (h : x.Quiet) : Quiet (act x) := by
  intro s
  rw [runOn_act]
  exact h s

theorem quiet_link (x : Exchange σ α) : Quiet (link x) := quiet_act (Action.quiet_onLink x)

theorem Quiet.bind {h : Handler σ α} {k : α → Handler σ β} (hh : h.Quiet) (hk : ∀ a, (k a).Quiet) :
    (h >>= k).Quiet := by
  intro s
  have hfirst := hh s
  rw [runOn_bind]
  rcases hrun : runOn h s with ⟨f | ⟨r | a⟩, t⟩ <;> rw [hrun] at hfirst
  · exact hfirst
  · exact hfirst
  · exact hfirst.trans (hk a t)

theorem quiet_discard {h : Handler σ α} (hh : h.Quiet) {k : Handler σ β} (hk : k.Quiet) :
    Quiet (do discard h; k) := by
  rw [discard_bind]
  exact hh.bind fun _ => hk

end Http.Handler

end TableSteward

import TableSteward.Service.Documents

/-!
# Runs of exchanges and of actions

`runOn` gives the outcome of an exchange from a link, together with the link after it.  There is one equation
for each building block of an exchange, and the modules above this one use these equations only; none of them
opens the monad again.  The outcome of an action on a service is given likewise: what an action on the link does is
what its exchange does from the link of the service.
-/
set_option autoImplicit false

namespace TableSteward.Exchange

variable {σ α β : Type}

def runOn (x : Exchange σ α) (l : Link σ) : Result α × Link σ := x.run.run l

theorem runOn_get (l : Link σ) : runOn (get : Exchange σ (Link σ)) l = (.ok l, l) := rfl

theorem runOn_set (l m : Link σ) : runOn (set m : Exchange σ PUnit) l = (.ok ⟨⟩, m) := rfl

theorem runOn_bind (x : Exchange σ α) (g : α → Exchange σ β) (l : Link σ) :
    runOn (x >>= g) l =
      match x.runOn l with
      | (.ok a, l') => (g a).runOn l'
      | (.error f, l') => (.error f, l') := by
  simp only [runOn, ExceptT.run_bind, StateT.run_bind]
  rcases StateT.run (ExceptT.run x) l with ⟨r, l'⟩
  cases r <;> rfl

theorem of_runOn_bind {x : Exchange σ α} {g : α → Exchange σ β} {l n : Link σ} {b : β}
    (h : runOn (x >>= g) l = (.ok b, n)) :
    ∃ a m, runOn x l = (.ok a, m) ∧ runOn (g a) m = (.ok b, n) := by
  rw [runOn_bind] at h
  rcases hrun : runOn x l with ⟨f | a, m⟩
  · rw [hrun] at h
    exact nomatch h
  · rw [hrun] at h
    exact ⟨a, m, rfl, h⟩

theorem of_runOn_lift {r : Result α} {l m : Link σ} {a : α} (h : runOn (lift r) l = (.ok a, m)) :
    r = .ok a ∧ m = l := by
  cases r with
  | error f => exact nomatch h
  | ok a =>
      cases h
      exact ⟨rfl, rfl⟩

theorem runOn_discard (x : Exchange σ α) (l : Link σ) :
    runOn (discard x) l = ((x.runOn l).1.map fun _ => ⟨⟩, (x.runOn l).2) := by
  have h : (discard x : Exchange σ PUnit) = x >>= fun _ => pure ⟨⟩ := map_eq_pure_bind _ x
  rw [h, runOn_bind]
  rcases x.runOn l with ⟨r, l'⟩
  cases r <;> rfl

theorem runOn_tryCatch (x : Exchange σ α) (g : Fault → Exchange σ α) (l : Link σ) :
    runOn (tryCatch x g) l =
      match x.runOn l with
      | (.ok a, l') => (.ok a, l')
      | (.error f, l') => (g f).runOn l' := by
  unfold runOn
  rw [ExceptT.run_tryCatch, StateT.run_bind]
  rcases StateT.run (ExceptT.run x) l with ⟨r, l'⟩
  cases r <;> rfl

theorem runOn_attempt (x : Exchange σ α) (l : Link σ) :
    (attempt x).runOn l = (.ok (x.runOn l).1, (x.runOn l).2) := by
  simp only [attempt, runOn_tryCatch, runOn_bind]
  rcases x.runOn l with ⟨r, l'⟩
  cases r <;> rfl

def require (holds : Bool) (f : Fault) : Exchange σ Unit := if holds then pure () else throw f

theorem throw_bind (f : Fault) (g : α → Exchange σ β) :
    ((throw f : Exchange σ α) >>= g) = throw f := rfl

theorem require_bind (holds : Bool) (f : Fault) (g : Unit → Exchange σ α) :
    (require holds f >>= g) = if holds = true then g () else throw f := by
  cases holds <;> rfl

theorem throw_if_not (holds : Bool) (f : Fault) (x : Exchange σ α) :
    (if (!holds) = true then throw f else x) = if holds = true then x else throw f := by
  cases holds <;> rfl

/-- The words for a failure of the database are the only thing that reporting changes. -/
theorem runOn_reporting (task : FailedTask) (x : Exchange σ α) (l : Link σ) :
    (reporting task x).runOn l =
      ((x.runOn l).1.mapError fun f => if f = .database then .refused (.failed task) else f,
        (x.runOn l).2) := by
  simp only [reporting, runOn_tryCatch]
  rcases x.runOn l with ⟨r, l'⟩
  cases r with
  | ok a => rfl
  | error f => cases f <;> rfl

theorem reporting_throw (task : FailedTask) (f : Fault) :
    (reporting task (throw f) : Exchange σ α) =
      throw (if f = .database then .refused (.failed task) else f) := by
  cases f <;> rfl

theorem runOn_note (e : Event) (l : Link σ) :
    (note e).runOn l = (.ok (), { l with trace := e :: l.trace }) := rfl

theorem runOn_usePool (name : String) (l : Link σ) :
    (usePool name).runOn l =
      match l.pools.opened.get? name, l.pools.addresses.get? name with
      | some _, _ => (.ok (), l)
      | none, none => (.error (.refused (.databaseNotFound name)), l)
      | none, some _ =>
          (.ok (), { l with pools := { l.pools with opened := l.pools.opened ++ [(name, ())] } }) := by
  simp only [usePool, Pools.get, runOn_bind, runOn_get, runOn_set]
  cases l.pools.opened.get? name <;> cases l.pools.addresses.get? name <;> rfl

section Calls

variable [Server σ]

theorem runOn_ask (c : Call) (l : Link σ) :
    (ask c).runOn l =
      ((Server.answer l.server c).1.elim (.error .database) .ok,
        { l with server := (Server.answer l.server c).2 }) := by
  simp only [ask, runOn_bind, runOn_get, runOn_set]
  cases (Server.answer l.server c).1 <;> rfl

end Calls

end TableSteward.Exchange

namespace TableSteward.Action

variable {σ α β : Type}

def runOn (x : Action σ α) (s : Service σ) : Result α × Service σ := x.run.run s

@[simp] theorem runOn_pure (a : α) (s : Service σ) : runOn (pure a : Action σ α) s = (.ok a, s) := rfl

@[simp] theorem runOn_throw (f : Fault) (s : Service σ) :
    runOn (throw f : Action σ α) s = (.error f, s) := rfl

@[simp] theorem runOn_refused (r : Refusal) (s : Service σ) :
    runOn (refused r : Action σ α) s = (.error (.refused r), s) := rfl

@[simp] theorem runOn_get (s : Service σ) : runOn (get : Action σ (Service σ)) s = (.ok s, s) := rfl

@[simp] theorem runOn_set (t s : Service σ) : runOn (set t : Action σ PUnit) s = (.ok ⟨⟩, t) := rfl

@[simp] theorem runOn_modify (f : Service σ → Service σ) (s : Service σ) :
    runOn (modify f : Action σ PUnit) s = (.ok ⟨⟩, f s) := rfl

@[simp] theorem runOn_lift (r : Result α) (s : Service σ) : runOn (lift r : Action σ α) s = (r, s) := by
  cases r <;> rfl

@[simp] theorem runOn_onLink (x : Exchange σ α) (s : Service σ) :
    runOn (onLink x) s = ((x.runOn s.link).1, { s with link := (x.runOn s.link).2 }) := rfl

@[simp] theorem runOn_bind (x : Action σ α) (g : α → Action σ β) (s : Service σ) :
    runOn (x >>= g) s =
      match x.runOn s with
      | (.ok a, t) => (g a).runOn t
      | (.error f, t) => (.error f, t) := by
  simp only [runOn, ExceptT.run_bind, StateT.run_bind]
  rcases StateT.run (ExceptT.run x) s with ⟨r, t⟩
  cases r <;> rfl

@[simp] theorem runOn_freshId (s : Service σ) :
    runOn (freshId : Action σ String) s =
      (.ok ("id" ++ toString (s.ids + 1)), { s with ids := s.ids + 1 }) := rfl

end TableSteward.Action

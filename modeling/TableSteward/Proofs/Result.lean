import Mathlib.Data.List.Forall2
import TableSteward.Fault

/-!
# Results of steps and of lists

What it means for a computation that may end in a fault to have a value: each of its steps had one, and so had
each item of a list that was computed item by item.  Its fault is that of its first step or item without one.
-/
set_option autoImplicit false

namespace TableSteward

theorem exists_of_mem_left {α β : Type} {R : α → β → Prop} {xs : List α} {ys : List β}
    (h : List.Forall₂ R xs ys) : ∀ x ∈ xs, ∃ y ∈ ys, R x y := by
  induction h with
  | nil => intro x hx; cases hx
  | cons hxy _ ih =>
      intro x hx
      rcases List.mem_cons.mp hx with rfl | hx
      · exact ⟨_, List.mem_cons_self .., hxy⟩
      · obtain ⟨y, hy, h⟩ := ih x hx
        exact ⟨y, List.mem_cons_of_mem _ hy, h⟩

namespace Result

variable {α β : Type}

theorem ok_bind (a : α) (f : α → Result β) : (Except.ok a : Result α) >>= f = f a := rfl

theorem of_bind_ok {x : Result α} {f : α → Result β} {b : β} (h : x >>= f = .ok b) :
    ∃ a, x = .ok a ∧ f a = .ok b := by
  cases x with
  | ok a => exact ⟨a, rfl, h⟩
  | error f => exact nomatch h

theorem of_mapError_ok {f : Fault → Fault} {r : Result α} {a : α} (h : r.mapError f = .ok a) :
    r = .ok a := by
  cases r with
  | error _ => exact nomatch h
  | ok _ => exact h

theorem map_injective {f : α → β} (hf : Function.Injective f) :
    Function.Injective (Except.map f : Result α → Result β) := by
  intro r r' h
  cases r <;> cases r'
  · exact congrArg Except.error (Except.error.inj h)
  · exact nomatch h
  · exact nomatch h
  · exact congrArg Except.ok (hf (Except.ok.inj h))

theorem forall₂_of_mapM_ok {f : α → Result β} :
    ∀ {xs : List α} {ys : List β}, xs.mapM f = .ok ys → List.Forall₂ (fun x y => f x = .ok y) xs ys := by
  intro xs
  induction xs with
  | nil =>
      rintro ys ⟨⟩
      exact .nil
  | cons x rest ih =>
      intro ys h
      rw [List.mapM_cons] at h
      obtain ⟨y, hy, h⟩ := of_bind_ok h
      obtain ⟨others, hothers, h⟩ := of_bind_ok h
      obtain rfl : y :: others = ys := by cases h; rfl
      exact .cons hy (ih hothers)

theorem mapM_of_forall₂ {f : α → Result β} {xs : List α} {ys : List β}
    (h : List.Forall₂ (fun x y => f x = .ok y) xs ys) : xs.mapM f = .ok ys := by
  induction h with
  | nil => rfl
  | cons hxy _ ih =>
      rw [List.mapM_cons, hxy, ih]
      rfl

theorem mapM_ok_of_forall {f : α → Result β} {xs : List α} (h : ∀ x ∈ xs, ∃ y, f x = .ok y) :
    ∃ ys, xs.mapM f = .ok ys := by
  induction xs with
  | nil => exact ⟨[], rfl⟩
  | cons x rest ih =>
      obtain ⟨y, hy⟩ := h x (List.mem_cons_self ..)
      obtain ⟨ys, hys⟩ := ih fun x hx => h x (List.mem_cons_of_mem _ hx)
      refine ⟨y :: ys, ?_⟩
      rw [List.mapM_cons, hy, hys]
      rfl

theorem origin_of_mapM_ok {f : α → Result β} {xs : List α} {ys : List β} (h : xs.mapM f = .ok ys) :
    ∀ y ∈ ys, ∃ x ∈ xs, f x = .ok y :=
  exists_of_mem_left (forall₂_of_mapM_ok h).flip

theorem bind_error_iff {x : Result α} {f : α → Result β} {e : Fault} :
    x >>= f = .error e ↔ x = .error e ∨ ∃ a, x = .ok a ∧ f a = .error e := by
  cases x with
  | error e' => simp [bind, Except.bind]
  | ok a => simp [bind, Except.bind]

theorem bind_ok_iff {x : Result α} {f : α → Result β} {b : β} :
    x >>= f = .ok b ↔ ∃ a, x = .ok a ∧ f a = .ok b := by
  constructor
  · exact of_bind_ok
  · rintro ⟨a, rfl, h⟩
    exact h

/-- A computation with one fault only has that fault unless it has a value. -/
theorem error_iff_of_cases {x : Result α} {fault e : Fault} (h : (∃ a, x = .ok a) ∨ x = .error fault) :
    x = .error e ↔ (∀ a, x ≠ .ok a) ∧ e = fault := by
  rcases h with ⟨a, rfl⟩ | rfl
  · simp
  · simp [eq_comm]

theorem mapM_append_ok_iff {f : α → Result β} {xs ys : List α} {zs : List β} :
    (xs ++ ys).mapM f = .ok zs ↔ ∃ as bs, xs.mapM f = .ok as ∧ ys.mapM f = .ok bs ∧ zs = as ++ bs := by
  rw [List.mapM_append, bind_ok_iff]
  constructor
  · rintro ⟨as, has, h⟩
    obtain ⟨bs, hbs, h⟩ := of_bind_ok h
    exact ⟨as, bs, has, hbs, (Except.ok.inj h).symm⟩
  · rintro ⟨as, bs, has, hbs, rfl⟩
    exact ⟨as, has, by rw [hbs]; rfl⟩

/-- The fault of a list is that of its first item without a value. -/
theorem mapM_error_iff {f : α → Result β} {xs : List α} {e : Fault} :
    xs.mapM f = .error e ↔
      ∃ before x after, xs = before ++ x :: after ∧ (∃ ys, before.mapM f = .ok ys) ∧ f x = .error e := by
  constructor
  · intro h
    induction xs with
    | nil => cases h
    | cons x rest ih =>
        rw [List.mapM_cons, bind_error_iff] at h
        rcases h with hx | ⟨y, hy, h⟩
        · exact ⟨[], x, rest, rfl, ⟨[], rfl⟩, hx⟩
        · rcases bind_error_iff.mp h with hrest | ⟨ys, -, h⟩
          · obtain ⟨before, x', after, rfl, ⟨ys, hys⟩, hx'⟩ := ih hrest
            refine ⟨x :: before, x', after, rfl, ⟨y :: ys, ?_⟩, hx'⟩
            rw [List.mapM_cons, hy, hys]
            rfl
          · cases h
  · rintro ⟨before, x, after, rfl, ⟨ys, hys⟩, hx⟩
    rw [List.mapM_append, hys, List.mapM_cons, hx]
    rfl

end Result

end TableSteward

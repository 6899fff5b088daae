import TableSteward.Proofs.Sending
import TableSteward.Proofs.Versions

/-!
# Runs abreast

Two runs that begin on the same link keep in step as long as they do the same: they hear the same answers, and they go
on from the same link.  Once they have sent different values, nothing is known of what they hear, and one of them may
have to stop before the other.  `Abreast` is the judgement about two such runs: the queries that both of them get to
send are in the same words, and a run that is answered sends no fewer than the other.
-/
set_option autoImplicit false

namespace TableSteward

/-! ## Queries side by side -/

/-- Queries in the same words as far as both lists go; a list that is done is no shorter than the other. -/
structure Alongside (done done' : Prop) (xs ys : List Statement) : Prop where
  words : ∀ (i : Nat) (s t : Statement), xs[i]? = some s → ys[i]? = some t → s.SameWords t
  left : done → ys.length ≤ xs.length
  right : done' → xs.length ≤ ys.length

namespace Statement.SameWords

theorem refl (s : Statement) : s.SameWords s := ⟨fun _ => rfl, rfl⟩

theorem symm {s t : Statement} (h : s.SameWords t) : t.SameWords s :=
  ⟨fun w => (h.text w).symm, h.keys.symm⟩

end Statement.SameWords

namespace Alongside

variable {done done' : Prop} {xs ys later : List Statement}

theorem refl (xs : List Statement) : Alongside done done' xs xs := by
  refine ⟨?_, fun _ => Nat.le_refl _, fun _ => Nat.le_refl _⟩
  intro i s t hs ht
  obtain rfl : s = t := Option.some.inj (hs.symm.trans ht)
  exact .refl s

theorem symm (h : Alongside done done' xs ys) : Alongside done' done ys xs :=
  ⟨fun i s t hs ht => (h.words i t s ht hs).symm, h.right, h.left⟩

theorem imp {now now' : Prop} (h : Alongside done done' xs ys) (hleft : now → done) (hright : now' → done') :
    Alongside now now' xs ys :=
  ⟨h.words, fun hnow => h.left (hleft hnow), fun hnow => h.right (hright hnow)⟩

/-- A run that has stopped is behind one that goes on. -/
theorem append_right {stopped on : Prop} (h : Alongside done done' xs ys) (hdone' : done') (hstopped : ¬ stopped) :
    Alongside stopped on xs (ys ++ later) := by
  have hlength := h.right hdone'
  refine ⟨?_, fun h => absurd h hstopped, fun _ => ?_⟩
  · intro i s t hs ht
    have hi : i < ys.length := Nat.lt_of_lt_of_le (List.getElem?_eq_some_iff.mp hs).1 hlength
    rw [List.getElem?_append_left hi] at ht
    exact h.words i s t hs ht
  · rw [List.length_append]
    omega

theorem append {xs' ys' : List Statement} {finished finished' : Prop} (h : Alongside done done' xs ys)
    (hdone : done) (hdone' : done') (h' : Alongside finished finished' xs' ys') :
    Alongside finished finished' (xs ++ xs') (ys ++ ys') := by
  have hlength : xs.length = ys.length := Nat.le_antisymm (h.right hdone') (h.left hdone)
  refine ⟨?_, fun hfinished => ?_, fun hfinished => ?_⟩
  · intro i s t hs ht
    rcases Nat.lt_or_ge i xs.length with hi | hi
    · rw [List.getElem?_append_left hi] at hs
      rw [List.getElem?_append_left (hlength ▸ hi)] at ht
      exact h.words i s t hs ht
    · rw [List.getElem?_append_right hi] at hs
      rw [List.getElem?_append_right (hlength ▸ hi), ← hlength] at ht
      exact h'.words _ s t hs ht
  · have hrest := h'.left hfinished
    rw [List.length_append, List.length_append]
    omega
  · have hrest := h'.right hfinished
    rw [List.length_append, List.length_append]
    omega

end Alongside

/-- An outcome that is a value of this kind. -/
def Result.Is {α : Type} (whole : α → Prop) (r : Result α) : Prop := ∃ a, r = .ok a ∧ whole a

/-- What is sent is the beginning of a list of this kind, and all of it if the outcome is whole. -/
def Follows {α : Type} (whole : α → Prop) (S : List Statement → Prop) (r : Result α) (sent : List Statement) :
    Prop :=
  ∃ script, S script ∧ sent <+: script ∧ (r.Is whole → sent = script)

def anyValue {α : Type} : α → Prop := fun _ => True

theorem is_anyValue {α : Type} (a : α) : Result.Is anyValue (.ok a) := ⟨a, rfl, trivial⟩

theorem not_is_error {α : Type} {whole : α → Prop} (f : Fault) : ¬ Result.Is whole (.error f) :=
  fun ⟨_, h, _⟩ => nomatch h

namespace Follows

variable {α β : Type} {whole : α → Prop} {S S' : List Statement → Prop} {r r' : Result α}
  {sent sent' : List Statement}

theorem all (h : S sent) : Follows whole S r sent := ⟨sent, h, List.prefix_refl _, fun _ => rfl⟩

/-- After a fault nothing more is sent. -/
theorem stopped {script : List Statement} (f : Fault) (hscript : S script) (hsent : sent <+: script) :
    Follows whole S (.error f) sent :=
  ⟨script, hscript, hsent, fun h => absurd h (not_is_error f)⟩

theorem of_ok {a : α} {r : Result β} {whole' : β → Prop} (h : Follows anyValue S (.ok a) sent) :
    Follows whole' S r sent := by
  obtain ⟨script, hscript, -, hall⟩ := h
  obtain rfl := hall (is_anyValue a)
  exact all hscript

end Follows

namespace Exchange

variable {σ α β : Type}

/-- From one link, two computations that are both answered end on one link, with related values. -/
def InStep (x y : Exchange σ α) (R : α → α → Prop) : Prop :=
  ∀ l a b m n, x.runOn l = (.ok a, m) → y.runOn l = (.ok b, n) → R a b ∧ m = n

theorem inStep_refl (x : Exchange σ α) : InStep x x Eq := by
  intro l a b m n hx hy
  rw [hx] at hy
  cases hy
  exact ⟨rfl, rfl⟩

theorem InStep.bind {x y : Exchange σ α} {k k' : α → Exchange σ β} {R : α → α → Prop} {T : β → β → Prop}
    (h : InStep x y R) (hk : ∀ a b, R a b → InStep (k a) (k' b) T) : InStep (x >>= k) (y >>= k') T := by
  intro l u v m n hx hy
  obtain ⟨a, l', hrun, hrest⟩ := of_runOn_bind hx
  obtain ⟨b, m', hrun', hrest'⟩ := of_runOn_bind hy
  obtain ⟨hab, rfl⟩ := h l a b l' m' hrun hrun'
  exact hk a b hab l' u v m n hrest hrest'

/-- What both do alike comes to one value. -/
theorem InStep.same {x : Exchange σ α} {k k' : α → Exchange σ β} {T : β → β → Prop}
    (hk : ∀ a, InStep (k a) (k' a) T) : InStep (x >>= k) (x >>= k') T := by
  refine (inStep_refl x).bind ?_
  rintro a _ rfl
  exact hk a

/-! ## Abreast -/

/-- From one link, two computations send queries alongside each other, and their values are related if both are
answered. -/
def Abreast (whole : α → Prop) (x y : Exchange (Journal σ) α) (R : α → α → Prop) : Prop :=
  ∀ l, ∃ xs ys, queries (x.runOn l).2.server.entries = queries l.server.entries ++ xs ∧
    queries (y.runOn l).2.server.entries = queries l.server.entries ++ ys ∧
    Alongside ((x.runOn l).1.Is whole) ((y.runOn l).1.Is whole) xs ys ∧
    ∀ a b, (x.runOn l).1 = .ok a → (y.runOn l).1 = .ok b → R a b

/-- Once two runs have parted, each goes on by itself, so their further queries are compared by what each of them
may send. -/
theorem Abreast.bind {x y : Exchange (Journal σ) α} {k k' : α → Exchange (Journal σ) β} {R : α → α → Prop}
    {T : β → β → Prop} {whole : β → Prop} {C C' : α → Result β → List Statement → Prop}
    (h : Abreast anyValue x y R) (hk : ∀ a, Sends (k a) (C a)) (hk' : ∀ a, Sends (k' a) (C' a))
    (hmeet : ∀ a b, R a b → ∀ r r' later later', C a r later → C' b r' later' →
      Alongside (r.Is whole) (r'.Is whole) later later' ∧ ∀ u v, r = .ok u → r' = .ok v → T u v) :
    Abreast whole (x >>= k) (y >>= k') T := by
  intro l
  obtain ⟨xs, ys, hxs, hys, halong, hvalues⟩ := h l
  rw [runOn_bind, runOn_bind]
  rcases hrun : x.runOn l with ⟨r, m⟩
  rcases hrun' : y.runOn l with ⟨r', n⟩
  rw [hrun] at hxs halong hvalues
  rw [hrun'] at hys halong hvalues
  cases r with
  | error f =>
      cases r' with
      | error g =>
          refine ⟨xs, ys, hxs, hys, ⟨halong.words, ?_, ?_⟩, fun _ _ h => nomatch h⟩
          · exact fun h => absurd h (not_is_error f)
          · exact fun h => absurd h (not_is_error g)
      | ok b =>
          obtain ⟨later, hlater, -⟩ := hk' b n
          refine ⟨xs, ys ++ later, hxs, ?_, ?_, fun _ _ h => nomatch h⟩
          · rw [← List.append_assoc, ← hys]
            exact hlater
          · exact halong.append_right (is_anyValue b) (not_is_error f)
  | ok a =>
      obtain ⟨later, hlater, hC⟩ := hk a m
      have hxs' : queries ((k a).runOn m).2.server.entries = queries l.server.entries ++ (xs ++ later) := by
        rw [← List.append_assoc, ← hxs]
        exact hlater
      cases r' with
      | error g =>
          refine ⟨xs ++ later, ys, hxs', hys, ?_, fun _ _ _ h => nomatch h⟩
          exact (halong.symm.append_right (is_anyValue a) (not_is_error g)).symm
      | ok b =>
          obtain ⟨later', hlater', hC'⟩ := hk' b n
          obtain ⟨halong', hvalues'⟩ := hmeet a b (hvalues a b rfl rfl) _ _ _ _ hC hC'
          refine ⟨xs ++ later, ys ++ later', hxs', ?_, ?_, hvalues'⟩
          · rw [← List.append_assoc, ← hys]
            exact hlater'
          · exact halong.append (is_anyValue a) (is_anyValue b) halong'

/-- What both do alike before the first query comes to the same in both. -/
theorem Abreast.same {x : Exchange (Journal σ) α} {k k' : α → Exchange (Journal σ) β} {T : β → β → Prop}
    {whole : β → Prop} (hx : Silent x) (hk : ∀ a, Abreast whole (k a) (k' a) T) :
    Abreast whole (x >>= k) (x >>= k') T := by
  intro l
  obtain ⟨_, hsent, rfl⟩ := hx l
  rw [runOn_bind, runOn_bind]
  rcases hrun : x.runOn l with ⟨f | a, m⟩
  · rw [hrun] at hsent
    exact ⟨[], [], hsent, hsent, .refl [], fun _ _ h => nomatch h⟩
  · rw [hrun, List.append_nil] at hsent
    have hrest := hk a m
    rw [hsent] at hrest
    exact hrest

/-- What follows the last query may at most lose the answer. -/
theorem Abreast.andThen {x y : Exchange (Journal σ) α} {k k' : α → Exchange (Journal σ) β} {R : α → α → Prop}
    (h : Abreast anyValue x y R) (hk : ∀ a, Silent (k a)) (hk' : ∀ a, Silent (k' a)) :
    Abreast anyValue (x >>= k) (y >>= k') fun _ _ => True := by
  refine h.bind hk hk' ?_
  rintro _ _ _ _ _ _ _ rfl rfl
  exact ⟨.refl [], fun _ _ _ _ => trivial⟩

theorem Abreast.narrow {x y : Exchange (Journal σ) α} {R : α → α → Prop} (h : Abreast anyValue x y R)
    (whole : α → Prop) : Abreast whole x y R := by
  intro l
  obtain ⟨xs, ys, hxs, hys, halong, hvalues⟩ := h l
  have his : ∀ r : Result α, r.Is whole → r.Is anyValue := fun _ ⟨a, ha, _⟩ => ⟨a, ha, trivial⟩
  exact ⟨xs, ys, hxs, hys, halong.imp (his _) (his _), hvalues⟩

/-- The first computation does what the second does and then sends nothing more, and it has no other value. -/
def Shields (x' x : Exchange (Journal σ) α) : Prop :=
  ∀ l, queries (x'.runOn l).2.server.entries = queries (x.runOn l).2.server.entries ∧
    ∀ a, (x'.runOn l).1 = .ok a → (x.runOn l).1 = .ok a

theorem Shields.is {x' x : Exchange (Journal σ) α} (h : Shields x' x) {whole : α → Prop} (l : Link (Journal σ))
    (hwhole : (x'.runOn l).1.Is whole) : (x.runOn l).1.Is whole := by
  obtain ⟨a, ha, hwhole⟩ := hwhole
  exact ⟨a, (h l).2 a ha, hwhole⟩

section Calls

variable [Server σ] {R : α → α → Prop} {whole : α → Prop}

end Calls

end Exchange

end TableSteward

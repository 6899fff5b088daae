import TableSteward.Proofs.Dialogue
import TableSteward.Proofs.Effects
import TableSteward.Proofs.Pairing
import TableSteward.Proofs.ReadOnly

/-!
# Mirrored runs

Two runs of one computation may differ in what becomes of the audit rows, and therefore in the numbers of the connections
that are opened later.  A connection to a browsed database has its counterpart in the other run, and both runs are told
the same on the two.  `Mirrors` is the judgement about two such computations: they come to related outcomes, and whatever
they have opened has its counterpart.
-/
set_option autoImplicit false

namespace TableSteward

/-- Connections of one run with their counterparts in another. -/
abbrev Counterparts := List (Connection × Connection)

/-- What is asked on a connection that is there. -/
inductive Talk
  | begin
  | execute (s : Statement)
  | commit
  | rollback

def Talk.on (c : Connection) : Talk → Call
  | begin => .begin c
  | execute s => .execute c s
  | commit => .commit c
  | rollback => .rollback c

/-- The calls with which an audit row is written. -/
def Call.IsAudit : Call → Prop
  | connect c | commit c | execute c (.recordAudit _) => c.site = .application
  | _ => False

/-- The browsed databases know nothing of audit rows, and nothing of how connections are numbered: related servers answer
alike on counterparts, and they stay related whatever becomes of the audit rows on either side. -/
structure Server.Separates {σ : Type} [Server σ] (R : Counterparts → σ → σ → Prop) : Prop where
  connect : ∀ {ps s t}, R ps s t → ∀ {c d name}, c.site = .browsed name → d.site = .browsed name →
    (∀ p ∈ ps, p.1 ≠ c ∧ p.2 ≠ d) →
    (Server.answer s (.connect c)).1 = (Server.answer t (.connect d)).1 ∧
      R ((Server.answer s (.connect c)).1.elim ps fun _ => (c, d) :: ps)
        (Server.answer s (.connect c)).2 (Server.answer t (.connect d)).2
  talk : ∀ {ps s t}, R ps s t → ∀ {c d}, (c, d) ∈ ps → ∀ k : Talk,
    (Server.answer s (k.on c)).1 = (Server.answer t (k.on d)).1 ∧
      R ps (Server.answer s (k.on c)).2 (Server.answer t (k.on d)).2
  left : ∀ {ps s t}, R ps s t → ∀ call : Call, call.IsAudit → R ps (Server.answer s call).2 t
  right : ∀ {ps s t}, R ps s t → ∀ call : Call, call.IsAudit → R ps s (Server.answer t call).2

/-- Two links that differ in their servers, which are related, and in how many connections there have been. -/
structure Link.Matches {σ : Type} (R : Counterparts → σ → σ → Prop) (ps : Counterparts) (l m : Link σ) : Prop where
  servers : R ps l.server m.server
  pools : l.pools = m.pools
  numbers : ∀ p ∈ ps, p.1.number ≤ l.connections ∧ p.2.number ≤ m.connections

namespace Exchange

variable {σ α β γ δ : Type} {R : Counterparts → σ → σ → Prop} {ps : Counterparts}

def Mirrors (R : Counterparts → σ → σ → Prop) (ps : Counterparts) (x : Exchange σ α) (y : Exchange σ β)
    (V : Counterparts → α → β → Prop) : Prop :=
  ∀ l m, l.Matches R ps m → ∃ qs, ps ⊆ qs ∧ (x.runOn l).2.Matches R qs (y.runOn m).2 ∧
    Outcomes (V qs) (x.runOn l).1 (y.runOn m).1

/-- The same outcome on both sides. -/
abbrev Agree (R : Counterparts → σ → σ → Prop) (ps : Counterparts) (x y : Exchange σ α) : Prop :=
  Mirrors R ps x y fun _ => Eq

theorem outcomes_self (r : Result α) : Outcomes Eq r r := by
  cases r with
  | ok a => exact .ok rfl
  | error f => exact .error f

theorem eq_of_outcomes {r r' : Result α} (h : Outcomes Eq r r') : r = r' := by
  cases h with
  | ok hab => rw [hab]
  | error f => rfl

/-! ## Sequences -/

section Sequences

variable {V : Counterparts → α → β → Prop} {W : Counterparts → γ → δ → Prop} {x : Exchange σ α} {y : Exchange σ β}

theorem Mirrors.weaken {V' : Counterparts → α → β → Prop} (h : Mirrors R ps x y V)
    (hV : ∀ qs a b, V qs a b → V' qs a b) : Mirrors R ps x y V' := by
  intro l m hlm
  obtain ⟨qs, hqs, hmatch, hout⟩ := h l m hlm
  exact ⟨qs, hqs, hmatch, hout.imp (hV qs)⟩

theorem mirrors_pure {a : α} {b : β} (h : V ps a b) : Mirrors R ps (pure a) (pure b) V :=
  fun _ _ hlm => ⟨ps, List.Subset.refl ps, hlm, .ok h⟩

theorem mirrors_throw (f : Fault) : Mirrors R ps (throw f) (throw f) V :=
  fun _ _ hlm => ⟨ps, List.Subset.refl ps, hlm, .error f⟩

theorem mirrors_outcome {r : Result α} {r' : Result β} (h : Outcomes (V ps) r r') : Mirrors R ps (lift r) (lift r') V := by
  cases h with
  | ok hab => exact mirrors_pure hab
  | error f => exact mirrors_throw f

theorem agree_lift (r : Result α) : Agree R ps (lift r) (lift r) := mirrors_outcome (outcomes_self r)

theorem Mirrors.bind {k : α → Exchange σ γ} {k' : β → Exchange σ δ} (hx : Mirrors R ps x y V)
    (hk : ∀ a b qs, ps ⊆ qs → V qs a b → Mirrors R qs (k a) (k' b) W) : Mirrors R ps (x >>= k) (y >>= k') W := by
  intro l m hlm
  obtain ⟨qs, hqs, hmatch, hout⟩ := hx l m hlm
  rw [runOn_bind, runOn_bind]
  rcases hrun : x.runOn l with ⟨r, l'⟩
  rcases hrun' : y.runOn m with ⟨r', m'⟩
  rw [hrun, hrun'] at hmatch hout
  cases hout with
  | error f => exact ⟨qs, hqs, hmatch, .error f⟩
  | ok hab =>
      obtain ⟨rs, hrs, hmatch', hout'⟩ := hk _ _ qs hqs hab l' m' hmatch
      exact ⟨rs, List.Subset.trans hqs hrs, hmatch', hout'⟩

theorem agree_bind {x y : Exchange σ α} {k k' : α → Exchange σ γ} (hx : Agree R ps x y)
    (hk : ∀ a qs, ps ⊆ qs → Agree R qs (k a) (k' a)) : Agree R ps (x >>= k) (y >>= k') :=
  hx.bind fun a _ qs hqs hab => hab ▸ hk a qs hqs

theorem mirrors_attempt (hx : Mirrors R ps x y V) :
    Mirrors R ps (attempt x) (attempt y) fun qs r r' => Outcomes (V qs) r r' := by
  intro l m hlm
  obtain ⟨qs, hqs, hmatch, hout⟩ := hx l m hlm
  rw [runOn_attempt, runOn_attempt]
  exact ⟨qs, hqs, hmatch, .ok hout⟩

theorem mirrors_discard (hx : Mirrors R ps x y V) : Agree R ps (discard x) (discard y) := by
  intro l m hlm
  obtain ⟨qs, hqs, hmatch, hout⟩ := hx l m hlm
  rw [runOn_discard, runOn_discard]
  refine ⟨qs, hqs, hmatch, ?_⟩
  rcases hrun : x.runOn l with ⟨r, l'⟩
  rcases hrun' : y.runOn m with ⟨r', m'⟩
  rw [hrun, hrun'] at hout
  cases hout with
  | ok hab => exact .ok rfl
  | error f => exact .error f

theorem mirrors_reporting (task : FailedTask) (hx : Mirrors R ps x y V) :
    Mirrors R ps (reporting task x) (reporting task y) V := by
  intro l m hlm
  obtain ⟨qs, hqs, hmatch, hout⟩ := hx l m hlm
  rw [runOn_reporting, runOn_reporting]
  refine ⟨qs, hqs, hmatch, ?_⟩
  rcases hrun : x.runOn l with ⟨r, l'⟩
  rcases hrun' : y.runOn m with ⟨r', m'⟩
  rw [hrun, hrun'] at hout
  cases hout with
  | ok hab => exact .ok hab
  | error f => exact .error _

/-- Nobody is told of the trace. -/
theorem agree_note (e e' : Event) : Agree R ps (note e) (note e') := fun _ _ hlm =>
  ⟨ps, List.Subset.refl ps, ⟨hlm.servers, hlm.pools, hlm.numbers⟩, .ok rfl⟩

theorem agree_usePool (name : String) : Agree R ps (usePool name : Exchange σ Unit) (usePool name) := by
  intro l m hlm
  refine ⟨ps, List.Subset.refl ps, ?_⟩
  rw [runOn_usePool, runOn_usePool, hlm.pools]
  split
  · exact ⟨⟨hlm.servers, hlm.pools, hlm.numbers⟩, .ok rfl⟩
  · exact ⟨⟨hlm.servers, hlm.pools, hlm.numbers⟩, .error _⟩
  · exact ⟨⟨hlm.servers, rfl, hlm.numbers⟩, .ok rfl⟩

end Sequences

/-! ## Calls -/

section Calls

variable [Server σ]

theorem runOn_connect (site : Site) (l : Link σ) :
    (connect site).runOn l =
      match Server.answer l.server (.connect ⟨l.connections + 1, site⟩) with
      | (some _, s) => (.ok ⟨l.connections + 1, site⟩,
          { l with
            server := s
            connections := l.connections + 1
            trace := .connected ⟨l.connections + 1, site⟩ :: l.trace })
      | (none, s) => (.error .database, { l with server := s }) := by
  simp only [connect, runOn_bind, runOn_get, runOn_discard, runOn_ask]
  rcases Server.answer l.server (.connect ⟨l.connections + 1, site⟩) with ⟨_ | rows, s⟩ <;> rfl

variable (hR : Server.Separates R)

include hR

theorem agree_ask {c d : Connection} (h : (c, d) ∈ ps) (k : Talk) : Agree R ps (ask (k.on c)) (ask (k.on d)) := by
  intro l m hlm
  obtain ⟨hanswer, hservers⟩ := hR.talk hlm.servers h k
  rw [runOn_ask, runOn_ask, hanswer]
  exact ⟨ps, List.Subset.refl ps, ⟨hservers, hlm.pools, hlm.numbers⟩, outcomes_self _⟩

theorem mirrors_connect (name : String) :
    Mirrors R ps (connect (.browsed name)) (connect (.browsed name)) fun qs c d => (c, d) ∈ qs := by
  intro l m hlm
  have hfresh : ∀ p ∈ ps, p.1 ≠ ⟨l.connections + 1, .browsed name⟩ ∧ p.2 ≠ ⟨m.connections + 1, .browsed name⟩ := by
    intro p hp
    obtain ⟨hfirst, hsecond⟩ := hlm.numbers p hp
    refine ⟨fun h => ?_, fun h => ?_⟩
    · rw [h] at hfirst
      exact Nat.not_succ_le_self _ hfirst
    · rw [h] at hsecond
      exact Nat.not_succ_le_self _ hsecond
  obtain ⟨hanswer, hservers⟩ := hR.connect hlm.servers rfl rfl hfresh
  rw [runOn_connect, runOn_connect]
  rcases hs : Server.answer l.server (.connect ⟨l.connections + 1, .browsed name⟩) with ⟨answer, s⟩
  rcases ht : Server.answer m.server (.connect ⟨m.connections + 1, .browsed name⟩) with ⟨answer', t⟩
  rw [hs, ht] at hanswer hservers
  obtain rfl : answer = answer' := hanswer
  cases answer with
  | none => exact ⟨ps, List.Subset.refl ps, ⟨hservers, hlm.pools, hlm.numbers⟩, .error _⟩
  | some rows =>
      refine ⟨_ :: ps, List.subset_cons_self _ ps, ⟨hservers, hlm.pools, fun p hp => ?_⟩, .ok (List.mem_cons_self ..)⟩
      rcases List.mem_cons.mp hp with rfl | hp
      · exact ⟨Nat.le_refl _, Nat.le_refl _⟩
      · obtain ⟨hfirst, hsecond⟩ := hlm.numbers p hp
        exact ⟨Nat.le_succ_of_le hfirst, Nat.le_succ_of_le hsecond⟩

variable {c d : Connection} (h : (c, d) ∈ ps)

include h

theorem agree_execute (s : Statement) : Agree R ps (execute c s) (execute d s) :=
  agree_bind (agree_note _ _) fun _ _ hqs => agree_ask hR (hqs h) (.execute s)

theorem agree_begin : Agree R ps (begin c) (begin d) :=
  agree_bind (mirrors_discard (agree_ask hR h .begin)) fun _ _ _ => agree_note _ _

theorem agree_commit : Agree R ps (commit c) (commit d) :=
  agree_bind (mirrors_discard (agree_ask hR h .commit)) fun _ _ _ => agree_note _ _

theorem agree_rollback : Agree R ps (rollback c) (rollback d) :=
  agree_bind (mirrors_discard (agree_ask hR h .rollback)) fun _ _ _ => agree_note _ _

theorem agree_attempt_execute (s : Statement) : Agree R ps (attempt (execute c s)) (attempt (execute d s)) :=
  (mirrors_attempt (agree_execute hR h s)).weaken fun _ _ _ hout => eq_of_outcomes hout

theorem agree_dialogue (t : Dialogue α) : Agree R ps (t.on c) (t.on d) := by
  induction t generalizing ps with
  | done r => exact agree_lift r
  | ask s next ih =>
      exact agree_bind (agree_attempt_execute hR h s) fun answer _ hqs => ih answer.toOption (hqs h)

theorem agree_ending (r : Result α) : Agree R ps (ending c r) (ending d r) := by
  cases r with
  | ok a => exact agree_bind (agree_commit hR h) fun _ _ _ => mirrors_pure rfl
  | error f => exact agree_bind (agree_rollback hR h) fun _ _ _ => mirrors_throw f

theorem agree_entering (milliseconds : Int) : Agree R ps (entering c milliseconds) (entering d milliseconds) :=
  agree_bind (mirrors_discard (agree_execute hR h .readOnly)) fun _ _ hqs =>
    mirrors_discard (agree_execute hR (hqs h) (.timeout milliseconds))

theorem agree_within (milliseconds : Int) (t : Dialogue α) :
    Agree R ps (within c milliseconds (t.on c)) (within d milliseconds (t.on d)) := by
  rw [within, within, inTransaction_eq, inTransaction_eq]
  refine agree_bind (agree_begin hR h) fun _ qs hqs => ?_
  have hentered : Agree R qs (do entering c milliseconds; t.on c) (do entering d milliseconds; t.on d) :=
    agree_bind (agree_entering hR (hqs h) milliseconds) fun _ _ hrs => agree_dialogue hR (hrs (hqs h)) t
  refine (mirrors_attempt hentered).bind fun r r' rs hrs hout => ?_
  obtain rfl := eq_of_outcomes hout
  exact agree_ending hR (hrs (hqs h)) r

omit h

/-- A block in which a dialogue is held. -/
theorem agree_readOnly (name : String) (timeout : Value) {body : Connection → Exchange σ α} {t : Dialogue α}
    (hbody : ∀ c, body c = t.on c) : Agree R ps (readOnly name timeout body) (readOnly name timeout body) := by
  rw [readOnly_eq]
  refine agree_bind (agree_usePool name) fun _ _ _ => ?_
  refine agree_bind (agree_lift _) fun milliseconds _ _ => mirrors_reporting _ ?_
  unfold onConnection
  refine (mirrors_connect hR name).bind fun c d qs _ hcd => ?_
  simp only [hbody]
  refine (mirrors_attempt (agree_within hR hcd milliseconds t)).bind fun r r' rs _ hout => ?_
  obtain rfl := eq_of_outcomes hout
  exact agree_bind (agree_note _ _) fun _ _ _ => agree_lift r

end Calls

end Exchange

end TableSteward

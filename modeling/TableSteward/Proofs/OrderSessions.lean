import TableSteward.Proofs.ConnectionLife
import TableSteward.Proofs.Floor

/-!
# The sessions of orders

An order comes to at most one read-only block, and what it does after that is none of the business of a browsed
database.  A stream that it begins has no connection yet.
-/
set_option autoImplicit false

namespace TableSteward

open Exchange

/-! ## After a block -/

theorem Sitting.map {α β : Type} {passes : Prop} {name : String} {r : Result α} {p : Trail}
    (h : Sitting passes name r p) (f : α → β) : Sitting passes name (r.map f) p := by
  cases h with
  | declined g => exact .declined g
  | unreached c hc => exact .unreached c hc
  | held c _ x y z answer xs hc hfailed =>
      have hok : r.isOk = (r.map f).isOk := by
        cases r <;> rfl
      rw [hok]
      refine .held c _ x y z answer xs hc fun hpasses hany => ?_
      rw [hfailed hpasses hany]
      rfl

/-- The outcome of an order that is answered with words for a failure of the database. -/
abbrev Unread {α : Type} (r : Result α) : Prop := r = .error (.refused (.failed .readRows))

/-- From every link the computation is one turn from nothing in hand to nothing in hand, which commits just if it comes
to a block and the block succeeds, and what is answered is as it should be. -/
def Sits {σ β : Type} (block : Option (Exchange (Journal σ) Unit)) (y : Exchange (Journal σ) β) (Q : β → Prop) : Prop :=
  ∀ l, ∃ p : Trail, p.Between l (y.runOn l).2 ∧
    p.Turn none none (∃ x, block = some x ∧ (x.runOn l).1.isOk = true) (Unread (y.runOn l).1) ∧
    ∀ b, (y.runOn l).1 = .ok b → Q b

section Sits

variable {σ α β γ : Type} {name : String} {Q : β → Prop} {R : γ → Prop}

theorem sits_lift (r : Result β) (h : ∀ b, r = .ok b → Q b) : Sits none (lift r : Exchange (Journal σ) β) Q := by
  intro l
  have hrun : (lift r : Exchange (Journal σ) β).runOn l = (r, l) := by
    cases r <;> rfl
  rw [hrun]
  exact ⟨{}, .refl l, (Trail.turn_of_at (Trail.about_empty _) _ _).mono (by simp) id, h⟩

theorem sits_of_sitting {x : Exchange (Journal σ) α} {k : α → Exchange (Journal σ) β}
    (hx : Has (trails σ) x (Sitting True name))
    (hk : ∀ a, Has (trails σ) (k a) fun r p => p.At .application ∧ ∀ b, r = .ok b → Q b) :
    Sits (some (discard x)) (x >>= k) Q := by
  intro l
  have hblock : (∃ y, some (discard x) = some y ∧ (y.runOn l).1.isOk = true) ↔ (x.runOn l).1.isOk = true := by
    simp only [Option.some.injEq, exists_eq_left', runOn_discard]
    cases (x.runOn l).1 <;> rfl
  obtain ⟨p, hp, hsitting⟩ := hx l
  rw [hblock, runOn_bind]
  rcases hrun : x.runOn l with ⟨r, m⟩
  rw [hrun] at hp hsitting
  cases r with
  | error f =>
      have hturn := hsitting.turn (Unread (.error f : Result β)) (Trail.about_empty _)
        (by rintro ⟨⟩; rfl)
      rw [Trail.append_empty] at hturn
      exact ⟨p, hp, hturn.mono Iff.rfl fun h => h trivial, fun _ h => nomatch h⟩
  | ok a =>
      obtain ⟨later, hq, hlater, hvalue⟩ := hk a m
      have hturn := hsitting.turn (Unread ((k a).runOn m).1) hlater fun h => nomatch h
      exact ⟨p ++ later, hp.trans hq, hturn.mono Iff.rfl fun h => h trivial, hvalue⟩

theorem Sits.bind_pure {block : Option (Exchange (Journal σ) Unit)} {y : Exchange (Journal σ) β} (h : Sits block y Q)
    (f : β → γ) (hf : ∀ b, Q b → R (f b)) : Sits block (do let b ← y; return f b) R := by
  intro l
  obtain ⟨p, hp, hturn, hvalue⟩ := h l
  rw [runOn_bind]
  rcases hrun : y.runOn l with ⟨r, m⟩
  rw [hrun] at hp hturn hvalue
  cases r with
  | error g =>
      exact ⟨p, hp, hturn.mono Iff.rfl fun h => congrArg _ (Except.error.inj h), fun _ h => nomatch h⟩
  | ok b =>
      refine ⟨p, hp, hturn.mono Iff.rfl fun h => (nomatch h), ?_⟩
      rintro _ ⟨⟩
      exact hf b (hvalue b rfl)

end Sits

/-- The computation leaves nothing behind. -/
theorem Exchange.has_lift_bind {σ α β : Type} {C : Result β → Trail → Prop} (r : Result α)
    {k : α → Exchange (Journal σ) β} (hok : ∀ a, r = .ok a → Has (trails σ) (k a) C)
    (herror : ∀ f, r = .error f → C (.error f) {}) : Has (trails σ) (lift r >>= k) C := by
  cases r with
  | ok a => exact hok a rfl
  | error f => exact has_throw (herror f rfl)

/-! ## Orders -/

/-- The read-only block of a report block; a text is shown as it is. -/
def Reporter.asked? {σ : Type} [Server σ] (p : Reporter) (r : Requester) (page : Value) :
    BlockConfig → Option (BlockSource × Exchange σ (JoinPlan × BlockAnswer))
  | .text _ => none
  | .table b => some (b.source, Exchange.readOnly b.source.database p.timeout fun c => do
      let plan ← p.plan r c b.source
      let answer ← p.runTable c plan b page
      return (plan, answer))
  | .chart b => some (b.source, Exchange.readOnly b.source.database p.timeout fun c => do
      let plan ← p.plan r c b.source
      let answer ← runChart c plan b
      return (plan, answer))
  | .metric b => some (b.source, Exchange.readOnly b.source.database p.timeout fun c => do
      let plan ← p.plan r c b.source
      let answer ← runMetric c plan b
      return (plan, answer))

/-- The read-only block of an order, if it comes to one. -/
def Order.block? {σ : Type} [Server σ] (s : Service σ) (r : Requester) : Order → Option (Exchange σ Unit)
  | .tables database => some (discard (Exchange.readOnly database s.browser.timeout fun c => Catalog.listTables c))
  | .columns database table => some (discard (s.browser.listColumns r database table))
  | .rows q page | .exportPage q page => some (discard (s.browser.fetchPage r q page))
  | .exportCheck q => some (discard (s.browser.prepareCount r { q with sort := [] }))
  | .exportAll q => some (discard (s.browser.prepareCount r q))
  | .block id page =>
      match s.blockConfig r id with
      | .ok config => (s.reporter.asked? r page config).map fun asked => discard asked.2
      | .error _ => none

/-- What an order begins, if it begins something, has nothing in hand. -/
def Fresh {σ : Type} (out : Reaction × Option (TextStream (Journal σ))) : Prop :=
  ∀ s, out.2 = some s → s.Sound ∧ s.hand = none

theorem fresh_none {σ : Type} (a : Reaction) : Fresh (σ := σ) (a, none) := fun _ h => nomatch h

section Orders

variable {σ : Type} [Server σ] (hworks : Server.TransactionsWork σ)

include hworks

theorem sitting_of_dialogue {α : Type} (name : String) (timeout : Value) {body : Connection → Exchange (Journal σ) α}
    (h : IsDialogue body) : Has (trails σ) (readOnly name timeout body) (Sitting True name) := by
  obtain ⟨d, hpasses, hbody⟩ := h
  refine trails_readOnly hworks name timeout fun c => ?_
  rw [hbody]
  refine (trails_dialogue c hpasses).weaken ?_
  rintro r p ⟨xs, hp, hfailed⟩
  exact ⟨xs, hp, fun _ => hfailed⟩

/-- An answer is given when its row has been filed. -/
theorem has_filed {β : Type} {Q : β → Prop} (e : AuditEntry) (answer : β) (h : Q answer) :
    Has (trails σ) (do Audit.record e; return answer) fun r p => p.At .application ∧ ∀ b, r = .ok b → Q b := by
  refine (Audit.trails_record hworks e).bind ?_ fun _ _ h => nomatch h.1
  rintro _ p ⟨-, hp⟩
  refine has_pure ⟨hp.append (Trail.about_empty _), ?_⟩
  rintro _ ⟨⟩
  exact h

namespace Browser

variable (b : Browser) (r : Requester) (q : TableRequest) (page : Value)

theorem sitting_fetchPage : Has (trails σ) (b.fetchPage r q page) (Sitting True q.database) :=
  sitting_of_dialogue hworks q.database b.timeout (b.isDialogue_page r q page)

theorem sitting_prepareCount : Has (trails σ) (b.prepareCount r q) (Sitting True q.database) :=
  sitting_of_dialogue hworks q.database b.timeout (b.isDialogue_count r q)

theorem sits_fetchRows : Sits (some (discard (b.fetchPage r q page))) (b.fetchRows r q page : Exchange (Journal σ) Page)
    fun _ => True := by
  refine sits_of_sitting (sitting_fetchPage hworks b r q page) ?_
  rintro ⟨prepared, shown⟩
  exact has_filed hworks _ _ trivial

theorem sits_exportCheck : Sits (some (discard (b.prepareCount r { q with sort := [] })))
    (b.exportCheck r q : Exchange (Journal σ) ExportCheck) fun _ => True := by
  refine sits_of_sitting (sitting_prepareCount hworks b r { q with sort := [] }) ?_
  rintro ⟨_, total⟩
  exact has_lift _ ⟨Trail.about_empty _, fun _ _ => trivial⟩

theorem sits_exportPage : Sits (some (discard (b.fetchPage r q page)))
    (b.exportPage r q page : Exchange (Journal σ) (Download (Journal σ)))
    fun d => d.stream.Sound ∧ d.stream.hand = none := by
  refine sits_of_sitting (sitting_fetchPage hworks b r q page) ?_
  rintro ⟨prepared, shown⟩
  exact has_filed hworks _ _ ⟨trivial, rfl⟩

theorem sits_exportAll : Sits (some (discard (b.prepareCount r q)))
    (b.exportAll r q : Exchange (Journal σ) (Download (Journal σ)))
    fun d => d.stream.Sound ∧ d.stream.hand = none := by
  refine sits_of_sitting (sitting_prepareCount hworks b r q) ?_
  rintro ⟨prepared, total⟩
  refine has_lift_bind _ (fun _ _ => ?_) fun _ _ => ⟨Trail.about_empty _, fun _ h => nomatch h⟩
  refine (trails_usePool _).bind ?_ ?_
  · rintro _ _ ⟨-, rfl⟩
    refine has_lift_bind _ (fun stream hstream => ?_) fun _ _ => ⟨Trail.about_empty _, fun _ h => nomatch h⟩
    obtain ⟨_, -, hsame⟩ := Result.of_bind_ok hstream
    cases hsame
    refine has_pure ⟨Trail.about_empty _, ?_⟩
    rintro _ ⟨⟩
    exact ⟨⟨⟨⟨_, rfl⟩, fun n => Audit.trails_record hworks _⟩, fun _ _ h => nomatch h⟩, rfl⟩
  · rintro _ _ ⟨-, rfl⟩
    exact ⟨Trail.about_empty _, fun _ h => nomatch h⟩

end Browser

namespace Reporter

variable (p : Reporter) (r : Requester)

theorem sits_runQuery (s : BlockSource) {body : Connection → JoinPlan → Exchange (Journal σ) BlockAnswer}
    (hbody : ∀ plan, IsDialogue fun c => body c plan) :
    Sits (some (discard (readOnly s.database p.timeout fun c => do
      let plan ← p.plan r c s
      let answer ← body c plan
      return (plan, answer)))) (p.runQuery r s body) fun _ => True := by
  refine sits_of_sitting (sitting_of_dialogue hworks s.database p.timeout (p.isDialogue_query r s hbody)) ?_
  rintro ⟨plan, answer⟩
  exact has_filed hworks _ _ trivial

end Reporter

theorem sits_runBlock (s : Service (Journal σ)) (r : Requester) (id : String) (page : Value) :
    Sits ((Order.block id page).block? s r) (s.reporter.runBlock s.blocks r id page) fun _ => True := by
  rw [Reporter.runBlock_eq, Order.block?]
  cases s.blockConfig r id with
  | error f => exact sits_lift (.error f) fun _ _ => trivial
  | ok config =>
      cases config with
      | text content => exact sits_lift (.ok _) fun _ _ => trivial
      | table b => exact Reporter.sits_runQuery hworks s.reporter r b.source fun plan =>
          s.reporter.isDialogue_runTable plan b page
      | chart b => exact Reporter.sits_runQuery hworks s.reporter r b.source fun plan =>
          Reporter.isDialogue_runChart plan b
      | metric b => exact Reporter.sits_runQuery hworks s.reporter r b.source fun plan =>
          Reporter.isDialogue_runMetric plan b

theorem Order.sits (s : Service (Journal σ)) (r : Requester) (o : Order) :
    Sits (o.block? s r) (o.run s r) Fresh := by
  cases o with
  | tables database =>
      have hlisting := sitting_of_dialogue (σ := σ) hworks database s.browser.timeout Catalog.isDialogue_listTables
      have hlist : Sits (some (discard (readOnly database s.browser.timeout fun c => Catalog.listTables c)))
          (s.browser.listTables r database : Exchange (Journal σ) (List Value)) fun _ => True := by
        refine sits_of_sitting hlisting fun listing => ?_
        exact has_lift_bind _ (fun _ _ => has_pure ⟨Trail.about_empty _, fun _ _ => trivial⟩)
          fun _ _ => ⟨Trail.about_empty _, fun _ h => nomatch h⟩
      exact hlist.bind_pure (fun shown => (Reaction.tables shown, none)) fun _ _ => fresh_none _
  | columns database table =>
      refine sits_of_sitting (?_ : Has (trails σ) _ (Sitting True database)) fun infos =>
        has_pure ⟨Trail.about_empty _, ?_⟩
      · exact sitting_of_dialogue hworks database s.browser.timeout (s.browser.isDialogue_columns r database table)
      · rintro _ ⟨⟩
        exact fresh_none _
  | rows q page => exact (Browser.sits_fetchRows hworks s.browser r q page).bind_pure _ fun _ _ => fresh_none _
  | exportCheck q => exact (Browser.sits_exportCheck hworks s.browser r q).bind_pure _ fun _ _ => fresh_none _
  | exportPage q page =>
      refine (Browser.sits_exportPage hworks s.browser r q page).bind_pure
        (fun d => (Reaction.download d.fileName, some d.stream)) fun d hd => ?_
      rintro _ ⟨⟩
      exact hd
  | exportAll q =>
      refine (Browser.sits_exportAll hworks s.browser r q).bind_pure
        (fun d => (Reaction.download d.fileName, some d.stream)) fun d hd => ?_
      rintro _ ⟨⟩
      exact hd
  | block id page => exact (sits_runBlock hworks s r id page).bind_pure _ fun _ _ => fresh_none _

end Orders

end TableSteward

import TableSteward.Proofs.Sitting

/-!
# The lives of connections

What happens on a connection to a browsed database follows one plan.  It is connected; it is closed again unused, or one
transaction is begun on it, which is made read-only before anything else is executed; the transaction is committed or
rolled back, and the connection is closed.  A stage says how far a connection has come, and a `Turn` what one step of a
requester does: it brings at most one connection from one stage to another.
-/
set_option autoImplicit false

namespace TableSteward

open Exchange

inductive Stage
  | absent
  | unused
  | reading
  | past
  deriving DecidableEq, Repr

/-- The events of a connection, the earliest first, when it has come to a stage. -/
inductive Life (c : Connection) : Stage → List Event → Prop
  | absent : Life c .absent []
  | unused : Life c .unused [.connected c]
  | reading (ss : List Statement) :
      Life c .reading (.connected c :: .begun c :: (Statement.readOnly :: ss).map (.executed c))
  | unread : Life c .past [.connected c, .closed c]
  | ended (ss : List Statement) (commits : Bool) :
      Life c .past (.connected c :: .begun c :: (Statement.readOnly :: ss).map (.executed c) ++
        [if commits then .committed c else .rolledBack c, .closed c])

/-- A connection that is in somebody's hands: it has been opened, and it is not over. -/
def Stage.held (c : Connection) : Stage → Option (Connection × Stage)
  | unused => some (c, unused)
  | reading => some (c, reading)
  | _ => none

namespace Trail

/-- What happens on a connection. -/
def on (p : Trail) (c : Connection) : List Event := p.events.filter fun e => e.connection? = some c

theorem on_append (p q : Trail) (c : Connection) : (p ++ q).on c = p.on c ++ q.on c := List.filter_append ..

section On

variable {P : Connection → Prop} {p : Trail} {c : Connection}

theorem on_eq_nil (h : p.About P) (hc : ¬ P c) : p.on c = [] := by
  rw [on, List.filter_eq_nil_iff]
  intro e he hon
  obtain ⟨d, hd, hP⟩ := h.events e he
  rw [decide_eq_true_eq, hd, Option.some.injEq] at hon
  exact hc (hon ▸ hP)

theorem on_eq_events (h : p.About (· = c)) : p.on c = p.events := by
  rw [on, List.filter_eq_self]
  intro e he
  obtain ⟨_, hd, rfl⟩ := h.events e he
  exact decide_eq_true hd

end On

/-- A transaction on a browsed database is committed. -/
def Commits (p : Trail) : Prop := ∃ c name, c.site = .browsed name ∧ .committed c ∈ p.events

/-- A browsed database fails a call. -/
def Fails (p : Trail) : Prop := ∃ e ∈ p.calls, e.answer = none ∧ ∃ name, e.call.connection.site = .browsed name

theorem commits_append {p q : Trail} : (p ++ q).Commits ↔ p.Commits ∨ q.Commits := by
  simp only [Commits, events_append, List.mem_append, and_or_left, exists_or]

theorem fails_append {p q : Trail} : (p ++ q).Fails ↔ p.Fails ∨ q.Fails := by
  simp only [Fails, calls_append, List.mem_append, or_and_right, exists_or]

section Pieces

variable {c : Connection} {name : String} {p : Trail}

theorem not_commits_of_at (h : p.At .application) : ¬ p.Commits := by
  rintro ⟨c, name, hc, he⟩
  obtain ⟨d, hd, hsite⟩ := h.events _ he
  obtain rfl := Option.some.inj hd
  rw [hc] at hsite
  exact nomatch hsite

theorem not_fails_of_at (h : p.At .application) : ¬ p.Fails := by
  rintro ⟨e, he, -, name, hname⟩
  rw [h.calls e he] at hname
  exact nomatch hname

@[simp] theorem not_commits_empty : ¬ Commits {} := not_commits_of_at (about_empty _)

@[simp] theorem not_fails_empty : ¬ Fails {} := not_fails_of_at (about_empty _)

@[simp] theorem not_commits_connecting (x : List Row) : ¬ (connecting c x).Commits := by
  simp [Commits, connecting]

@[simp] theorem not_fails_connecting (x : List Row) : ¬ (connecting c x).Fails := by
  simp [Fails, connecting]

@[simp] theorem not_commits_unconnected : ¬ (unconnected c).Commits := by
  simp [Commits, unconnected]

@[simp] theorem not_commits_beginning (y : List Row) : ¬ (beginning c y).Commits := by
  simp [Commits, beginning]

@[simp] theorem not_fails_beginning (y : List Row) : ¬ (beginning c y).Fails := by
  simp [Fails, beginning]

@[simp] theorem not_commits_said (xs : List (Statement × Option (List Row))) : ¬ (said c xs).Commits := by
  simp [Commits, said]

theorem anyFailed_of_fails_said {xs : List (Statement × Option (List Row))} (h : (said c xs).Fails) :
    AnyFailed xs := by
  obtain ⟨_, he, hnone, -⟩ := h
  obtain ⟨x, hx, rfl⟩ := List.mem_map.mp he
  exact ⟨x, hx, hnone⟩

theorem commits_ending (h : c.site = .browsed name) (commits : Bool) (z : List Row) :
    (ending c commits z).Commits ↔ commits = true := by
  cases commits <;> simp [Commits, ending, h]

@[simp] theorem not_fails_ending (commits : Bool) (z : List Row) : ¬ (ending c commits z).Fails := by
  cases commits <;> simp [Fails, ending]

@[simp] theorem not_commits_closing : ¬ (closing c).Commits := by
  simp [Commits, closing]

@[simp] theorem not_fails_closing : ¬ (closing c).Fails := by
  simp [Fails, closing]

end Pieces

/-! ## From one stage to another -/

/-- The trail of a connection that brings it from one stage to another. -/
structure Takes (p : Trail) (c : Connection) (st st' : Stage) : Prop where
  about : p.About (· = c)
  life : ∀ xs, Life c st xs → Life c st' (xs ++ p.events)

section Takes

variable {p q : Trail} {c : Connection} {st st' st'' : Stage}

theorem Takes.append (hp : p.Takes c st st') (hq : q.Takes c st' st'') : (p ++ q).Takes c st st'' := by
  refine ⟨hp.about.append hq.about, fun xs h => ?_⟩
  rw [events_append, ← List.append_assoc]
  exact hq.life _ (hp.life xs h)

theorem takes_connecting (c : Connection) (x : List Row) : (connecting c x).Takes c .absent .unused := by
  refine ⟨about_connecting (P := (· = c)) rfl x, fun xs h => ?_⟩
  cases h
  exact .unused

theorem takes_beginning (c : Connection) (y : List Row) (answer : Option (List Row))
    (xs : List (Statement × Option (List Row))) :
    (beginning c y ++ said c ((.readOnly, answer) :: xs)).Takes c .unused .reading := by
  refine ⟨(about_beginning (P := (· = c)) rfl y).append (about_said (P := (· = c)) rfl _), fun _ h => ?_⟩
  cases h
  have hlife := Life.reading (c := c) (xs.map Prod.fst)
  rw [List.map_cons, List.map_map] at hlife
  exact hlife

theorem takes_said (c : Connection) (xs : List (Statement × Option (List Row))) :
    (said c xs).Takes c .reading .reading := by
  refine ⟨about_said (P := (· = c)) rfl xs, fun _ h => ?_⟩
  cases h with
  | reading ss =>
      have hlife := Life.reading (c := c) (ss ++ xs.map Prod.fst)
      rw [← List.cons_append, List.map_append, List.map_map] at hlife
      exact hlife

theorem takes_ending (c : Connection) (commits : Bool) (z : List Row) :
    (ending c commits z ++ closing c).Takes c .reading .past := by
  refine ⟨(about_ending (P := (· = c)) rfl commits z).append (about_closing rfl), fun _ h => ?_⟩
  cases h with
  | reading ss =>
      have hlife := Life.ended (c := c) ss commits
      cases commits <;> exact hlife

theorem takes_closing (c : Connection) : (closing c).Takes c .unused .past := by
  refine ⟨about_closing (P := (· = c)) rfl, fun _ h => ?_⟩
  cases h
  exact .unread

end Takes

/-- What a step does on the browsed databases, from what it has in hand to what it leaves in hand: nothing happens on
any connection, or one connection, new or in hand, is brought from one stage to another.  Nothing but audit rows comes
along with it. -/
inductive Moves (p : Trail) : Option (Connection × Stage) → Option (Connection × Stage) → Prop
  | idle (hand : Option (Connection × Stage)) (c : Connection) :
      p.About (fun d => d = c ∨ d.site = .application) → (∀ d name, d.site = .browsed name → p.on d = []) →
      p.Moves hand hand
  | turn (c : Connection) (name : String) (q later : Trail) (st st' : Stage) : c.site = .browsed name →
      p = q ++ later → q.Takes c st st' → later.At .application → (st = .absent → c ∈ q.connected) → st ≠ .past →
      p.Moves (st.held c) (st'.held c)

/-- A connection is brought on, and no audit row comes along with it. -/
theorem Takes.moves {p : Trail} {c : Connection} {name : String} {st st' : Stage} (hp : p.Takes c st st')
    (hc : c.site = .browsed name) (hnew : st = .absent → c ∈ p.connected) (halive : st ≠ .past) :
    p.Moves (st.held c) (st'.held c) :=
  .turn c name p {} st st' hc (append_empty p).symm hp (about_empty _) hnew halive

/-- A step on the browsed databases, when it commits and what follows from a failure. -/
structure Turn (p : Trail) (hand hand' : Option (Connection × Stage)) (committed reported : Prop) : Prop where
  moves : p.Moves hand hand'
  commits : p.Commits ↔ committed
  fails : p.Fails → reported

theorem turn_of_at {p : Trail} (h : p.At .application) (hand : Option (Connection × Stage)) (reported : Prop) :
    p.Turn hand hand False reported := by
  refine ⟨.idle hand ⟨0, .application⟩ (h.mono fun _ hd => .inr hd) fun d name hd => ?_,
    ⟨not_commits_of_at h, False.elim⟩, fun hfails => absurd hfails (not_fails_of_at h)⟩
  refine on_eq_nil h ?_
  rw [hd]
  exact Site.noConfusion

theorem turn_unconnected (c : Connection) (hand : Option (Connection × Stage)) {reported : Prop} (h : reported) :
    (unconnected c).Turn hand hand False reported :=
  ⟨.idle hand c (about_unconnected (.inl rfl)) fun _ _ _ => rfl, ⟨not_commits_unconnected, False.elim⟩, fun _ => h⟩

theorem Turn.mono {p : Trail} {hand hand' : Option (Connection × Stage)} {committed reported committed' reported' : Prop}
    (h : p.Turn hand hand' committed reported) (hc : committed ↔ committed') (hr : reported → reported') :
    p.Turn hand hand' committed' reported' :=
  ⟨h.moves, h.commits.trans hc, fun hfails => hr (h.fails hfails)⟩

end Trail

/-! ## Blocks -/

/-- A read-only block has one connection, which is over when the block is, and it commits just if it succeeds. -/
theorem Sitting.turn {α : Type} {passes : Prop} (reported : Prop) {name : String} {r : Result α} {p later : Trail}
    (h : Sitting passes name r p) (hlater : later.At .application)
    (hreported : r = .error (.refused (.failed .readRows)) → reported) :
    (p ++ later).Turn none none (r.isOk = true) (passes → reported) := by
  cases h with
  | declined f => exact (Trail.turn_of_at hlater none _).mono (by simp [Except.isOk, Except.toBool]) id
  | unreached c hc =>
      have hidle := Trail.turn_unconnected c none fun _ : passes => hreported rfl
      refine ⟨?_, ?_, fun _ _ => hreported rfl⟩
      · refine .idle none c ?_ fun d name hd => ?_
        · exact (Trail.about_unconnected (.inl rfl)).append (hlater.mono fun _ hd => .inr hd)
        · rw [Trail.on_append, Trail.on_eq_nil hlater (by rw [hd]; exact Site.noConfusion)]
          rfl
      · simp [Trail.commits_append, Trail.not_commits_of_at hlater, Except.isOk, Except.toBool]
  | held c _ x y z answer xs hc hfailed =>
      refine ⟨?_, ?_, fun hfails hpasses => ?_⟩
      · refine .turn c name _ later .absent .past hc rfl ?_ hlater (fun _ => .head _) nofun
        rw [← Trail.append_assoc (.beginning c y)]
        exact (Trail.takes_connecting c x).append
          ((Trail.takes_beginning c y answer xs).append (Trail.takes_ending c r.isOk z))
      · simp [Trail.commits_append, Trail.not_commits_of_at hlater, Trail.commits_ending hc]
      · simp only [Trail.fails_append, Trail.not_fails_of_at hlater, Trail.not_fails_connecting,
          Trail.not_fails_beginning, Trail.not_fails_ending, Trail.not_fails_closing, or_false, false_or] at hfails
        exact hreported (hfailed hpasses (Trail.anyFailed_of_fails_said hfails))

/-! ## Streams -/

/-- An export reads one browsed database, and what it does when all is delivered is none of that database's business. -/
structure CursorExport.Sound {σ : Type} (e : CursorExport (Journal σ)) : Prop where
  site : ∃ name, e.site = .browsed name
  audits : ∀ n, Has (trails σ) (e.onComplete n) fun r p => r = .ok () ∧ p.At .application

namespace TextStream

variable {σ : Type}

/-- The connection that a stream has in hand. -/
def hand : TextStream σ → Option (Connection × Stage)
  | cursor _ (.headed c) => some (c, .unused)
  | cursor _ (.reading c _) => some (c, .reading)
  | _ => none

def Sound : TextStream (Journal σ) → Prop
  | cursor e phase => e.Sound ∧ ∀ c st, hand (cursor e phase) = some (c, st) → c.site = e.site
  | _ => True

/-- What the stream after an attempt to get a chunk has in hand. -/
def handAfter : Result (Option String × TextStream σ) → Option (Connection × Stage)
  | .ok (_, rest) => rest.hand
  | .error _ => none

/-- The end of a stream has been reached. -/
def Drained (r : Result (Option String × TextStream σ)) : Prop := ∃ rest, r = .ok (none, rest)

/-- What is said of a failure, after the connection is there. -/
abbrev Reported (r : Result (Option String × TextStream σ)) : Prop := r = .error (.refused (.failed .exportRows))

end TextStream

namespace CursorExport

variable {σ : Type} {e : CursorExport (Journal σ)} {c : Connection}
  {r : Result (Option String × TextStream (Journal σ))}

/-- A step on an open transaction leaves it open, commits it at the end of the stream, or rolls it back. -/
theorem Drawn.turn (opening : Trail) {p : Trail} {st : Stage} {xs : List (Statement × Option (List Row))} (he : e.Sound)
    (hc : c.site = e.site) (h : Drawn e c xs r p) (hst : st = .unused ∨ st = .reading)
    (hbegun : (opening ++ .said c xs).Takes c st .reading) (hopening : ¬ opening.Commits ∧ ¬ opening.Fails) :
    (opening ++ p).Turn (st.held c) (TextStream.handAfter r) (TextStream.Drained r) (TextStream.Reported r) ∧
      ∀ chunk rest, r = .ok (chunk, rest) → rest.Sound := by
  obtain ⟨name, hsite⟩ := he.site
  have hname : c.site = .browsed name := hc.trans hsite
  have habsent : st ≠ .absent ∧ st ≠ .past := by
    rcases hst with rfl | rfl <;> exact ⟨nofun, nofun⟩
  have hended : ∀ commits z, (opening ++ (.said c xs ++ (.ending c commits z ++ .closing c))).Takes c st .past := by
    intro commits z
    rw [← Trail.append_assoc]
    exact hbegun.append (Trail.takes_ending c commits z)
  cases h with
  | more chunk written hxs =>
      refine ⟨⟨?_, ?_, fun hfails => ?_⟩, ?_⟩
      · exact hbegun.moves hname (fun h => absurd h habsent.1) habsent.2
      · simp [Trail.commits_append, hopening.1, TextStream.Drained]
      · exact absurd (Trail.anyFailed_of_fails_said ((Trail.fails_append.mp hfails).resolve_left hopening.2)) hxs
      · rintro _ _ ⟨⟩
        refine ⟨he, ?_⟩
        rintro _ _ ⟨⟩
        exact hc
  | drained z later hxs hlater =>
      have hp : opening ++ (.said c xs ++ (.ending c true z ++ (.closing c ++ later))) =
          opening ++ (.said c xs ++ (.ending c true z ++ .closing c)) ++ later := by
        simp only [Trail.append_assoc]
      refine ⟨⟨?_, ?_, fun hfails => ?_⟩, ?_⟩
      · exact .turn c name _ later st .past hname hp (hended true z) hlater
          (fun h => absurd h habsent.1) habsent.2
      · simp [Trail.commits_append, Trail.commits_ending hname, TextStream.Drained]
      · simp only [Trail.fails_append, hopening.2, Trail.not_fails_of_at hlater, Trail.not_fails_ending,
          Trail.not_fails_closing, or_false, false_or] at hfails
        exact absurd (Trail.anyFailed_of_fails_said hfails) hxs
      · rintro _ _ ⟨⟩
        trivial
  | failed f z hf =>
      refine ⟨⟨?_, ?_, fun hfails => ?_⟩, fun _ _ h => nomatch h⟩
      · exact (hended false z).moves hname (fun h => absurd h habsent.1) habsent.2
      · simp [Trail.commits_append, Trail.commits_ending hname, hopening.1, TextStream.Drained]
      · simp only [Trail.fails_append, hopening.2, Trail.not_fails_ending, Trail.not_fails_closing, or_false,
          false_or] at hfails
        exact congrArg _ (hf (Trail.anyFailed_of_fails_said hfails))

end CursorExport

namespace TextStream

variable {σ : Type} [Server σ]

/-- A page is rendered without its database. -/
theorem trails_next_records (columns : List Value) (headed : Bool) (rows : List Row) :
    Has (trails σ) (records columns headed rows).next fun r p =>
      p = {} ∧ ∀ chunk rest, r = .ok (chunk, rest) → rest.hand = none ∧ rest.Sound := by
  have hdone : ∀ (text : Result String) (rest : TextStream (Journal σ)), rest.hand = none → rest.Sound →
      Has (trails σ) (do let text ← lift text; return (some text, rest)) fun r p =>
        p = {} ∧ ∀ chunk rest, r = .ok (chunk, rest) → rest.hand = none ∧ rest.Sound := by
    intro text rest hhand hsound
    cases text with
    | error f => exact has_throw ⟨rfl, fun _ _ h => nomatch h⟩
    | ok text =>
        refine has_pure ⟨rfl, ?_⟩
        rintro _ _ ⟨⟩
        exact ⟨hhand, hsound⟩
  cases headed with
  | false => exact hdone (Csv.header columns) (records columns true rows) rfl trivial
  | true =>
      cases rows with
      | nil =>
          refine has_pure ⟨rfl, ?_⟩
          rintro _ _ ⟨⟩
          exact ⟨rfl, trivial⟩
      | cons row rest => exact hdone (Csv.rowLine columns row) (records columns true rest) rfl trivial

variable (hworks : Server.TransactionsWork σ) {s : TextStream (Journal σ)}

include hworks

/-- The next chunk of a stream.  Only a connection that is not to be had is reported as it comes. -/
theorem trails_next (hs : s.Sound) :
    Has (trails σ) s.next fun r p =>
      p.Turn s.hand (handAfter r) (s.hand ≠ none ∧ Drained r)
        (Reported r ∨ s.hand = none ∧ r = .error .database) ∧
      ∀ chunk rest, r = .ok (chunk, rest) → rest.Sound := by
  cases s with
  | finished =>
      refine has_pure ⟨(Trail.turn_of_at (Trail.about_empty _) _ _).mono (by simp [hand]) id, ?_⟩
      rintro _ _ ⟨⟩
      trivial
  | records columns headed rows =>
      refine (trails_next_records columns headed rows).weaken ?_
      rintro r _ ⟨rfl, hrest⟩
      have hafter : handAfter r = none := by
        cases r with
        | error f => rfl
        | ok out => exact (hrest out.1 out.2 rfl).1
      rw [hafter]
      refine ⟨(Trail.turn_of_at (Trail.about_empty _) _ _).mono (by simp [hand]) id, fun chunk rest h => ?_⟩
      exact (hrest chunk rest h).2
  | cursor e phase =>
      obtain ⟨he, hhand⟩ := hs
      obtain ⟨name, hname⟩ := he.site
      cases phase with
      | waiting =>
          refine (CursorExport.trails_next_waiting e).weaken ?_
          rintro _ _ (⟨c, hc⟩ | ⟨c, x, header, hc⟩ | ⟨c, x, f, hc⟩)
          · exact ⟨(Trail.turn_unconnected c none (.inr ⟨rfl, rfl⟩)).mono (by simp [hand]) id, fun _ _ h => nomatch h⟩
          · refine ⟨⟨?_, by simp [hand], by simp⟩, ?_⟩
            · exact (Trail.takes_connecting c x).moves (hc.trans hname) (fun _ => .head _) nofun
            · rintro _ _ ⟨⟩
              refine ⟨he, ?_⟩
              rintro _ _ ⟨⟩
              exact hc
          · refine ⟨⟨?_, by simp [hand, Trail.commits_append], by simp [Trail.fails_append]⟩, fun _ _ h => nomatch h⟩
            exact ((Trail.takes_connecting c x).append (Trail.takes_closing c)).moves (hc.trans hname)
              (fun _ => .head _) nofun
      | headed c =>
          refine (CursorExport.trails_next_headed hworks he.audits c).weaken ?_
          rintro r _ ⟨y, answer, xs, q, rfl, hdrawn⟩
          have hturn := hdrawn.turn (.beginning c y) he (hhand c .unused rfl) (.inl rfl)
            (Trail.takes_beginning c y answer xs) ⟨Trail.not_commits_beginning y, Trail.not_fails_beginning y⟩
          exact ⟨hturn.1.mono (by simp [hand]) .inl, hturn.2⟩
      | reading c written =>
          refine (CursorExport.trails_next_reading hworks he.audits c written).weaken ?_
          rintro r p ⟨xs, hdrawn⟩
          have hturn := hdrawn.turn {} he (hhand c .reading rfl) (.inr rfl)
            (Trail.takes_said c xs) ⟨Trail.not_commits_empty, Trail.not_fails_empty⟩
          exact ⟨hturn.1.mono (by simp [hand]) .inl, hturn.2⟩

theorem trails_close (hs : s.Sound) :
    Has (trails σ) s.close fun _ p => p.Turn s.hand none False False := by
  cases s with
  | finished => exact has_pure (Trail.turn_of_at (Trail.about_empty _) _ _)
  | records columns headed rows => exact has_pure (Trail.turn_of_at (Trail.about_empty _) _ _)
  | cursor e phase =>
      obtain ⟨he, hhand⟩ := hs
      obtain ⟨name, hname⟩ := he.site
      cases phase with
      | waiting => exact has_pure (Trail.turn_of_at (Trail.about_empty _) _ _)
      | headed c =>
          refine (Exchange.trails_close c).weaken ?_
          rintro _ _ ⟨rfl, rfl⟩
          have hc := (hhand c .unused rfl).trans hname
          exact ⟨(Trail.takes_closing c).moves hc nofun nofun, ⟨Trail.not_commits_closing, False.elim⟩,
            Trail.not_fails_closing⟩
      | reading c written =>
          refine (CursorExport.trails_abandon hworks c).weaken ?_
          rintro _ _ ⟨rfl, z, rfl⟩
          have hc := (hhand c .reading rfl).trans hname
          exact ⟨(Trail.takes_ending c false z).moves hc nofun nofun,
            by simp [Trail.commits_append, Trail.commits_ending hc], by simp [Trail.fails_append]⟩

end TextStream

end TableSteward

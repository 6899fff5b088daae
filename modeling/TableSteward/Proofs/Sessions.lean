import TableSteward.Proofs.PagedExport
import TableSteward.Proofs.Turns

/-!
# Read-only sessions

However orders, dashboards and downloads follow one another, every connection to a browsed database lives as a `Life`
says, and it is past unless a download has it in hand.
-/
set_option autoImplicit false

namespace TableSteward

open Exchange

theorem Stage.held_eq_some {c d : Connection} {st st' : Stage} (h : st.held c = some (d, st')) : d = c ∧ st' = st := by
  cases st <;> cases h <;> exact ⟨rfl, rfl⟩

theorem TextStream.stage_of_hand {σ : Type} {s : TextStream σ} {c : Connection} {st : Stage}
    (h : s.hand = some (c, st)) : st = .unused ∨ st = .reading := by
  rcases s with _ | ⟨e, _ | d | ⟨d, n⟩⟩ | _ <;> cases h
  · exact .inl rfl
  · exact .inr rfl

theorem Life.events_ne_nil {c : Connection} {st : Stage} {xs : List Event} (h : Life c st xs) (hst : st ≠ .absent) :
    xs ≠ [] := by
  cases h with
  | absent => exact absurd rfl hst
  | unused | reading | unread | ended => nofun

theorem Trail.Between.connections_le {σ : Type} {p : Trail} {l m : Link (Journal σ)} (h : p.Between l m) :
    l.connections ≤ m.connections := by
  rw [h.connections]
  exact Nat.le_add_right ..

theorem Trail.Between.number_of_connected {σ : Type} {p : Trail} {l m : Link (Journal σ)} (h : p.Between l m)
    {c : Connection} (hc : c ∈ p.connected) : l.connections < c.number ∧ c.number ≤ m.connections := by
  have hmem : c.number ∈ p.connected.map Connection.number := List.mem_map_of_mem hc
  rw [h.numbers, List.mem_range'_1] at hmem
  rw [h.connections]
  omega

namespace Floor

variable {σ : Type} [Server σ]

/-- What every step preserves: connections are new when they are opened, what a download has in hand is its own and has
lived as it should, and whatever is in nobody's hands is past. -/
structure Kept (F : Floor (Journal σ)) : Prop where
  sound : F.Sound
  numbers : ∀ c name, c.site = .browsed name → F.eventsOn c ≠ [] → c.number ≤ F.link.connections
  held : ∀ i c st, F.hand i = some (c, st) → (∃ name, c.site = .browsed name) ∧ Life c st (F.eventsOn c)
  alone : ∀ i j c st st', F.hand i = some (c, st) → F.hand j = some (c, st') → i = j
  lives : ∀ c name, c.site = .browsed name →
    F.eventsOn c = [] ∨ Life c .past (F.eventsOn c) ∨ ∃ i st, F.hand i = some (c, st)

section Steps

variable {F G : Floor (Journal σ)} {p : Trail} {a : Step}

omit [Server σ] in
theorem eventsOn_of_between (h : p.Between F.link G.link) (c : Connection) :
    G.eventsOn c = F.eventsOn c ++ p.on c := by
  simp only [eventsOn, h.events, List.reverse_append, List.reverse_reverse, List.filter_append, Trail.on]

omit [Server σ] in
theorem stage_of_hand {i : Nat} {c : Connection} {st : Stage} (h : F.hand i = some (c, st)) :
    st = .unused ∨ st = .reading := by
  obtain ⟨t, -, ht⟩ := Option.bind_eq_some_iff.mp h
  exact TextStream.stage_of_hand ht

omit [Server σ] in
theorem handAt_of_download {i : Nat} (h : a.download? = some i) : F.handAt a = F.hand i := by
  rw [handAt, h]
  rfl

/-- Nothing happens on any connection, and everybody keeps what he has. -/
theorem Kept.idle (hF : F.Kept) (hG : G.Sound) (hp : p.Between F.link G.link)
    (hquiet : ∀ c name, c.site = .browsed name → p.on c = []) (hframe : ∀ i, G.hand i = F.hand i) : G.Kept := by
  have hevents : ∀ c name, c.site = .browsed name → G.eventsOn c = F.eventsOn c := by
    intro c name hc
    rw [eventsOn_of_between hp, hquiet c name hc, List.append_nil]
  refine ⟨hG, fun c name hc h => ?_, fun i c st h => ?_, fun i j c st st' hi hj => ?_, fun c name hc => ?_⟩
  · rw [hevents c name hc] at h
    exact (hF.numbers c name hc h).trans hp.connections_le
  · rw [hframe] at h
    obtain ⟨⟨name, hc⟩, hlife⟩ := hF.held i c st h
    rw [hevents c name hc]
    exact ⟨⟨name, hc⟩, hlife⟩
  · rw [hframe] at hi hj
    exact hF.alone i j c st st' hi hj
  · rw [hevents c name hc]
    simp only [hframe]
    exact hF.lives c name hc

/-- One connection comes from one stage to another, in the hands of the step. -/
structure Brings (F G : Floor (Journal σ)) (a : Step) (c : Connection) (st st' : Stage) : Prop where
  browsed : ∃ name, c.site = .browsed name
  life : ∀ xs, F.eventsOn c = xs → Life c st xs → Life c st' (G.eventsOn c)
  others : ∀ d name, d.site = .browsed name → d ≠ c → G.eventsOn d = F.eventsOn d
  new : st = .absent → F.link.connections < c.number ∧ c.number ≤ G.link.connections
  alive : st ≠ .past
  connections : F.link.connections ≤ G.link.connections
  before : F.handAt a = st.held c
  after : G.handAt a = st'.held c
  frame : ∀ i, a.download? = some i ∨ G.hand i = F.hand i

section Brings

variable {c : Connection} {st st' : Stage}

omit [Server σ] in
theorem brings_of_takes (hp : p.Between F.link G.link) (hframe : ∀ i, a.download? = some i ∨ G.hand i = F.hand i)
    {name : String} {q later : Trail} (hc : c.site = .browsed name) (hpq : p = q ++ later) (hq : q.Takes c st st')
    (hlater : later.At .application) (hnew : st = .absent → c ∈ q.connected) (halive : st ≠ .past)
    (hbefore : F.handAt a = st.held c) (hafter : G.handAt a = st'.held c) : Brings F G a c st st' := by
  have hnone : ∀ d name, d.site = .browsed name → later.on d = [] := fun d name hd =>
    Trail.on_eq_nil hlater (by rw [hd]; exact Site.noConfusion)
  refine ⟨⟨name, hc⟩, ?_, ?_, fun h => hp.number_of_connected ?_, halive, hp.connections_le, hbefore, hafter, hframe⟩
  · rintro _ rfl hlife
    rw [eventsOn_of_between hp, hpq, Trail.on_append, Trail.on_eq_events hq.about, hnone c name hc, List.append_nil]
    exact hq.life _ hlife
  · intro d other hd hne
    rw [eventsOn_of_between hp, hpq, Trail.on_append, Trail.on_eq_nil hq.about hne, hnone d other hd,
      List.append_nil, List.append_nil]
  · rw [hpq, Trail.connected_append]
    exact List.mem_append_left _ (hnew h)

omit [Server σ] in
/-- A connection that has been opened before is in the hands of the step. -/
theorem Brings.held_before (h : Brings F G a c st st') (hst : st ≠ .absent) :
    ∃ i, a.download? = some i ∧ F.hand i = some (c, st) := by
  have hheld : st.held c = some (c, st) := by
    cases st with
    | absent => exact absurd rfl hst
    | past => exact absurd rfl h.alive
    | unused | reading => rfl
  exact Option.bind_eq_some_iff.mp (h.before.trans hheld)

theorem Brings.life_before (h : Brings F G a c st st') (hF : F.Kept) : Life c st (F.eventsOn c) := by
  by_cases hst : st = .absent
  · subst hst
    obtain ⟨name, hc⟩ := h.browsed
    have hnone : F.eventsOn c = [] := by
      by_contra hsome
      exact absurd (hF.numbers c name hc hsome) (Nat.not_le.mpr (h.new rfl).1)
    rw [hnone]
    exact .absent
  · obtain ⟨i, -, hi⟩ := h.held_before hst
    exact (hF.held i c st hi).2

theorem Brings.life_after (h : Brings F G a c st st') (hF : F.Kept) : Life c st' (G.eventsOn c) :=
  h.life _ rfl (h.life_before hF)

/-- Nobody but the step has the connection in hand. -/
theorem Brings.download_of_hand (h : Brings F G a c st st') (hF : F.Kept) {i : Nat} {st₀ : Stage}
    (hi : F.hand i = some (c, st₀)) : a.download? = some i := by
  by_cases hst : st = .absent
  · subst hst
    have hlife := h.life_before hF
    have hheld := (hF.held i c st₀ hi).2
    generalize F.eventsOn c = xs at hlife hheld
    cases hlife
    rcases stage_of_hand hi with rfl | rfl <;> exact nomatch hheld
  · obtain ⟨j, hj, hhand⟩ := h.held_before hst
    rwa [hF.alone i j c st₀ st hi hhand]

/-- What is in somebody's hands after the step. -/
theorem Brings.hand_after (h : Brings F G a c st st') (hF : F.Kept) {i : Nat} {d : Connection} {st₀ : Stage}
    (hi : G.hand i = some (d, st₀)) :
    a.download? = some i ∧ d = c ∧ st₀ = st' ∨ F.hand i = some (d, st₀) ∧ d ≠ c := by
  by_cases hdownload : a.download? = some i
  · have hafter := h.after
    rw [handAt_of_download hdownload, hi] at hafter
    obtain ⟨rfl, rfl⟩ := Stage.held_eq_some hafter.symm
    exact .inl ⟨hdownload, rfl, rfl⟩
  · rw [(h.frame i).resolve_left hdownload] at hi
    refine .inr ⟨hi, ?_⟩
    rintro rfl
    exact hdownload (h.download_of_hand hF hi)

theorem Brings.lives (h : Brings F G a c st st') (hF : F.Kept) (d : Connection) (name : String)
    (hd : d.site = .browsed name) :
    G.eventsOn d = [] ∨ Life d .past (G.eventsOn d) ∨ ∃ i st, G.hand i = some (d, st) := by
  by_cases hdc : d = c
  · subst hdc
    have hlife := h.life_after hF
    cases st' with
    | absent =>
        generalize G.eventsOn d = xs at hlife
        cases hlife
        exact .inl rfl
    | past => exact .inr (.inl hlife)
    | unused | reading =>
        obtain ⟨i, -, hi⟩ := Option.bind_eq_some_iff.mp h.after
        exact .inr (.inr ⟨i, _, hi⟩)
  · rw [h.others d name hd hdc]
    refine (hF.lives d name hd).imp_right (.imp_right ?_)
    rintro ⟨i, st₀, hi⟩
    refine ⟨i, st₀, ?_⟩
    rcases h.frame i with hdownload | hsame
    · have hbefore := h.before
      rw [handAt_of_download hdownload, hi] at hbefore
      exact absurd (Stage.held_eq_some hbefore.symm).1 hdc
    · rwa [hsame]

theorem Kept.brings (hF : F.Kept) (hG : G.Sound) (h : Brings F G a c st st') : G.Kept := by
  refine ⟨hG, fun d name hd hsome => ?_, fun i d st₀ hi => ?_, fun i j d st₀ st₁ hi hj => ?_, h.lives hF⟩
  · by_cases hdc : d = c
    · subst hdc
      by_cases hst : st = .absent
      · exact (h.new hst).2
      · exact (hF.numbers d name hd ((h.life_before hF).events_ne_nil hst)).trans h.connections
    · rw [h.others d name hd hdc] at hsome
      exact (hF.numbers d name hd hsome).trans h.connections
  · rcases h.hand_after hF hi with ⟨-, rfl, rfl⟩ | ⟨hheld, hne⟩
    · exact ⟨h.browsed, h.life_after hF⟩
    · obtain ⟨⟨name, hd⟩, hlife⟩ := hF.held i d st₀ hheld
      rw [h.others d name hd hne]
      exact ⟨⟨name, hd⟩, hlife⟩
  · rcases h.hand_after hF hi with ⟨hmine, rfl, -⟩ | ⟨hheld, hne⟩
    · rcases h.hand_after hF hj with ⟨hmine', -, -⟩ | ⟨-, hne⟩
      · exact Option.some.inj (hmine.symm.trans hmine')
      · exact absurd rfl hne
    · rcases h.hand_after hF hj with ⟨-, rfl, -⟩ | ⟨hheld', -⟩
      · exact absurd rfl hne
      · exact hF.alone i j d st₀ st₁ hheld hheld'

end Brings

end Steps

/-! ## Runs -/

section Runs

variable (hworks : Server.TransactionsWork σ)

include hworks

theorem Kept.step {F : Floor (Journal σ)} (hF : F.Kept) (a : Step) : (F.step a).2.Kept := by
  obtain ⟨⟨p, hp, hturn⟩, hG, hframe⟩ := turn_step hworks hF.sound a
  have hmoves := hturn.moves
  generalize hbefore : F.handAt a = before at hmoves
  generalize hafter : (F.step a).2.handAt a = after at hmoves
  cases hmoves with
  | idle hand c _ hquiet =>
      refine hF.idle hG hp hquiet fun i => (hframe i).elim (fun hdownload => ?_) id
      rw [← handAt_of_download hdownload, ← handAt_of_download hdownload, hbefore, hafter]
  | turn c name q later st st' hc hpq hq hlater hnew halive =>
      exact hF.brings hG (brings_of_takes hp hframe hc hpq hq hlater hnew halive hbefore hafter)

omit hworks in
/-- A floor on which nothing has happened. -/
theorem kept_of_new {F : Floor (Journal σ)} (hdownloads : F.downloads = []) (htrace : F.link.trace = [])
    (hproviders : ∀ kind compute, F.service.providers.get? kind = some compute → compute.Executes) : F.Kept := by
  have hnothing : ∀ c, F.eventsOn c = [] := fun c => by
    rw [eventsOn, htrace]
    rfl
  have hnobody : ∀ i c st, F.hand i ≠ some (c, st) := fun i c st h => by
    rw [hand_eq_none (by rw [hdownloads]; rfl)] at h
    exact nomatch h
  refine ⟨⟨hproviders, ?_⟩, fun c _ _ h => absurd (hnothing c) h, fun i c st h => absurd h (hnobody i c st),
    fun i _ c st _ h _ => absurd h (hnobody i c st), fun c _ _ => .inl (hnothing c)⟩
  rw [hdownloads]
  exact fun _ h => (nomatch h)

/-- However steps follow one another and whatever fails, a connection to a browsed database has come to a stage of its
life, and it is past unless just one download has it in hand.  One more step brings at most one connection from one
stage to another; it commits just if it comes to the end of its transaction without a fault, and a call that fails is
reported. -/
theorem sessions (F₀ : Floor (Journal σ)) (hdownloads : F₀.downloads = []) (htrace : F₀.link.trace = [])
    (hproviders : ∀ kind compute, F₀.service.providers.get? kind = some compute → compute.Executes)
    (steps : List Step) (F : Floor (Journal σ)) (hF : F₀.after steps = F) :
    (∀ c name, c.site = .browsed name → F.eventsOn c = [] ∨ Life c .past (F.eventsOn c) ∨
      ∃! i, ∃ st, F.hand i = some (c, st) ∧ Life c st (F.eventsOn c)) ∧
    ∀ a, ∃ p : Trail, p.Between F.link (F.step a).2.link ∧
      p.Turn (F.handAt a) ((F.step a).2.handAt a) (F.Completes a) (F.Reports a) := by
  subst hF
  have hkept : (F₀.after steps).Kept :=
    after_preserves (fun F a hF => hF.step hworks a) (kept_of_new hdownloads htrace hproviders) steps
  refine ⟨fun c name hc => (hkept.lives c name hc).imp_right (.imp_right ?_), fun a => ?_⟩
  · rintro ⟨i, st, hi⟩
    refine ⟨i, ⟨st, hi, (hkept.held i c st hi).2⟩, ?_⟩
    rintro j ⟨st', hj, -⟩
    exact hkept.alone j i c st' st hj hi
  · exact (turn_step hworks hkept.sound a).1

end Runs

end Floor

/-! ## A dashboard and a download that has just been headed -/

namespace Ledger

theorem transactionsWork : Server.TransactionsWork Still := fun _ _ => ⟨nofun, nofun, nofun⟩

def sales : Provider (Journal Still) := fun c _ => do
  discard (execute c (.given "SELECT 1"))
  return .int 1

theorem executes_sales : sales.Executes := by
  intro c r
  refine (has_discard (trails_execute c (.given "SELECT 1"))).bind ?_ ?_
  · rintro _ _ ⟨_, -, answer, -, rfl⟩
    exact has_pure ⟨_, Trail.append_empty _, nofun⟩
  · rintro _ _ ⟨_, -, answer, -, rfl⟩
    exact ⟨_, rfl, nofun⟩

def floor : Floor (Journal Still) where
  service := {
    link := link.journaled
    policy := desk.policy
    providers := [("sales", sales)]
    today := ⟨2024, 3, 1, Service.isDay_firstOfMarch⟩ }

theorem executes_providers (kind : String) (compute : Provider (Journal Still))
    (h : floor.service.providers.get? kind = some compute) : compute.Executes := by
  have hmem := Entries.mem_of_get? h
  obtain ⟨-, rfl⟩ := Prod.mk.inj (List.mem_singleton.mp hmem)
  exact executes_sales

def steps : List Step := [.dashboard "sales" ⟨"Prod", "weekly", none, none, []⟩ false, .order analyst (.exportAll request),
  .next 0]

/-- Of three connections the last is in the hands of the download. -/
theorem sessions_of_download :
    (floor.after steps).hand 0 = some (⟨3, .browsed "Prod"⟩, .unused) ∧
    ∀ c name, c.site = .browsed name →
      (floor.after steps).eventsOn c = [] ∨ Life c .past ((floor.after steps).eventsOn c) ∨
      ∃! i, ∃ st, (floor.after steps).hand i = some (c, st) ∧ Life c st ((floor.after steps).eventsOn c) :=
  ⟨by decide +kernel,
    (Floor.sessions transactionsWork floor rfl rfl executes_providers steps _ rfl).1⟩

end Ledger

end TableSteward

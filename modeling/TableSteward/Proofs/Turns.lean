import TableSteward.Proofs.OrderSessions

/-!
# The turns of a floor

Whatever the next step is, it is one turn on the browsed databases, and the downloads that it does not go on with keep
what they have in hand.
-/
set_option autoImplicit false

namespace TableSteward

open Exchange

/-! ## Dashboards -/

/-- A provider does nothing but execute statements on the connection that it is given. -/
def Provider.Executes {σ : Type} [Server σ] (p : Provider (Journal σ)) : Prop :=
  ∀ c r, Speaks False c (p c r)

/-- Such a provider, which a failure of the database ends. -/
def Provider.LetsPass {σ : Type} [Server σ] (p : Provider (Journal σ)) : Prop :=
  ∀ c r, Speaks True c (p c r)

theorem Provider.speaks {σ : Type} [Server σ] {p : Provider (Journal σ)} (h : p.Executes) (c : Connection)
    (r : DashboardRequest) : Speaks p.LetsPass c (p c r) := by
  by_cases hpasses : p.LetsPass
  · refine (hpasses c r).weaken ?_
    rintro out q ⟨xs, hq, hfailed⟩
    exact ⟨xs, hq, fun _ => hfailed trivial⟩
  · refine (h c r).weaken ?_
    rintro out q ⟨xs, hq, -⟩
    exact ⟨xs, hq, fun hp => absurd hp hpasses⟩

namespace Service

variable {σ : Type} [Server σ] {kind key : String} {r : DashboardRequest} {refresh : Bool}

theorem computeDashboard_of_failed {s : Service σ} {compute : Provider σ} {f : Fault}
    (h : (s.block compute r).1 = .error f) :
    (computeDashboard key compute r).runOn s = (.error f, { s with link := (s.block compute r).2 }) := by
  rw [block] at h ⊢
  simp only [computeDashboard, Action.runOn_bind, Action.runOn_get, Action.runOn_onLink, h]

omit [Server σ] in
/-- No provider is known, or the cache holds the answer, or the provider is called. -/
theorem fetch_cases (s : Service σ) (kind : String) (r : DashboardRequest) (refresh : Bool) :
    s.providers.get? kind = none ∨
    (∃ compute v, s.providers.get? kind = some compute ∧ refresh = false ∧ s.Holds (r.cacheKey kind) v) ∨
    ∃ compute, s.providers.get? kind = some compute ∧ (refresh = true ∨ ∀ v, ¬ s.Holds (r.cacheKey kind) v) := by
  cases hkind : s.providers.get? kind with
  | none => exact .inl rfl
  | some compute =>
      by_cases hmiss : refresh = true ∨ ∀ v, ¬ s.Holds (r.cacheKey kind) v
      · exact .inr (.inr ⟨compute, rfl, hmiss⟩)
      · obtain ⟨hrefresh, hholds⟩ := not_or.mp hmiss
        obtain ⟨v, hv⟩ := not_forall.mp hholds
        exact .inr (.inl ⟨compute, v, rfl, Bool.eq_false_iff.mpr hrefresh, not_not.mp hv⟩)

/-- A fetch changes nothing but the link and the cache. -/
theorem dashboard_snd (s : Service σ) (kind : String) (r : DashboardRequest) (refresh : Bool) :
    ∃ link cache, ((dashboard kind r refresh).runOn s).2 = { s with link := link, cache := cache } := by
  rcases s.fetch_cases kind r refresh with hkind | ⟨compute, v, hkind, rfl, hholds⟩ | ⟨compute, hkind, hmiss⟩
  · obtain ⟨f, hrun⟩ := dashboard_unknown hkind r refresh
    exact ⟨s.link, s.cache, by rw [hrun]⟩
  · rw [dashboard_hit hkind hholds]
    exact ⟨s.link, _, rfl⟩
  · let s' : Service σ := { s with cache := s.lookedUp (r.cacheKey kind) refresh }
    rw [dashboard_miss hkind hmiss]
    by_cases hok : ∃ v current, (s.block compute r).1 = .ok v ∧ r.isCurrent s.today = .ok current
    · obtain ⟨v, current, hblock, hcurrent⟩ := hok
      obtain ⟨t, ht⟩ := Period.add_lifetime s.clock current
      rw [computeDashboard_ok (s := s') hblock hcurrent ht]
      exact ⟨_, _, rfl⟩
    · obtain ⟨f, hrun⟩ := computeDashboard_error (s := s') (r.cacheKey kind) compute r
        fun v current hblock hcurrent => hok ⟨v, current, hblock, hcurrent⟩
      rw [hrun]
      exact ⟨_, _, rfl⟩

theorem turn_dashboard (hworks : Server.TransactionsWork σ) (s : Service (Journal σ))
    (hproviders : ∀ kind compute, s.providers.get? kind = some compute → compute.Executes)
    (kind : String) (r : DashboardRequest) (refresh : Bool) :
    ∃ p : Trail, p.Between s.link ((dashboard kind r refresh).runOn s).2.link ∧
      p.Turn none none
        (∃ compute, s.providers.get? kind = some compute ∧
          (refresh = true ∨ ∀ v, ¬ s.Holds (r.cacheKey kind) v) ∧ (s.block compute r).1.isOk = true)
        (∀ compute, s.providers.get? kind = some compute → compute.LetsPass →
          Unread ((dashboard kind r refresh).runOn s).1) := by
  rcases s.fetch_cases kind r refresh with hkind | ⟨compute, v, hkind, rfl, hholds⟩ | ⟨compute, hkind, hmiss⟩
  · obtain ⟨f, hrun⟩ := dashboard_unknown hkind r refresh
    rw [hrun]
    exact ⟨{}, .refl _, (Trail.turn_of_at (Trail.about_empty _) none _).mono (by simp [hkind]) id⟩
  · rw [dashboard_hit hkind hholds]
    refine ⟨{}, .refl _, (Trail.turn_of_at (Trail.about_empty _) none _).mono ⟨False.elim, ?_⟩ id⟩
    rintro ⟨_, -, h | h, -⟩
    · exact nomatch h
    · exact h v hholds
  · obtain ⟨p, hp, hsitting⟩ := trails_readOnly hworks r.database s.timeout
      (fun c => Provider.speaks (hproviders kind compute hkind) c r) s.link
    have hturn := hsitting.turn (Unread ((dashboard kind r refresh).runOn s).1)
      (Trail.about_empty _) fun hfailed => by
        rw [dashboard_miss hkind hmiss, computeDashboard_of_failed
          (s := { s with cache := s.lookedUp (r.cacheKey kind) refresh }) hfailed]
    rw [Trail.append_empty] at hturn
    refine ⟨p, link_dashboard_miss hkind hmiss ▸ hp, hturn.mono ⟨fun hok => ⟨compute, hkind, hmiss, hok⟩, ?_⟩ ?_⟩
    · rintro ⟨_, hcompute, -, hok⟩
      obtain rfl := Option.some.inj (hkind.symm.trans hcompute)
      exact hok
    · rintro hreport _ hcompute hlets
      obtain rfl := Option.some.inj (hkind.symm.trans hcompute)
      exact hreport hlets

end Service

/-- A change of documents leaves the link, the cache, the providers and the time as they are. -/
theorem StoreCommand.perform_snd {σ : Type} (c : StoreCommand) (s : Service σ) :
    ∃ files definitions settings history blocks ids, (c.perform.runOn s).2 =
      { s with
        files := files
        definitions := definitions
        settings := settings
        history := history
        blocks := blocks
        ids := ids } := by
  have heffect : ∃ definitions settings history blocks ids, (c.effect s).service =
      { s with
        definitions := definitions
        settings := settings
        history := history
        blocks := blocks
        ids := ids } := by
    cases c <;> simp only [effect] <;> (repeat' split) <;> exact ⟨_, _, _, _, _, rfl⟩
  obtain ⟨definitions, settings, history, blocks, ids, heffect⟩ := heffect
  rw [runOn_perform]
  cases hc : c.effect s with
  | answered r t =>
      rw [hc] at heffect
      exact ⟨s.files, _, _, _, _, _, heffect⟩
  | changed a t =>
      rw [hc, StoreEffect.service_changed] at heffect
      subst heffect
      exact ⟨_, _, _, _, _, _, c.store.written_snd a _⟩

/-! ## The floor -/

/-- The download that a step goes on with. -/
def Step.download? : Step → Option Nat
  | next i | close i => some i
  | _ => none

theorem Ticket.hand_after {σ : Type} (t : Ticket σ) (r : Result (Option String × TextStream σ)) :
    (t.after r).stream.hand = TextStream.handAfter r := by
  cases r <;> rfl

theorem Ticket.sound_after {σ : Type} (t : Ticket (Journal σ)) {r : Result (Option String × TextStream (Journal σ))}
    (h : ∀ chunk rest, r = .ok (chunk, rest) → rest.Sound) : (t.after r).stream.Sound := by
  cases r with
  | error f => trivial
  | ok out => exact h out.1 out.2 rfl

theorem Reaction.map_ofNext_eq_ended {σ : Type} {r : Result (Option String × TextStream σ)} :
    r.map Reaction.ofNext = .ok .ended ↔ ∃ rest, r = .ok (none, rest) := by
  rcases r with f | ⟨_ | chunk, rest⟩ <;> simp [Except.map, Reaction.ofNext]

namespace Floor

variable {σ : Type}

/-- What has happened on a connection, the earliest first. -/
def eventsOn (F : Floor σ) (c : Connection) : List Event :=
  F.link.trace.reverse.filter fun e => e.connection? = some c

/-- The connection that a download has in hand. -/
def hand (F : Floor σ) (i : Nat) : Option (Connection × Stage) := F.downloads[i]?.bind fun t => t.stream.hand

/-- The connection that a step finds in hand; an order finds none. -/
def handAt (F : Floor σ) (a : Step) : Option (Connection × Stage) := a.download?.bind F.hand

variable [Server σ]

/-- The step comes to the end of its transaction and nothing was raised in it; that of a download ends when the stream
is drained. -/
def Completes (F : Floor σ) : Step → Prop
  | .order r o => ∃ x, o.block? F.service r = some x ∧ (x.runOn F.link).1.isOk = true
  | .dashboard kind r refresh => ∃ compute, F.service.providers.get? kind = some compute ∧
      (refresh = true ∨ ∀ v, ¬ F.service.Holds (r.cacheKey kind) v) ∧ (F.service.block compute r).1.isOk = true
  | .next i => F.hand i ≠ none ∧ (F.next i).1 = .ok .ended
  | _ => False

/-- The words for a failure of a database, in the place of an answer; a download that cannot be connected fails without
them. -/
def Reports (F : Floor (Journal σ)) (a : Step) : Prop :=
  match a with
  | .order _ _ => Unread (F.step a).1
  | .dashboard kind _ _ => ∀ compute, F.service.providers.get? kind = some compute → compute.LetsPass →
      Unread (F.step a).1
  | .next i => (F.step a).1 = .error (.refused (.failed .exportRows)) ∨
      F.hand i = none ∧ (F.step a).1 = .error .database
  | _ => False

theorem link_store (F : Floor σ) (c : StoreCommand) : (F.step (.store c)).2.link = F.link := by
  obtain ⟨files, definitions, settings, history, blocks, ids, hsnd⟩ := c.perform_snd F.service
  show (c.perform.runOn F.service).2.link = F.link
  rw [hsnd]
  rfl

/-- What providers there are is never changed. -/
theorem providers_step (F : Floor σ) (a : Step) : (F.step a).2.service.providers = F.service.providers := by
  cases a with
  | order r o =>
      show (F.serve r o).2.service.providers = _
      rw [serve]
      rcases (o.run F.service r).runOn F.link with ⟨_ | _, _⟩ <;> rfl
  | dashboard kind r refresh =>
      obtain ⟨link, cache, hsnd⟩ := F.service.dashboard_snd kind r refresh
      show ((Service.dashboard kind r refresh).runOn F.service).2.providers = _
      rw [hsnd]
  | clearCache pattern => rfl
  | store c =>
      obtain ⟨files, definitions, settings, history, blocks, ids, hsnd⟩ := c.perform_snd F.service
      show (c.perform.runOn F.service).2.providers = _
      rw [hsnd]
  | pass clock now today writable => rfl
  | next i =>
      show (F.next i).2.service.providers = _
      rw [next]
      cases F.downloads[i]? <;> rfl
  | close i =>
      show (F.close i).2.service.providers = _
      rw [close]
      cases F.downloads[i]? <;> rfl

end Floor

namespace Floor

variable {σ : Type}

structure Sound [Server σ] (F : Floor (Journal σ)) : Prop where
  providers : ∀ kind compute, F.service.providers.get? kind = some compute → compute.Executes
  streams : ∀ t ∈ F.downloads, t.stream.Sound

theorem hand_eq_none {F : Floor σ} {i : Nat} (h : F.downloads[i]? = none) : F.hand i = none := by
  rw [hand, h]
  rfl

theorem hand_of_ticket {F : Floor σ} {i : Nat} {t : Ticket σ} (h : F.downloads[i]? = some t) :
    F.hand i = t.stream.hand := by
  rw [hand, h]
  rfl

/-- A download that is begun has nothing in hand. -/
theorem hand_begin (F : Floor σ) (r : Requester) (o : Order) {stream : Option (TextStream σ)}
    (h : ∀ s, stream = some s → s.hand = none) (i : Nat) : (F.begin r o stream).hand i = F.hand i := by
  cases stream with
  | none => simp [hand, begin]
  | some s =>
      rcases Nat.lt_trichotomy i F.downloads.length with hi | rfl | hi
      · simp [hand, begin, List.getElem?_append_left hi]
      · simp [hand, begin, h s rfl]
      · rw [hand_eq_none (List.getElem?_eq_none hi.le), hand_eq_none]
        exact List.getElem?_eq_none (by simpa [begin] using Nat.succ_le_of_lt hi)

theorem hand_putTicket {F : Floor σ} {i : Nat} {t : Ticket σ} (h : F.downloads[i]? = some t) (t' : Ticket σ) (j : Nat) :
    (F.putTicket i t').hand j = if i = j then t'.stream.hand else F.hand j := by
  have hi : i < F.downloads.length := (List.getElem?_eq_some_iff.mp h).1
  simp only [hand, putTicket, List.getElem?_set]
  split
  · simp
  · rfl

variable [Server σ] (hworks : Server.TransactionsWork σ) {F : Floor (Journal σ)}

/-- A step that leaves the downloads and the providers alone. -/
theorem Sound.of_service (hF : F.Sound) {s : Service (Journal σ)} (h : s.providers = F.service.providers) :
    Sound { F with service := s } := by
  refine ⟨?_, hF.streams⟩
  rw [h]
  exact hF.providers

theorem Sound.begin (hF : F.Sound) (l : Link (Journal σ)) (r : Requester) (o : Order)
    {stream : Option (TextStream (Journal σ))} (h : ∀ s, stream = some s → s.Sound) :
    ((F.withLink l).begin r o stream).Sound :=
  ⟨hF.providers, forall_begin hF.streams r o h⟩

theorem Sound.putTicket (hF : F.Sound) (l : Link (Journal σ)) (i : Nat) {t : Ticket (Journal σ)} (h : t.stream.Sound) :
    ((F.withLink l).putTicket i t).Sound :=
  ⟨hF.providers, forall_putTicket hF.streams i h⟩

include hworks

/-- What one step does on the browsed databases; the other downloads keep what they have in hand. -/
theorem turn_step (hF : F.Sound) (a : Step) :
    (∃ p : Trail, p.Between F.link (F.step a).2.link ∧
      p.Turn (F.handAt a) ((F.step a).2.handAt a) (F.Completes a) (F.Reports a)) ∧
    (F.step a).2.Sound ∧ ∀ i, a.download? = some i ∨ (F.step a).2.hand i = F.hand i := by
  -- What is about no database at all.
  have hidle : ∀ committed reported, ¬ committed → ∃ p : Trail, p.Between F.link F.link ∧
      p.Turn none none committed reported := fun committed reported h =>
    ⟨{}, .refl _, (Trail.turn_of_at (Trail.about_empty _) none _).mono ⟨False.elim, h⟩ id⟩
  cases a with
  | order r o =>
      obtain ⟨p, hp, hturn, hfresh⟩ := o.sits hworks F.service r F.link
      show (∃ p : Trail, p.Between F.link (F.serve r o).2.link ∧
        p.Turn none none (F.Completes (.order r o)) (Unread (F.serve r o).1)) ∧
        (F.serve r o).2.Sound ∧ ∀ i, _ ∨ (F.serve r o).2.hand i = F.hand i
      cases hrun : ((o.run F.service r).runOn F.link).1 with
      | error f =>
          rw [hrun] at hturn
          rw [serve_error hrun]
          refine ⟨⟨p, hp, hturn.mono Iff.rfl fun h => congrArg _ (Except.error.inj h)⟩, ?_, fun i => .inr rfl⟩
          exact hF.of_service rfl
      | ok out =>
          obtain ⟨answer, stream⟩ := out
          rw [hrun] at hturn
          rw [serve_ok hrun]
          refine ⟨⟨p, hp, hturn.mono Iff.rfl fun h => nomatch h⟩, ?_, fun i => .inr ?_⟩
          · exact hF.begin _ r o fun s hs => (hfresh _ hrun s hs).1
          · exact hand_begin (F.withLink _) r o (fun s hs => (hfresh _ hrun s hs).2) i
  | dashboard kind r refresh =>
      obtain ⟨p, hp, hturn⟩ := F.service.turn_dashboard hworks hF.providers kind r refresh
      refine ⟨⟨p, hp, hturn.mono Iff.rfl fun h compute hcompute hlets => ?_⟩, ?_, fun i => .inr rfl⟩
      · show Unread (Except.map _ _)
        rw [h compute hcompute hlets]
        rfl
      · exact hF.of_service (F.providers_step (.dashboard kind r refresh))
  | clearCache pattern => exact ⟨hidle _ _ id, hF.of_service rfl, fun i => .inr rfl⟩
  | store c =>
      rw [link_store]
      exact ⟨hidle _ _ id, hF.of_service (F.providers_step (.store c)), fun i => .inr rfl⟩
  | pass clock now today writable => exact ⟨hidle _ _ id, hF.of_service rfl, fun i => .inr rfl⟩
  | next i =>
      show (∃ p : Trail, p.Between F.link (F.next i).2.link ∧
        p.Turn (F.hand i) ((F.next i).2.hand i) (F.hand i ≠ none ∧ (F.next i).1 = .ok .ended)
          ((F.next i).1 = .error (.refused (.failed .exportRows)) ∨
            F.hand i = none ∧ (F.next i).1 = .error .database)) ∧
        (F.next i).2.Sound ∧ ∀ j, _ ∨ (F.next i).2.hand j = F.hand j
      cases ht : F.downloads[i]? with
      | none =>
          rw [next_of_none ht, hand_eq_none ht]
          exact ⟨hidle _ _ fun h => h.1 rfl, hF, fun j => .inr rfl⟩
      | some t =>
          obtain ⟨p, hp, hturn, hsound⟩ :=
            TextStream.trails_next hworks (hF.streams t (List.mem_of_getElem? ht)) F.link
          have hput := hand_putTicket (F := F.withLink (t.stream.next.runOn F.link).2) ht
            (t.after (t.stream.next.runOn F.link).1)
          rw [next_of_ticket ht, hand_of_ticket ht]
          refine ⟨⟨p, hp, ?_⟩, hF.putTicket _ i (t.sound_after hsound), fun j => ?_⟩
          · show p.Turn _ (((F.withLink _).putTicket i (t.after (t.stream.next.runOn F.link).1)).hand i) _ _
            rw [hput i, if_pos rfl, t.hand_after]
            refine hturn.mono (and_congr_right fun _ => ?_) (.imp ?_ (.imp_right ?_))
            · rw [Reaction.map_ofNext_eq_ended]
              rfl
            · exact fun h => congrArg (Except.map Reaction.ofNext) h
            · exact fun h => congrArg (Except.map Reaction.ofNext) h
          · by_cases hj : i = j
            · exact .inl (congrArg some hj)
            · exact .inr ((hput j).trans (if_neg hj))
  | close i =>
      show (∃ p : Trail, p.Between F.link (F.close i).2.link ∧ p.Turn (F.hand i) ((F.close i).2.hand i) False False) ∧
        (F.close i).2.Sound ∧ ∀ j, _ ∨ (F.close i).2.hand j = F.hand j
      cases ht : F.downloads[i]? with
      | none =>
          rw [close_of_none ht, hand_eq_none ht]
          exact ⟨hidle _ _ id, hF, fun j => .inr rfl⟩
      | some t =>
          obtain ⟨p, hp, hturn⟩ := TextStream.trails_close hworks (hF.streams t (List.mem_of_getElem? ht)) F.link
          have hput := hand_putTicket (F := F.withLink (t.stream.close.runOn F.link).2) ht
            { t with stream := .finished }
          rw [close_of_ticket ht, hand_of_ticket ht]
          refine ⟨⟨p, hp, ?_⟩, hF.putTicket _ i trivial, fun j => ?_⟩
          · show p.Turn _ (((F.withLink _).putTicket i { t with stream := .finished }).hand i) _ _
            rw [hput i, if_pos rfl]
            exact hturn
          · by_cases hj : i = j
            · exact .inl (congrArg some hj)
            · exact .inr ((hput j).trans (if_neg hj))

end Floor

end TableSteward

import TableSteward.Proofs.ExportForecast

/-!
# The registry of pools

The pool of a database is an engine, which a factory builds when the database is first used.  The factory may fail any
call, and what it builds stands until the registry is disposed of.  A `Registry` is the pools together with a log of
what was built, failed and disposed of.  One invariant, `Sound`, goes along with every command, and `engines_managed`
reads off it that engines are neither doubled nor lost.
-/
set_option autoImplicit false

namespace TableSteward

namespace DatabaseAddress

/-- The last of the databases with a name. -/
def lastOf? (ds : List DatabaseAddress) (name : String) : Option DatabaseAddress :=
  (ds.filter (·.name == name)).getLast?

theorem get?_ofPairs (ds : List DatabaseAddress) (name : String) :
    (Entries.ofPairs (ds.map fun d => (d.name, d.url))).get? name = (lastOf? ds name).map DatabaseAddress.url := by
  induction ds using List.reverseRecOn with
  | nil => rfl
  | append_singleton ds d ih =>
      rw [List.map_append, List.map_singleton, Entries.ofPairs_concat, Entries.get?_put, ih, lastOf?, lastOf?,
        List.filter_append]
      by_cases hname : d.name = name
      · simp [hname]
      · simp [hname, Ne.symm hname]

theorem startsWith_iff {url scheme : String} : url.startsWith scheme = true ↔ ∃ rest, url = scheme ++ rest := by
  rw [String.startsWith_string_iff]
  constructor
  · intro ⟨rest, hrest⟩
    exact ⟨String.ofList rest, String.toList_inj.mp (by simpa using hrest.symm)⟩
  · intro ⟨rest, hrest⟩
    exact ⟨rest.toList, by simp [hrest]⟩

/-- The scheme of an address is put into the form that drivers know, and nothing else of it changes. -/
theorem canonicalUrl_postgres (rest : String) : canonicalUrl ("postgres://" ++ rest) = "postgresql://" ++ rest := by
  rw [canonicalUrl, if_pos (startsWith_iff.mpr ⟨rest, rfl⟩)]
  simp

theorem canonicalUrl_other {url : String} (h : ∀ rest, url ≠ "postgres://" ++ rest) : canonicalUrl url = url := by
  rw [canonicalUrl, if_neg]
  intro hstarts
  obtain ⟨rest, hrest⟩ := startsWith_iff.mp hstarts
  exact h rest hrest

end DatabaseAddress

open DatabaseAddress

/-! ## Engines -/

/-- Whether a call of the factory fails, by the number of calls before it and by what it is called with. -/
abbrev EngineFactory := Nat → PoolRequest → Option Fault

/-- What happens to engines.  An engine goes by the number of calls of the factory before its own. -/
inductive EngineEvent
  | built (name : String) (request : PoolRequest) (engine : Nat)
  | failed (name : String) (request : PoolRequest) (fault : Fault)
  | disposed (engine : Nat)

namespace EngineEvent

/-- The name that the factory is called for, and what it is called with. -/
def call? : EngineEvent → Option (String × PoolRequest)
  | built name request _ | failed name request _ => some (name, request)
  | disposed _ => none

def built? : EngineEvent → Option Nat
  | built _ _ engine => some engine
  | failed .. | disposed _ => none

def disposed? : EngineEvent → Option Nat
  | disposed engine => some engine
  | built .. | failed .. => none

/-- The engines that stand after an event, by their names. -/
def onLive (live : Entries Nat) : EngineEvent → Entries Nat
  | built name _ engine => live ++ [(name, engine)]
  | failed .. => live
  | disposed engine => live.filter (·.2 != engine)

end EngineEvent

/-- What happened to engines, in the order of time. -/
abbrev EngineLog := List EngineEvent

namespace EngineLog

def calls (log : EngineLog) : List (String × PoolRequest) := log.filterMap EngineEvent.call?

def built (log : EngineLog) : List Nat := log.filterMap EngineEvent.built?

def disposed (log : EngineLog) : List Nat := log.filterMap EngineEvent.disposed?

/-- The engines that were built and not disposed of, by the names that they were built for. -/
def live (log : EngineLog) : Entries Nat := log.foldl EngineEvent.onLive []

theorem filterMap_concat {α : Type} (f : EngineEvent → Option α) (log : EngineLog) (e : EngineEvent) :
    (log ++ [e]).filterMap f = log.filterMap f ++ (f e).toList := by
  rw [List.filterMap_append]
  cases hf : f e <;> simp [hf]

theorem live_concat (log : EngineLog) (e : EngineEvent) : live (log ++ [e]) = e.onLive log.live := by
  rw [live, List.foldl_append]
  rfl

theorem live_dispose (log : EngineLog) (engines : List Nat) :
    live (log ++ engines.map .disposed) = log.live.filter fun e => !engines.contains e.2 := by
  induction engines using List.reverseRecOn with
  | nil => simp
  | append_singleton engines engine ih =>
      rw [List.map_append, List.map_singleton, ← List.append_assoc, live_concat, ih, EngineEvent.onLive,
        List.filter_filter]
      apply List.filter_congr
      intro e _
      by_cases he : e.2 = engine <;> simp [he]

end EngineLog

/-- A call of the factory, with what is added to the log. -/
def EngineFactory.build (factory : EngineFactory) (name : String) (request : PoolRequest) :
    ExceptT Fault (StateM EngineLog) Nat :=
  ExceptT.mk fun log =>
    match factory log.calls.length request with
    | none => (.ok log.calls.length, log ++ [.built name request log.calls.length])
    | some fault => (.error fault, log ++ [.failed name request fault])

/-- The pools with the log of their engines. -/
structure Registry where
  pools : Pools Nat
  log : EngineLog := []

inductive RegistryCommand
  | engine (name : String)
  /-- Something is read in a session on the engine, which may end in a fault. -/
  | read (name : String) (session : Nat → Option Fault)
  | dispose

namespace Registry

def new (ds : List DatabaseAddress) (settings : PoolSettings) : Registry := ⟨Pools.ofAddresses ds settings, []⟩

def engine (factory : EngineFactory) (name : String) (s : Registry) : Result Nat × Registry :=
  match (s.pools.get (factory.build name) name).run.run s.log with
  | (.ok (engine, pools), log) => (.ok engine, ⟨pools, log⟩)
  | (.error f, log) => (.error f, ⟨s.pools, log⟩)

/-- The session runs on the engine of the name, and the registry is what it is after getting the engine. -/
def read (factory : EngineFactory) (name : String) (session : Nat → Option Fault) (s : Registry) :
    Result Nat × Registry :=
  match s.engine factory name with
  | (.ok engine, t) => ((session engine).elim (.ok engine) .error, t)
  | (.error f, t) => (.error f, t)

def dispose (s : Registry) : Registry :=
  ⟨s.pools.dispose, s.log ++ (s.pools.opened.map Prod.snd).map .disposed⟩

def run (factory : EngineFactory) (s : Registry) : RegistryCommand → Registry
  | .engine name => (s.engine factory name).2
  | .read name session => (s.read factory name session).2
  | .dispose => s.dispose

def after (factory : EngineFactory) (s : Registry) (commands : List RegistryCommand) : Registry :=
  commands.foldl (run factory) s

variable {factory : EngineFactory}

/-- An engine that stands is given again; otherwise the factory is called, if the name is configured. -/
theorem engine_eq (factory : EngineFactory) (name : String) (s : Registry) :
    s.engine factory name =
      match s.pools.opened.get? name, s.pools.addresses.get? name with
      | some engine, _ => (.ok engine, s)
      | none, none => (.error (.refused (.databaseNotFound name)), s)
      | none, some url =>
          match factory s.log.calls.length ⟨canonicalUrl url, s.pools.settings⟩ with
          | none =>
              (.ok s.log.calls.length,
                ⟨{ s.pools with opened := s.pools.opened ++ [(name, s.log.calls.length)] },
                  s.log ++ [.built name ⟨canonicalUrl url, s.pools.settings⟩ s.log.calls.length]⟩)
          | some fault =>
              (.error fault,
                { s with log := s.log ++ [.failed name ⟨canonicalUrl url, s.pools.settings⟩ fault] }) := by
  unfold engine Pools.get
  cases s.pools.opened.get? name with
  | some engine => rfl
  | none =>
      cases s.pools.addresses.get? name with
      | none => rfl
      | some url =>
          have hbuild : ((factory.build name ⟨canonicalUrl url, s.pools.settings⟩).run.run s.log :
              Result Nat × EngineLog) =
                match factory s.log.calls.length ⟨canonicalUrl url, s.pools.settings⟩ with
                | none => (.ok s.log.calls.length,
                    s.log ++ [.built name ⟨canonicalUrl url, s.pools.settings⟩ s.log.calls.length])
                | some fault =>
                    (.error fault, s.log ++ [.failed name ⟨canonicalUrl url, s.pools.settings⟩ fault]) := rfl
          simp only [ExceptT.run_bind, StateT.run_bind, hbuild]
          cases factory s.log.calls.length ⟨canonicalUrl url, s.pools.settings⟩ <;> rfl

theorem read_snd (name : String) (session : Nat → Option Fault) (s : Registry) :
    (s.read factory name session).2 = (s.engine factory name).2 := by
  unfold read
  rcases s.engine factory name with ⟨f | engine, t⟩ <;> rfl

/-! ## What holds of every registry -/

/-- The factory was called for what needs an engine: a name that is configured and had none. -/
def Needed (ds : List DatabaseAddress) (settings : PoolSettings) (log : EngineLog) : Prop :=
  ∀ (before : EngineLog) event, before ++ [event] <+: log → ∀ name request, event.call? = some (name, request) →
    name ∉ before.live.keys ∧ ∃ d, lastOf? ds name = some d ∧ request = ⟨canonicalUrl d.url, settings⟩

structure Sound (ds : List DatabaseAddress) (settings : PoolSettings) (s : Registry) : Prop where
  addresses : s.pools.addresses = Entries.ofPairs (ds.map fun d => (d.name, d.url))
  options : s.pools.settings = settings
  /-- The registry holds the engines that were built and not disposed of. -/
  live : s.log.live = s.pools.opened
  single : s.pools.opened.keys.Nodup
  configured : ∀ name ∈ s.pools.opened.keys, ∃ d, lastOf? ds name = some d
  needed : Needed ds settings s.log
  /-- Engines are told apart by their numbers. -/
  distinct : s.log.built.Nodup
  numbered : ∀ engine ∈ s.log.built, engine < s.log.calls.length
  /-- Every engine was disposed of or is held. -/
  accounted : s.log.built.Perm (s.log.disposed ++ s.pools.opened.map Prod.snd)

variable {ds : List DatabaseAddress} {settings : PoolSettings} {s : Registry}

theorem sound_new (ds : List DatabaseAddress) (settings : PoolSettings) : (new ds settings).Sound ds settings where
  addresses := rfl
  options := rfl
  live := rfl
  single := List.nodup_nil
  configured := nofun
  needed := by
    intro before event h
    simp [new] at h
  distinct := List.nodup_nil
  numbered := nofun
  accounted := .nil

theorem Needed.concat {log : EngineLog} (h : Needed ds settings log) {event : EngineEvent}
    (hevent : ∀ name request, event.call? = some (name, request) →
      name ∉ log.live.keys ∧ ∃ d, lastOf? ds name = some d ∧ request = ⟨canonicalUrl d.url, settings⟩) :
    Needed ds settings (log ++ [event]) := by
  intro before e hprefix
  rcases List.prefix_concat_iff.mp hprefix with hlast | hearlier
  · obtain ⟨rfl, he⟩ := List.append_inj' hlast rfl
    obtain rfl := List.singleton_inj.mp he
    exact hevent
  · exact h before e hearlier

theorem Needed.dispose {log : EngineLog} (h : Needed ds settings log) (engines : List Nat) :
    Needed ds settings (log ++ engines.map .disposed) := by
  induction engines using List.reverseRecOn with
  | nil => simpa using h
  | append_singleton engines engine ih =>
      rw [List.map_append, List.map_singleton, ← List.append_assoc]
      exact ih.concat nofun

/-- A call of the factory that fails changes nothing but the log. -/
theorem Sound.failed (h : s.Sound ds settings) {name : String} {request : PoolRequest} {fault : Fault}
    (hneeded : ∀ name' request', some (name, request) = some (name', request') → name' ∉ s.log.live.keys ∧
      ∃ d, lastOf? ds name' = some d ∧ request' = ⟨canonicalUrl d.url, settings⟩) :
    Sound ds settings { s with log := s.log ++ [.failed name request fault] } := by
  have hbuilt : EngineLog.built (s.log ++ [.failed name request fault]) = s.log.built :=
    (EngineLog.filterMap_concat ..).trans (List.append_nil _)
  have hdisposed : EngineLog.disposed (s.log ++ [.failed name request fault]) = s.log.disposed :=
    (EngineLog.filterMap_concat ..).trans (List.append_nil _)
  have hcalls : EngineLog.calls (s.log ++ [.failed name request fault]) = s.log.calls ++ [(name, request)] :=
    EngineLog.filterMap_concat ..
  exact
    { h with
      live := (EngineLog.live_concat ..).trans h.live
      needed := h.needed.concat hneeded
      distinct := hbuilt ▸ h.distinct
      numbered := by
        intro engine hengine
        rw [hbuilt] at hengine
        rw [hcalls, List.length_append]
        exact Nat.lt_add_right _ (h.numbered engine hengine)
      accounted := by
        rw [hbuilt, hdisposed]
        exact h.accounted }

/-- An engine that is built is a new one, and the registry holds it. -/
theorem Sound.built (h : s.Sound ds settings) {name : String} (hnew : name ∉ s.pools.opened.keys)
    (hconfigured : ∃ d, lastOf? ds name = some d) {request : PoolRequest}
    (hneeded : ∀ name' request', some (name, request) = some (name', request') → name' ∉ s.log.live.keys ∧
      ∃ d, lastOf? ds name' = some d ∧ request' = ⟨canonicalUrl d.url, settings⟩) :
    Sound ds settings
      ⟨{ s.pools with opened := s.pools.opened ++ [(name, s.log.calls.length)] },
        s.log ++ [.built name request s.log.calls.length]⟩ := by
  have hbuilt : EngineLog.built (s.log ++ [.built name request s.log.calls.length]) =
      s.log.built ++ [s.log.calls.length] := EngineLog.filterMap_concat ..
  have hdisposed : EngineLog.disposed (s.log ++ [.built name request s.log.calls.length]) = s.log.disposed :=
    (EngineLog.filterMap_concat ..).trans (List.append_nil _)
  have hcalls : EngineLog.calls (s.log ++ [.built name request s.log.calls.length]) =
      s.log.calls ++ [(name, request)] := EngineLog.filterMap_concat ..
  have hkeys : Entries.keys (s.pools.opened ++ [(name, s.log.calls.length)]) = s.pools.opened.keys ++ [name] := by
    simp [Entries.keys]
  have hlast : s.log.calls.length ∉ s.log.built := fun hmem => absurd (h.numbered _ hmem) (lt_irrefl _)
  exact
    { addresses := h.addresses
      options := h.options
      live := by rw [EngineLog.live_concat, h.live]; rfl
      single := by
        rw [hkeys]
        exact List.nodup_append.mpr
          ⟨h.single, List.nodup_singleton name, by simpa using fun a ha => ne_of_mem_of_not_mem ha hnew⟩
      configured := by
        intro name' hname'
        rw [hkeys, List.mem_append, List.mem_singleton] at hname'
        rcases hname' with hheld | rfl
        · exact h.configured name' hheld
        · exact hconfigured
      needed := h.needed.concat hneeded
      distinct := by
        rw [hbuilt]
        exact List.nodup_append.mpr
          ⟨h.distinct, List.nodup_singleton _, by simpa using fun a ha => ne_of_mem_of_not_mem ha hlast⟩
      numbered := by
        intro engine hengine
        rw [hbuilt, List.mem_append, List.mem_singleton] at hengine
        rw [hcalls, List.length_append, List.length_singleton]
        rcases hengine with hearlier | rfl
        · exact Nat.lt_succ_of_lt (h.numbered engine hearlier)
        · exact Nat.lt_succ_self _
      accounted := by
        rw [hbuilt, hdisposed, List.map_append, ← List.append_assoc]
        exact h.accounted.append_right _ }

theorem Sound.engine (h : s.Sound ds settings) (name : String) : (s.engine factory name).2.Sound ds settings := by
  rw [engine_eq]
  cases hopened : s.pools.opened.get? name with
  | some engine => exact h
  | none =>
      cases hurl : s.pools.addresses.get? name with
      | none => exact h
      | some url =>
          have hnew : name ∉ s.pools.opened.keys := Entries.get?_eq_none_iff.mp hopened
          obtain ⟨d, hd, rfl⟩ : ∃ d, lastOf? ds name = some d ∧ d.url = url := by
            rw [h.addresses, get?_ofPairs] at hurl
            exact Option.map_eq_some_iff.mp hurl
          have hneeded : ∀ name' request', some (name, (⟨canonicalUrl d.url, s.pools.settings⟩ : PoolRequest)) =
              some (name', request') → name' ∉ s.log.live.keys ∧
                ∃ d, lastOf? ds name' = some d ∧ request' = ⟨canonicalUrl d.url, settings⟩ := by
            intro name' request' hcall
            cases hcall
            exact ⟨h.live ▸ hnew, d, hd, by rw [h.options]⟩
          dsimp only
          cases factory s.log.calls.length ⟨canonicalUrl d.url, s.pools.settings⟩ with
          | some fault => exact h.failed hneeded
          | none => exact h.built hnew ⟨d, hd⟩ hneeded

theorem Sound.dispose (h : s.Sound ds settings) : s.dispose.Sound ds settings := by
  have hbuilt : EngineLog.built s.dispose.log = s.log.built := by
    simp [EngineLog.built, Registry.dispose, Function.comp_def, EngineEvent.built?]
  have hdisposed : EngineLog.disposed s.dispose.log = s.log.disposed ++ s.pools.opened.map Prod.snd := by
    simp [EngineLog.disposed, Registry.dispose, Function.comp_def, EngineEvent.disposed?]
  have hcalls : EngineLog.calls s.dispose.log = s.log.calls := by
    simp [EngineLog.calls, Registry.dispose, Function.comp_def, EngineEvent.call?]
  exact
    { addresses := h.addresses
      options := h.options
      live := by
        rw [Registry.dispose, EngineLog.live_dispose, h.live]
        apply List.filter_eq_nil_iff.mpr
        intro e he
        simpa using ⟨e.1, he⟩
      single := List.nodup_nil
      configured := nofun
      needed := h.needed.dispose _
      distinct := hbuilt ▸ h.distinct
      numbered := by
        rw [hbuilt, hcalls]
        exact h.numbered
      accounted := by
        rw [hbuilt, hdisposed]
        simpa [Registry.dispose, Pools.dispose] using h.accounted }

theorem Sound.run (h : s.Sound ds settings) (c : RegistryCommand) : (s.run factory c).Sound ds settings := by
  cases c with
  | engine name => exact h.engine name
  | read name session =>
      rw [Registry.run, read_snd]
      exact h.engine name
  | dispose => exact h.dispose

theorem Sound.after (h : s.Sound ds settings) (commands : List RegistryCommand) :
    (s.after factory commands).Sound ds settings := by
  induction commands generalizing s with
  | nil => exact h
  | cons c commands ih => exact ih (h.run c)

theorem Sound.disposed_once (h : s.Sound ds settings) : s.log.disposed.Nodup :=
  (List.nodup_append.mp (h.accounted.nodup_iff.mp h.distinct)).1

/-! ## Getting an engine -/

theorem Sound.engine_of_unknown (h : s.Sound ds settings) {name : String} (hname : ∀ d ∈ ds, d.name ≠ name) :
    s.engine factory name = (.error (.refused (.databaseNotFound name)), s) := by
  have hnone : lastOf? ds name = none := by
    simpa [lastOf?] using hname
  have hurl : s.pools.addresses.get? name = none := by
    rw [h.addresses, get?_ofPairs, hnone]
    rfl
  have hopened : s.pools.opened.get? name = none := by
    apply Entries.get?_eq_none_iff.mpr
    intro hheld
    obtain ⟨d, hd⟩ := h.configured name hheld
    exact nomatch hnone.symm.trans hd
  rw [engine_eq, hopened, hurl]

/-- Without an engine the factory is called once. -/
theorem Sound.engine_of_none (h : s.Sound ds settings) (factory : EngineFactory) {name : String} {d : DatabaseAddress}
    (hopened : s.pools.opened.get? name = none) (hd : lastOf? ds name = some d) :
    s.engine factory name =
      match factory s.log.calls.length ⟨canonicalUrl d.url, settings⟩ with
      | none =>
          (.ok s.log.calls.length,
            ⟨{ s.pools with opened := s.pools.opened ++ [(name, s.log.calls.length)] },
              s.log ++ [.built name ⟨canonicalUrl d.url, settings⟩ s.log.calls.length]⟩)
      | some fault =>
          (.error fault, { s with log := s.log ++ [.failed name ⟨canonicalUrl d.url, settings⟩ fault] }) := by
  have hurl : s.pools.addresses.get? name = some d.url := by
    rw [h.addresses, get?_ofPairs, hd]
    rfl
  rw [engine_eq, hopened, hurl, h.options]

/-! ## Engines between disposals -/

variable {name : String} {e : Nat}

theorem engine_of_held (h : s.pools.opened.get? name = some e) : s.engine factory name = (.ok e, s) := by
  rw [engine_eq, h]

theorem held_of_engine (h : (s.engine factory name).1 = .ok e) :
    (s.engine factory name).2.pools.opened.get? name = some e := by
  rw [engine_eq] at h ⊢
  cases hopened : s.pools.opened.get? name with
  | some engine =>
      rw [hopened] at h
      cases h
      exact hopened
  | none =>
      cases hurl : s.pools.addresses.get? name with
      | none =>
          rw [hopened, hurl] at h
          cases h
      | some url =>
          simp only [hopened, hurl] at h ⊢
          cases hfails : factory s.log.calls.length ⟨canonicalUrl url, s.pools.settings⟩ with
          | some fault =>
              rw [hfails] at h
              cases h
          | none =>
              rw [hfails] at h
              cases h
              have hlookup : List.lookup name s.pools.opened = none := hopened
              simp [Entries.get?, List.lookup_append, hlookup]

/-- Getting an engine takes none away. -/
theorem opened_engine (factory : EngineFactory) (name : String) (s : Registry) :
    ∃ more, (s.engine factory name).2.pools.opened = s.pools.opened ++ more := by
  rw [engine_eq]
  split
  · exact ⟨[], (List.append_nil _).symm⟩
  · exact ⟨[], (List.append_nil _).symm⟩
  · split
    · exact ⟨_, rfl⟩
    · exact ⟨[], (List.append_nil _).symm⟩

theorem held_run (h : s.pools.opened.get? name = some e) {c : RegistryCommand} (hc : c ≠ .dispose) :
    (s.run factory c).pools.opened.get? name = some e := by
  have hlookup : List.lookup name s.pools.opened = some e := h
  have hengine : ∀ name', (s.engine factory name').2.pools.opened.get? name = some e := by
    intro name'
    obtain ⟨more, hmore⟩ := opened_engine factory name' s
    simp [hmore, Entries.get?, List.lookup_append, hlookup]
  cases c with
  | engine name' => exact hengine name'
  | read name' session =>
      rw [run, read_snd]
      exact hengine name'
  | dispose => exact absurd rfl hc

theorem held_after (h : s.pools.opened.get? name = some e) {commands : List RegistryCommand}
    (hcommands : RegistryCommand.dispose ∉ commands) : (s.after factory commands).pools.opened.get? name = some e := by
  induction commands generalizing s with
  | nil => exact h
  | cons c commands ih =>
      rw [List.mem_cons, not_or] at hcommands
      exact ih (held_run h (Ne.symm hcommands.1)) hcommands.2

end Registry

/-! ## The registry of a link -/

/-- The pools of a link do not tell engines apart. -/
def Pools.forget (p : Pools Nat) : Pools Unit := { p with opened := p.opened.map fun e => (e.1, ()) }

namespace Exchange

variable {σ α β : Type}

/-- The computation leaves the pools as they are. -/
def LeavesPools (x : Exchange σ α) : Prop := ∀ l, (x.runOn l).2.pools = l.pools

theorem Modest.leavesPools {x : Exchange σ α} (h : Modest x) : LeavesPools x := by
  intro l
  obtain ⟨p, hpools, -, rfl⟩ := h l
  exact hpools.trans (by rw [List.append_nil])

theorem LeavesPools.bind {x : Exchange σ α} {k : α → Exchange σ β} (hx : LeavesPools x)
    (hk : ∀ a, LeavesPools (k a)) : LeavesPools (x >>= k) := by
  intro l
  have hfirst := hx l
  rw [runOn_bind]
  rcases hrun : x.runOn l with ⟨f | a, m⟩ <;> rw [hrun] at hfirst
  · exact hfirst
  · exact (hk a m).trans hfirst

theorem LeavesPools.attempt {x : Exchange σ α} (hx : LeavesPools x) : LeavesPools (attempt x) := by
  intro l
  rw [runOn_attempt]
  exact hx l

theorem LeavesPools.reporting {x : Exchange σ α} (task : FailedTask) (hx : LeavesPools x) :
    LeavesPools (reporting task x) := by
  intro l
  rw [runOn_reporting]
  exact hx l

theorem leavesPools_lift (r : Result α) : LeavesPools (lift r : Exchange σ α) := by
  cases r <;> exact fun _ => rfl

variable [Server σ]

theorem leavesPools_within {c : Connection} {milliseconds : Int} {body : Exchange σ α} (hbody : LeavesPools body) :
    LeavesPools (within c milliseconds body) := by
  have hentering : LeavesPools (entering c milliseconds : Exchange σ Unit) :=
    ((modest_execute c _).discard.bind fun _ => (modest_execute c _).discard).leavesPools
  rw [within, inTransaction_eq]
  refine (modest_told _ _).leavesPools.bind fun _ => (hentering.bind fun _ => hbody).attempt.bind fun r => ?_
  cases r with
  | ok a => exact (modest_told _ _).leavesPools.bind fun _ => (modest_pure a).leavesPools
  | error f => exact (modest_told _ _).leavesPools.bind fun _ => leavesPools_lift (.error f)

theorem leavesPools_onConnection (site : Site) {body : Connection → Exchange σ α}
    (hbody : ∀ c, LeavesPools (body c)) : LeavesPools (onConnection site body) :=
  (modest_connect site).leavesPools.bind fun c => (hbody c).attempt.bind fun r =>
    (modest_note _).leavesPools.bind fun _ => leavesPools_lift r

/-- A session leaves the pools as they are once its own is open. -/
theorem pools_readOnly (name : String) (timeout : Value) {body : Connection → Exchange σ α}
    (hbody : ∀ c, LeavesPools (body c)) (l : Link σ) :
    ((readOnly name timeout body).runOn l).2.pools = ((usePool name).runOn l).2.pools ∧
      ∀ f, ((usePool name).runOn l).1 = .error f → ((readOnly name timeout body).runOn l).1 = .error f := by
  have hblock : LeavesPools (do
      let milliseconds ← lift timeout.toInteger
      reporting .readRows <| onConnection (.browsed name) fun c => within c milliseconds (body c)
      : Exchange σ α) :=
    (leavesPools_lift _).bind fun milliseconds =>
      (leavesPools_onConnection _ fun c => leavesPools_within (hbody c)).reporting _
  rw [readOnly_eq, runOn_bind]
  rcases (usePool name).runOn l with ⟨f | u, m⟩
  · refine ⟨rfl, fun g h => ?_⟩
    cases h
    rfl
  · exact ⟨hblock m, nofun⟩

omit [Server σ] in
theorem runOn_dispose (l : Link σ) :
    (dispose : Exchange σ Unit).runOn l =
      (.ok (), { l with
        trace := (l.pools.opened.keys.map Event.disposed).reverse ++ l.trace
        pools := l.pools.dispose }) := by
  have hnotes : ∀ (names : List String) (l : Link σ),
      (forIn names PUnit.unit fun name _ => do
        note (.disposed name)
        pure (ForInStep.yield PUnit.unit) : Exchange σ PUnit).runOn l =
        (.ok ⟨⟩, { l with trace := (names.map Event.disposed).reverse ++ l.trace }) := by
    intro names
    induction names with
    | nil => exact fun _ => rfl
    | cons name names ih =>
        intro l
        simp only [List.forIn_cons, bind_assoc, pure_bind, runOn_bind, runOn_note, ih]
        simp
  simp only [dispose, runOn_bind, runOn_get]
  rw [hnotes]
  rfl

end Exchange

theorem Pools.get?_forget (p : Pools Nat) (name : String) :
    p.forget.opened.get? name = (p.opened.get? name).map fun _ => () := by
  unfold forget
  dsimp only
  induction p.opened with
  | nil => rfl
  | cons e opened ih =>
      obtain ⟨key, engine⟩ := e
      rw [List.map_cons, Entries.get?_cons, Entries.get?_cons, ih]
      split <;> rfl

/-- The pool of a database is used as its engine is got, where the factory builds whatever it is called for. -/
theorem Registry.runOn_usePool {σ : Type} {factory : EngineFactory} (hbuilds : ∀ n request, factory n request = none)
    (name : String) {s : Registry} {l : Link σ} (hl : l.pools = s.pools.forget) :
    (Exchange.usePool name).runOn l =
      ((s.engine factory name).1.map fun _ => (), { l with pools := (s.engine factory name).2.pools.forget }) := by
  have hlink : l = { l with pools := s.pools.forget } := by rw [← hl]
  have haddresses : s.pools.forget.addresses = s.pools.addresses := rfl
  rw [Exchange.runOn_usePool, engine_eq, hl, Pools.get?_forget, haddresses]
  cases s.pools.opened.get? name with
  | some engine => exact congrArg (Prod.mk _) hlink
  | none =>
      cases s.pools.addresses.get? name with
      | none => exact congrArg (Prod.mk _) hlink
      | some url => simp [hbuilds, Except.map, Pools.forget]

namespace Registry

variable {σ α : Type} [Server σ]

/-- However the registry is used and whichever calls of the factory fail: no name has two engines that stand.  The
factory is called for names that are configured and have none, with their last address in the scheme of drivers and with
no overflow.  An engine that stands is given again until the registry is disposed of; an unknown name, and a call of the
factory that fails, leave the pools as they are, and so does whatever happens in a session.  Disposal takes every engine
that stands, each once.  The link to the databases goes by the same registry. -/
theorem engines_managed (ds : List DatabaseAddress) (settings : PoolSettings) (factory : EngineFactory)
    (commands : List RegistryCommand) :
    let s := (new ds settings).after factory commands
    (s.log.live.keys.Nodup ∧ ∀ name ∈ s.log.live.keys, ∃ d ∈ ds, d.name = name) ∧
    (∀ (before : EngineLog) event, before ++ [event] <+: s.log → ∀ name request,
      event.call? = some (name, request) → name ∉ before.live.keys ∧
        ∃ d, lastOf? ds name = some d ∧ request.settings = settings ∧
          (∀ rest, d.url = "postgres://" ++ rest → request.url = "postgresql://" ++ rest) ∧
          ((∀ rest, d.url ≠ "postgres://" ++ rest) → request.url = d.url) ∧
          request.arguments.entry? "max_overflow" = some (.int 0)) ∧
    (∀ name,
      (∀ e, s.log.live.get? name = some e → s.engine factory name = (.ok e, s)) ∧
      ((∀ d ∈ ds, d.name ≠ name) → s.engine factory name = (.error (.refused (.databaseNotFound name)), s)) ∧
      ∀ d, s.log.live.get? name = none → lastOf? ds name = some d →
        let request : PoolRequest := ⟨canonicalUrl d.url, settings⟩
        let t := (s.engine factory name).2
        match factory s.log.calls.length request with
        | some fault =>
            (s.engine factory name).1 = .error fault ∧ t.pools = s.pools ∧
              t.log = s.log ++ [.failed name request fault] ∧ t.log.live = s.log.live
        | none =>
            ∃ e ∉ s.log.built, (s.engine factory name).1 = .ok e ∧ t.log = s.log ++ [.built name request e] ∧
              t.log.live = s.log.live ++ [(name, e)]) ∧
    (∀ name e more, (s.engine factory name).1 = .ok e → RegistryCommand.dispose ∉ more →
      let t := (s.engine factory name).2.after factory more
      t.engine factory name = (.ok e, t)) ∧
    (s.dispose.log = s.log ++ (s.log.live.map Prod.snd).map .disposed ∧ s.dispose.log.live = [] ∧
      s.dispose.log.disposed.Nodup) ∧
    ((∀ n request, factory n request = none) → ∀ l : Link σ, l.pools = s.pools.forget →
      (∀ name timeout session (body : Connection → Exchange σ α), (∀ c, Exchange.LeavesPools (body c)) →
        ((Exchange.readOnly name timeout body).runOn l).2.pools = (s.run factory (.read name session)).pools.forget ∧
        ∀ f, (s.engine factory name).1 = .error f → ((Exchange.readOnly name timeout body).runOn l).1 = .error f) ∧
      (Exchange.dispose.runOn l).2.pools = s.dispose.pools.forget ∧
      (Exchange.dispose.runOn l).2.trace = (s.log.live.keys.map Event.disposed).reverse ++ l.trace) := by
  intro s
  have hsound : s.Sound ds settings := (sound_new ds settings).after commands
  have hlink : (∀ n request, factory n request = none) → ∀ l : Link σ, l.pools = s.pools.forget → ∀ name,
      (Exchange.usePool name).runOn l =
        ((s.engine factory name).1.map fun _ => (), { l with pools := (s.engine factory name).2.pools.forget }) :=
    fun hbuilds l hl name => runOn_usePool hbuilds name hl
  refine ⟨⟨?_, ?_⟩, ?_, ?_, ?_, ⟨?_, hsound.dispose.live, hsound.dispose.disposed_once⟩, ?_⟩
  · exact hsound.live ▸ hsound.single
  · intro name hname
    obtain ⟨d, hd⟩ := hsound.configured name (hsound.live ▸ hname)
    obtain ⟨hmem, hd⟩ := List.mem_filter.mp (List.mem_of_getLast? hd)
    exact ⟨d, hmem, eq_of_beq hd⟩
  · intro before event hprefix name request hcall
    obtain ⟨hnew, d, hd, rfl⟩ := hsound.needed before event hprefix name request hcall
    refine ⟨hnew, d, hd, rfl, fun rest hrest => ?_, canonicalUrl_other, rfl⟩
    rw [hrest]
    exact canonicalUrl_postgres rest
  · intro name
    refine ⟨fun e he => ?_, hsound.engine_of_unknown, ?_⟩
    · rw [hsound.live] at he
      exact engine_of_held he
    · intro d hnone hd request t
      rw [hsound.live] at hnone
      have hcalled := hsound.engine_of_none factory hnone hd
      have hlast : s.log.calls.length ∉ s.log.built := fun hmem => absurd (hsound.numbered _ hmem) (lt_irrefl _)
      cases hfails : factory s.log.calls.length request with
      | some fault =>
          rw [hfails] at hcalled
          have ht : t = _ := congrArg Prod.snd hcalled
          rw [ht, hcalled]
          exact ⟨rfl, rfl, rfl, EngineLog.live_concat ..⟩
      | none =>
          rw [hfails] at hcalled
          have ht : t = _ := congrArg Prod.snd hcalled
          rw [ht, hcalled]
          exact ⟨_, hlast, rfl, rfl, EngineLog.live_concat ..⟩
  · intro name e more hengine hmore t
    exact engine_of_held (held_after (held_of_engine hengine) hmore)
  · rw [hsound.live]
    rfl
  · intro hbuilds l hl
    refine ⟨fun name timeout session body hbody => ?_, ?_, ?_⟩
    · obtain ⟨hpools, hfaults⟩ := Exchange.pools_readOnly name timeout hbody l
      rw [hlink hbuilds l hl name] at hpools hfaults
      refine ⟨?_, fun f hf => hfaults f ?_⟩
      · rw [hpools, run, read_snd]
      · rw [hf]
        rfl
    · rw [Exchange.runOn_dispose, hl]
      rfl
    · have hkeys : s.pools.forget.opened.keys = s.pools.opened.keys := by simp [Pools.forget, Entries.keys]
      rw [Exchange.runOn_dispose, hl, hsound.live, hkeys]

/-- The address of `Prod` is given twice and the last one counts.  The first call of the factory fails, the second one
builds the engine, and it stands whatever a session comes to, until it is disposed of.  The link opens the same pool. -/
theorem engines_managed_of_prod :
    let ds : List DatabaseAddress := [⟨"Prod", "postgres://old"⟩, ⟨"Prod", "postgres://new"⟩]
    let factory : EngineFactory := fun n _ => if n = 0 then some .database else none
    let t := (new ds {}).after factory [.engine "Prod"]
    let u := (t.engine factory "Prod").2.after factory [.read "Prod" fun _ => some .database, .engine "Other"]
    let l : Link Unit := ⟨(), 0, [], Pools.ofAddresses ds {}⟩
    t.pools = (new ds {}).pools ∧ t.log = [.failed "Prod" ⟨"postgresql://new", {}⟩ .database] ∧
      (t.engine factory "Prod").1 = .ok 1 ∧ u.engine factory "Prod" = (.ok 1, u) ∧
      u.engine factory "Other" = (.error (.refused (.databaseNotFound "Other")), u) ∧
      (u.dispose.log.live = [] ∧ u.dispose.log.disposed.Nodup) ∧
      ((Exchange.readOnly "Prod" (.int 5) fun c => Exchange.execute c .readOnly).runOn l).2.pools =
        ((new ds {}).run (fun _ _ => none) (.read "Prod" fun _ => none)).pools.forget := by
  intro ds factory t u l
  obtain ⟨-, -, hget, -⟩ := engines_managed (σ := Unit) (α := List Row) ds {} factory []
  obtain ⟨-, hpools, hlog, -⟩ := (hget "Prod").2.2 ⟨"Prod", "postgres://new"⟩ rfl rfl
  obtain ⟨-, -, -, hagain, -⟩ := engines_managed (σ := Unit) (α := List Row) ds {} factory [.engine "Prod"]
  obtain ⟨-, -, hlater, -, ⟨-, hnone, honce⟩, -⟩ := engines_managed (σ := Unit) (α := List Row) ds {} factory
    [.engine "Prod", .engine "Prod", .read "Prod" fun _ => some .database, .engine "Other"]
  obtain ⟨-, -, -, -, -, hlink⟩ := engines_managed (σ := Unit) (α := List Row) ds {} (fun _ _ => none) []
  refine ⟨hpools, ?_, rfl, hagain "Prod" 1 _ rfl (by simp), (hlater "Other").2.1 (by simp [ds]), ⟨hnone, honce⟩, ?_⟩
  · have hurl : canonicalUrl "postgres://new" = "postgresql://new" := canonicalUrl_postgres "new"
    rw [hurl] at hlog
    exact hlog
  · exact ((hlink (fun _ _ => rfl) l rfl).1 "Prod" (.int 5) (fun _ => none) _
      fun c => (Exchange.modest_execute c .readOnly).leavesPools).1

end Registry

end TableSteward

import TableSteward.Proofs.DashboardFetch
import TableSteward.Proofs.Receiver
import TableSteward.Proofs.StoreCommand

/-!
# The floor of a service

Requesters order what a service has to give, and downloads are handed over chunk by chunk while other orders come in.  A
floor is the service together with the downloads that it has begun; whatever may happen on it is a `Step`.
-/
set_option autoImplicit false

namespace TableSteward

inductive Order
  | tables (database : String)
  | columns (database table : String)
  | rows (q : TableRequest) (page : Value)
  | exportCheck (q : TableRequest)
  | exportPage (q : TableRequest) (page : Value)
  | exportAll (q : TableRequest)
  | block (id : String) (page : Value)

/-- What steps are answered with; a download is begun by one step and handed over by others. -/
inductive Reaction
  | tables (shown : List Value)
  | columns (infos : List ColumnInfo)
  | page (p : Page)
  | check (c : ExportCheck)
  | download (fileName : String)
  | payload (v : Value)
  | stored (a : StoreAnswer)
  | chunk (text : String)
  | ended
  | nothing

/-- A download that has been begun, with the chunks that were handed over. -/
structure Ticket (σ : Type) where
  requester : Requester
  order : Order
  stream : TextStream σ
  chunks : List String := []

structure Floor (σ : Type) where
  service : Service σ
  downloads : List (Ticket σ) := []

/-- A download is named by its place among all downloads, over or not. -/
inductive Step
  | order (r : Requester) (o : Order)
  | dashboard (kind : String) (r : DashboardRequest) (refresh : Bool)
  | clearCache (pattern : Option String)
  | store (c : StoreCommand)
  | pass (clock : Number) (now : String) (today : Date) (writable : Bool)
  | next (i : Nat)
  | close (i : Nat)

variable {σ : Type}

/-- The configuration of a block that somebody asks for. -/
def Service.blockConfig (s : Service σ) (r : Requester) (id : String) : Result BlockConfig := do
  let b ← Reporter.ownedBlock s.blocks r id
  BlockConfig.parse b.kind (.dict b.config)

theorem Reporter.runBlock_eq [Server σ] (s : Service σ) (r : Requester) (id : String) (page : Value) :
    (s.reporter.runBlock s.blocks r id page : Exchange σ Value) =
      Exchange.lift (s.blockConfig r id) >>= fun config => s.reporter.run r config page := by
  unfold runBlock Service.blockConfig
  cases ownedBlock s.blocks r id <;> rfl

section Answers

variable [Server σ]

def Order.run (s : Service σ) (r : Requester) : Order → Exchange σ (Reaction × Option (TextStream σ))
  | .tables database => do return (.tables (← s.browser.listTables r database), none)
  | .columns database table => do return (.columns (← s.browser.listColumns r database table), none)
  | .rows q page => do return (.page (← s.browser.fetchRows r q page), none)
  | .exportCheck q => do return (.check (← s.browser.exportCheck r q), none)
  | .exportPage q page => do
      let d ← s.browser.exportPage r q page
      return (.download d.fileName, some d.stream)
  | .exportAll q => do
      let d ← s.browser.exportAll r q
      return (.download d.fileName, some d.stream)
  | .block id page => do return (.payload (← s.reporter.runBlock s.blocks r id page), none)

end Answers

namespace Ticket

/-- The download after an attempt to get its next chunk; one that has failed is over. -/
def after (t : Ticket σ) : Result (Option String × TextStream σ) → Ticket σ
  | .ok (chunk, rest) => { t with stream := rest, chunks := t.chunks ++ chunk.toList }
  | .error _ => { t with stream := .finished }

/-- The rows that were handed over: the records after the header. -/
def rows (t : Ticket σ) : Nat := Csv.records (String.join t.chunks) - 1

end Ticket

def Reaction.ofNext : Option String × TextStream σ → Reaction
  | (some text, _) => .chunk text
  | (none, _) => .ended

namespace Floor

def link (F : Floor σ) : Link σ := F.service.link

def withLink (F : Floor σ) (l : Link σ) : Floor σ := { F with service := { F.service with link := l } }

def putTicket (F : Floor σ) (i : Nat) (t : Ticket σ) : Floor σ := { F with downloads := F.downloads.set i t }

def begin (F : Floor σ) (r : Requester) (o : Order) (stream : Option (TextStream σ)) : Floor σ :=
  { F with downloads := F.downloads ++ (stream.map fun s => ⟨r, o, s, []⟩).toList }

theorem forall_begin {F : Floor σ} {P : Ticket σ → Prop} (h : ∀ t ∈ F.downloads, P t) (r : Requester) (o : Order)
    {stream : Option (TextStream σ)} (hnew : ∀ s, stream = some s → P ⟨r, o, s, []⟩) :
    ∀ t ∈ (F.begin r o stream).downloads, P t := by
  intro t ht
  rcases List.mem_append.mp ht with ht | ht
  · exact h t ht
  · obtain ⟨s, hs, rfl⟩ := Option.map_eq_some_iff.mp (Option.mem_toList.mp ht)
    exact hnew s hs

theorem forall_putTicket {F : Floor σ} {P : Ticket σ → Prop} (h : ∀ t ∈ F.downloads, P t) (i : Nat) {t : Ticket σ}
    (ht : P t) : ∀ u ∈ (F.putTicket i t).downloads, P u := by
  intro u hu
  rcases List.mem_or_eq_of_mem_set hu with hu | rfl
  · exact h u hu
  · exact ht

/-- An action of the service. -/
def act {α : Type} (F : Floor σ) (x : Action σ α) (answer : α → Reaction) : Result Reaction × Floor σ :=
  ((x.runOn F.service).1.map answer, { F with service := (x.runOn F.service).2 })

variable [Server σ]

def serve (F : Floor σ) (r : Requester) (o : Order) : Result Reaction × Floor σ :=
  let (out, link) := (o.run F.service r).runOn F.link
  match out with
  | .ok (answer, stream) => (.ok answer, (F.withLink link).begin r o stream)
  | .error f => (.error f, F.withLink link)

def next (F : Floor σ) (i : Nat) : Result Reaction × Floor σ :=
  match F.downloads[i]? with
  | none => (.ok .nothing, F)
  | some t =>
      let (out, link) := t.stream.next.runOn F.link
      (out.map Reaction.ofNext, (F.withLink link).putTicket i (t.after out))

def close (F : Floor σ) (i : Nat) : Result Reaction × Floor σ :=
  match F.downloads[i]? with
  | none => (.ok .nothing, F)
  | some t =>
      let (out, link) := t.stream.close.runOn F.link
      (out.map fun _ => .nothing, (F.withLink link).putTicket i { t with stream := .finished })

def step (F : Floor σ) : Step → Result Reaction × Floor σ
  | .order r o => F.serve r o
  | .dashboard kind r refresh => F.act (Service.dashboard kind r refresh) .payload
  | .clearCache pattern => F.act (Service.clearCache pattern) fun _ => .nothing
  | .store c => F.act c.perform .stored
  | .pass clock now today writable =>
      (.ok .nothing, { F with service := { F.service with clock, now, today, writable } })
  | .next i => F.next i
  | .close i => F.close i

def after (F : Floor σ) (steps : List Step) : Floor σ := steps.foldl (fun F a => (F.step a).2) F

/-- What each step is answered, from the floor that the steps before it have left. -/
def outcomes : Floor σ → List Step → List (Result Reaction)
  | _, [] => []
  | F, a :: steps => (F.step a).1 :: outcomes (F.step a).2 steps

@[simp] theorem after_nil (F : Floor σ) : F.after [] = F := rfl

@[simp] theorem after_cons (F : Floor σ) (a : Step) (steps : List Step) :
    F.after (a :: steps) = (F.step a).2.after steps := rfl

/-- What every step preserves holds after all of them. -/
theorem after_preserves {I : Floor σ → Prop} (hstep : ∀ F a, I F → I (F.step a).2) {F : Floor σ} (h : I F)
    (steps : List Step) : I (F.after steps) := by
  induction steps generalizing F with
  | nil => exact h
  | cons a steps ih => exact ih (hstep F a h)

theorem serve_error {F : Floor σ} {r : Requester} {o : Order} {f : Fault}
    (h : ((o.run F.service r).runOn F.link).1 = .error f) :
    F.serve r o = (.error f, F.withLink ((o.run F.service r).runOn F.link).2) := by
  rw [serve]
  simp only [h]

theorem serve_ok {F : Floor σ} {r : Requester} {o : Order} {answer : Reaction} {stream : Option (TextStream σ)}
    (h : ((o.run F.service r).runOn F.link).1 = .ok (answer, stream)) :
    F.serve r o =
      (.ok answer, (F.withLink ((o.run F.service r).runOn F.link).2).begin r o stream) := by
  rw [serve]
  simp only [h]

theorem next_of_ticket {F : Floor σ} {i : Nat} {t : Ticket σ} (h : F.downloads[i]? = some t) :
    F.next i = ((t.stream.next.runOn F.link).1.map Reaction.ofNext,
      (F.withLink (t.stream.next.runOn F.link).2).putTicket i
        (t.after (t.stream.next.runOn F.link).1)) := by
  simp only [next, h]

theorem next_of_none {F : Floor σ} {i : Nat} (h : F.downloads[i]? = none) : F.next i = (.ok .nothing, F) := by
  simp only [next, h]

theorem close_of_ticket {F : Floor σ} {i : Nat} {t : Ticket σ} (h : F.downloads[i]? = some t) :
    F.close i = ((t.stream.close.runOn F.link).1.map fun _ => .nothing,
      (F.withLink (t.stream.close.runOn F.link).2).putTicket i { t with stream := .finished }) := by
  simp only [close, h]

theorem close_of_none {F : Floor σ} {i : Nat} (h : F.downloads[i]? = none) : F.close i = (.ok .nothing, F) := by
  simp only [close, h]

end Floor

end TableSteward

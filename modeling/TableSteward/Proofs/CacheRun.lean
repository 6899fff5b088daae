import Mathlib.Algebra.Order.Group.Int
import Mathlib.Algebra.Order.Group.Unbundled.Basic
import TableSteward.Proofs.CacheStep
import TableSteward.Proofs.Since

/-!
# Runs of a cache of metrics

A run sets, gets, looks and invalidates at readings of a clock that never goes back; times are exact numbers.  What a
cache answers is then told by its run: `Stands` is the last `set` of a key that nothing undid, `LastAccess` the last
time at which a key was set or found.  `Reflects` says that the entries of a cache are what the run says, and that a
standing key is missing only once its time is over.
-/
set_option autoImplicit false

namespace TableSteward

inductive CacheCommand (α : Type)
  | set (now : α) (key : String) (v : Value) (ttl : α)
  | get (now : α) (key : String)
  | contains (now : α) (key : String)
  | invalidate (pattern : Option String)

namespace CacheCommand

variable {α τ : Type}

def reading? : CacheCommand α → Option α
  | set now .. => some now
  | get now _ => some now
  | contains now _ => some now
  | invalidate _ => none

def isGet : CacheCommand α → Bool
  | get .. => true
  | _ => false

variable [LT τ] [DecidableLT τ] [Add α] (time : α → τ)

def perform (c : MetricsCache τ) : CacheCommand α → MetricsCache τ
  | set now key v ttl => c.set (time now) (time (now + ttl)) key v
  | get now key => (c.get (time now) key).2
  | contains _ _ => c
  | invalidate pattern => (c.invalidate pattern).2

/-- Whether a command evicts a key: a `set` of another key after which the cache no longer contains it. -/
def Evicts (c : MetricsCache τ) (k : String) : CacheCommand α → Prop
  | set now key v ttl =>
      k ≠ key ∧ c.contains (time now) k = true ∧
        (c.set (time now) (time (now + ttl)) key v).contains (time now) k = false
  | _ => False

/-- Whether a command undoes what was set under a key. -/
def Undoes (c : MetricsCache τ) (k : String) : CacheCommand α → Prop
  | set now key v ttl => key = k ∨ (set now key v ttl).Evicts time c k
  | invalidate pattern => MetricsCache.Picks pattern k = true
  | _ => False

/-- Whether a command sets or finds a key, and when. -/
def Accesses (c : MetricsCache τ) (k : String) (a : α) : CacheCommand α → Prop
  | set now key _ _ => key = k ∧ now = a
  | get now key => key = k ∧ now = a ∧ (c.get (time now) key).1 ≠ none
  | _ => False

end CacheCommand

namespace MetricsCache

/-! ## What a run says -/

section Run

variable {α τ : Type} [LT τ] [DecidableLT τ] [Add α] (time : α → τ) (capacity : Int)

def after (run : List (CacheCommand α)) : MetricsCache τ :=
  run.foldl (CacheCommand.perform time) { capacity := capacity }

/-- The value was set at `t` to live for `ttl`, and nothing undid it. -/
def Stands (run : List (CacheCommand α)) (k : String) (v : Value) (t ttl : α) : Prop :=
  Since (fun _ command => command = .set t k v ttl)
    (fun before command => command.Undoes time (after time capacity before) k) run

def LastAccess (run : List (CacheCommand α)) (k : String) (a : α) : Prop :=
  Since (fun before command => command.Accesses time (after time capacity before) k a)
    (fun before command => ∃ b, command.Accesses time (after time capacity before) k b) run

variable {time capacity} {run : List (CacheCommand α)} {command : CacheCommand α} {k : String}

theorem after_concat : after time capacity (run ++ [command]) = command.perform time (after time capacity run) := by
  simp [after]

theorem stands_concat {v : Value} {t ttl : α} :
    Stands time capacity (run ++ [command]) k v t ttl ↔
      command = .set t k v ttl ∨
        (Stands time capacity run k v t ttl ∧ ¬ command.Undoes time (after time capacity run) k) :=
  since_concat

theorem lastAccess_concat {a : α} :
    LastAccess time capacity (run ++ [command]) k a ↔
      command.Accesses time (after time capacity run) k a ∨
        (LastAccess time capacity run k a ∧ ¬ ∃ b, command.Accesses time (after time capacity run) k b) :=
  since_concat

/-- A `set` evicts the victim that makes room for it, and nothing else. -/
theorem evicts_iff {c : MetricsCache τ} (hkeys : c.entries.keys.Nodup) {now ttl : α} {key : String} {v : Value} :
    (CacheCommand.set now key v ttl).Evicts time c k ↔ c.victim? (time now) key = some k := by
  rw [CacheCommand.Evicts, contains_eq, contains_eq]
  have hset := get?_set hkeys (time now) (time (now + ttl)) key v k
  constructor
  · rintro ⟨hne, hbefore, hafter⟩
    by_contra hvictim
    obtain ⟨e, he⟩ := Option.isSome_iff_exists.mp hbefore
    rw [if_neg hne, if_neg hvictim, he] at hset
    rw [Option.isSome_eq_false_iff, Option.isNone_iff_eq_none] at hafter
    have hlive := live_eq_some_iff.mpr ⟨hset, (live_eq_some_iff.mp he).2⟩
    rw [hafter] at hlive
    cases hlive
  · intro hvictim
    have hne : k ≠ key := victim?_ne hvictim
    rw [if_neg hne, if_pos hvictim] at hset
    refine ⟨hne, ?_, ?_⟩
    · rw [← get?_sweep hkeys]
      exact Entries.has_iff.mpr (victim?_mem hvictim)
    · rw [live, hset]
      rfl

end Run

/-! ## What a run keeps -/

section Invariant

variable {α τ : Type} [LT τ] [DecidableLT τ] [LinearOrder α] [Add α]

def Steady (run : List (CacheCommand α)) : Prop := (run.filterMap CacheCommand.reading?).Pairwise (· ≤ ·)

structure Reflects (time : α → τ) (capacity : Int) (run : List (CacheCommand α)) (c : MetricsCache τ) : Prop where
  limit : c.capacity = capacity
  keys : c.entries.keys.Nodup
  bounded : (c.entries.length : Int) ≤ capacity
  counts : c.hits + c.misses = run.countP CacheCommand.isGet
  stands : ∀ k e, c.entries.get? k = some e →
    ∃ t ttl, Stands time capacity run k e.value t ttl ∧ e.expiresAt = time (t + ttl)
  accessed : ∀ k e, c.entries.get? k = some e → ∃ a, LastAccess time capacity run k a ∧ e.lastAccess = time a
  found : ∀ k v t ttl, Stands time capacity run k v t ttl →
    (∃ e, c.entries.get? k = some e ∧ e.value = v ∧ e.expiresAt = time (t + ttl)) ∨
      ∃ r ∈ run.filterMap CacheCommand.reading?, t + ttl < r

variable {time : α → τ} {capacity : Int} {run : List (CacheCommand α)} {command : CacheCommand α}

omit [LT τ] [DecidableLT τ] [Add α] in
theorem Steady.front (h : Steady (run ++ [command])) : Steady run := by
  rw [Steady, List.filterMap_append] at h
  exact (List.pairwise_append.mp h).1

omit [LT τ] [DecidableLT τ] [Add α] in
theorem Steady.le_reading (h : Steady (run ++ [command])) {now r : α} (hnow : command.reading? = some now)
    (hr : r ∈ run.filterMap CacheCommand.reading?) : r ≤ now := by
  rw [Steady, List.filterMap_append] at h
  exact (List.pairwise_append.mp h).2.2 r hr now (by simp [hnow])

variable (htime : ∀ a b, time a < time b ↔ a < b)

include htime in
/-- What stands is there while its time lasts. -/
theorem Reflects.live_of_stands {c : MetricsCache τ} (h : c.Reflects time capacity run)
    {k : String} {v : Value} {t ttl now : α} (hstands : Stands time capacity run k v t ttl) (hlasts : now ≤ t + ttl)
    (hreadings : ∀ r ∈ run.filterMap CacheCommand.reading?, r ≤ now) :
    ∃ e, c.live (time now) k = some e ∧ e.value = v ∧ e.expiresAt = time (t + ttl) := by
  rcases h.found k v t ttl hstands with ⟨e, he, hvalue, hexpires⟩ | ⟨r, hr, hover⟩
  · refine ⟨e, live_eq_some_iff.mpr ⟨he, ?_⟩, hvalue, hexpires⟩
    rw [hexpires, htime]
    exact not_lt.mpr hlasts
  · exact absurd (hover.trans_le (hreadings r hr)) (not_lt.mpr hlasts)

/-! ### One more command -/

/-- An entry that a command does not undo keeps telling when it was set. -/
theorem Reflects.stands_later {c : MetricsCache τ} (h : c.Reflects time capacity run) {k : String}
    {e : CacheEntry τ} (he : c.entries.get? k = some e) (hundoes : ¬ command.Undoes time (after time capacity run) k) :
    ∃ t ttl, Stands time capacity (run ++ [command]) k e.value t ttl ∧ e.expiresAt = time (t + ttl) := by
  obtain ⟨t, ttl, hstands, hexpires⟩ := h.stands k e he
  exact ⟨t, ttl, stands_concat.mpr (.inr ⟨hstands, hundoes⟩), hexpires⟩

/-- An entry that a command does not access keeps telling when it was accessed. -/
theorem Reflects.accessed_later {c : MetricsCache τ} (h : c.Reflects time capacity run) {k : String}
    {e : CacheEntry τ} (he : c.entries.get? k = some e)
    (hno : ∀ b, ¬ command.Accesses time (after time capacity run) k b) :
    ∃ a, LastAccess time capacity (run ++ [command]) k a ∧ e.lastAccess = time a := by
  obtain ⟨a, haccess, ha⟩ := h.accessed k e he
  exact ⟨a, lastAccess_concat.mpr (.inr ⟨haccess, fun ⟨b, hb⟩ => hno b hb⟩), ha⟩

/-- What stands after a command that has not set it stood before, in an entry unless its time is over. -/
theorem Reflects.found_before {c : MetricsCache τ} (h : c.Reflects time capacity run) {k : String} {v : Value}
    {t ttl : α} (hstands : Stands time capacity (run ++ [command]) k v t ttl) (hset : command ≠ .set t k v ttl) :
    ¬ command.Undoes time (after time capacity run) k ∧
      ((∃ e, c.entries.get? k = some e ∧ e.value = v ∧ e.expiresAt = time (t + ttl)) ∨
        ∃ r ∈ (run ++ [command]).filterMap CacheCommand.reading?, t + ttl < r) := by
  obtain ⟨hstands, hundoes⟩ := (stands_concat.mp hstands).resolve_left hset
  refine ⟨hundoes, ?_⟩
  rcases h.found k v t ttl hstands with hentry | ⟨r, hr, hover⟩
  · exact .inl hentry
  · exact .inr ⟨r, by simp [hr], hover⟩

theorem reflects_nil (hcapacity : 1 ≤ capacity) : (after time capacity []).Reflects time capacity [] where
  limit := rfl
  keys := List.nodup_nil
  bounded := by
    change (0 : Int) ≤ capacity
    omega
  counts := rfl
  stands := by
    intro k e he
    cases he
  accessed := by
    intro k e he
    cases he
  found := by
    intro k v t ttl hstands
    exact absurd hstands not_since_nil

include htime in
theorem Reflects.get (h : (after time capacity run).Reflects time capacity run) (now : α) (key : String) :
    ((after time capacity run).get (time now) key).2.Reflects time capacity (run ++ [.get now key]) := by
  have hfound := get?_get h.keys (time now) key
  constructor
  · rw [capacity_get, h.limit]
  · exact nodup_get h.keys _ _
  · have hle := length_get_le (after time capacity run) (time now) key
    have hbounded := h.bounded
    omega
  · rw [counts_get, h.counts, List.countP_append]
    rfl
  · intro k e he
    rw [hfound] at he
    by_cases hk : k = key
    · rw [if_pos hk, ← hk, Option.map_eq_some_iff] at he
      obtain ⟨e', hlive, rfl⟩ := he
      exact h.stands_later (e := e') (live_eq_some_iff.mp hlive).1 id
    · rw [if_neg hk] at he
      exact h.stands_later he id
  · intro k e he
    rw [hfound] at he
    by_cases hk : k = key
    · subst hk
      rw [if_pos rfl, Option.map_eq_some_iff] at he
      obtain ⟨e', hlive, rfl⟩ := he
      refine ⟨now, lastAccess_concat.mpr (.inl ⟨rfl, rfl, ?_⟩), rfl⟩
      rw [get_answer, hlive]
      exact Option.some_ne_none _
    · rw [if_neg hk] at he
      exact h.accessed_later he fun b hb => hk hb.1.symm
  · intro k v t ttl hstands
    obtain ⟨-, ⟨e, he, hvalue, hexpires⟩ | hover⟩ := h.found_before hstands nofun
    · by_cases hexpired : t + ttl < now
      · exact .inr ⟨now, by simp [CacheCommand.reading?], hexpired⟩
      · have hlive : (after time capacity run).live (time now) k = some e := by
          rw [live_eq_some_iff, hexpires, htime]
          exact ⟨he, hexpired⟩
        left
        rw [hfound]
        by_cases hk : k = key
        · rw [if_pos hk, ← hk, hlive]
          exact ⟨_, rfl, hvalue, hexpires⟩
        · rw [if_neg hk]
          exact ⟨e, he, hvalue, hexpires⟩
    · exact .inr hover

include htime in
theorem Reflects.set (h : (after time capacity run).Reflects time capacity run) (hcapacity : 1 ≤ capacity)
    (now : α) (key : String) (v : Value) (ttl : α) :
    ((after time capacity run).set (time now) (time (now + ttl)) key v).Reflects time capacity
      (run ++ [.set now key v ttl]) := by
  have hfound := get?_set h.keys (time now) (time (now + ttl)) key v
  -- an entry of another key is an old one that was not evicted
  have hothers : ∀ k e, k ≠ key →
      ((after time capacity run).set (time now) (time (now + ttl)) key v).entries.get? k = some e →
        (after time capacity run).entries.get? k = some e ∧
          (after time capacity run).victim? (time now) key ≠ some k := by
    intro k e hk he
    rw [hfound, if_neg hk] at he
    split at he
    · cases he
    · rename_i hvictim
      exact ⟨(live_eq_some_iff.mp he).1, hvictim⟩
  constructor
  · rw [capacity_set, h.limit]
  · exact nodup_set h.keys _ _ _ _
  · have hroom : 1 ≤ (after time capacity run).capacity := by
      rw [h.limit]
      exact hcapacity
    have hbounded := length_set_le h.keys hroom (by rw [h.limit]; exact h.bounded) (time now) (time (now + ttl)) key v
    rw [h.limit] at hbounded
    exact hbounded
  · rw [List.countP_append, ← h.counts]
    rfl
  · intro k e he
    by_cases hk : k = key
    · subst hk
      rw [hfound, if_pos rfl] at he
      obtain rfl := Option.some.inj he
      exact ⟨now, ttl, stands_concat.mpr (.inl rfl), rfl⟩
    · obtain ⟨hold, hvictim⟩ := hothers k e hk he
      apply h.stands_later hold
      rintro (hkey | hevicts)
      · exact hk hkey.symm
      · exact hvictim ((evicts_iff h.keys).mp hevicts)
  · intro k e he
    by_cases hk : k = key
    · subst hk
      rw [hfound, if_pos rfl] at he
      obtain rfl := Option.some.inj he
      exact ⟨now, lastAccess_concat.mpr (.inl ⟨rfl, rfl⟩), rfl⟩
    · exact h.accessed_later (hothers k e hk he).1 fun b hb => hk hb.1.symm
  · intro k w t ttl' hstands
    by_cases hset : CacheCommand.set now key v ttl = .set t k w ttl'
    · obtain ⟨rfl, rfl, rfl, rfl⟩ := CacheCommand.set.inj hset
      rw [hfound, if_pos rfl]
      exact .inl ⟨_, rfl, rfl, rfl⟩
    · obtain ⟨hundoes, ⟨e, he, hvalue, hexpires⟩ | hover⟩ := h.found_before hstands hset
      · have hk : k ≠ key := fun hkey => hundoes (.inl hkey.symm)
        have hvictim : ¬ (after time capacity run).victim? (time now) key = some k := fun hevicted =>
          hundoes (.inr ((evicts_iff h.keys).mpr hevicted))
        by_cases hexpired : t + ttl' < now
        · exact .inr ⟨now, by simp [CacheCommand.reading?], hexpired⟩
        · refine .inl ⟨e, ?_, hvalue, hexpires⟩
          rw [hfound, if_neg hk, if_neg hvictim, live_eq_some_iff, hexpires, htime]
          exact ⟨he, hexpired⟩
      · exact .inr hover

theorem Reflects.contains (h : (after time capacity run).Reflects time capacity run) (now : α) (key : String) :
    (after time capacity run).Reflects time capacity (run ++ [.contains now key]) := by
  constructor
  · exact h.limit
  · exact h.keys
  · exact h.bounded
  · rw [List.countP_append, ← h.counts]
    rfl
  · exact fun k e he => h.stands_later he id
  · exact fun k e he => h.accessed_later he fun b => id
  · exact fun k v t ttl hstands => (h.found_before hstands nofun).2

theorem Reflects.invalidate (h : (after time capacity run).Reflects time capacity run) (pattern : Option String) :
    ((after time capacity run).invalidate pattern).2.Reflects time capacity (run ++ [.invalidate pattern]) := by
  have hfound := get?_invalidate h.keys pattern
  obtain ⟨hlimit, hhits, hmisses⟩ := invalidate_keeps (after time capacity run) pattern
  have hkept : ∀ k e, ((after time capacity run).invalidate pattern).2.entries.get? k = some e →
      (after time capacity run).entries.get? k = some e ∧ ¬ Picks pattern k = true := by
    intro k e he
    rw [hfound] at he
    split at he
    · cases he
    · rename_i hpicks
      exact ⟨he, hpicks⟩
  constructor
  · rw [hlimit, h.limit]
  · rw [entries_invalidate]
    exact Entries.nodup_filter h.keys _
  · have hle := List.length_filter_le (fun e => !Picks pattern e.1) (after time capacity run).entries
    have hbounded := h.bounded
    rw [entries_invalidate]
    omega
  · rw [hhits, hmisses, List.countP_append, ← h.counts]
    rfl
  · exact fun k e he => h.stands_later (hkept k e he).1 (hkept k e he).2
  · exact fun k e he => h.accessed_later (hkept k e he).1 fun b => id
  · intro k v t ttl hstands
    obtain ⟨hundoes, ⟨e, he, hentry⟩ | hover⟩ := h.found_before hstands nofun
    · have hpicks : ¬ Picks pattern k = true := hundoes
      refine .inl ⟨e, ?_, hentry⟩
      rw [hfound, if_neg hpicks, he]
    · exact .inr hover

include htime in
theorem reflects_after (hcapacity : 1 ≤ capacity) (run : List (CacheCommand α)) :
    (after time capacity run).Reflects time capacity run := by
  induction run using List.reverseRecOn with
  | nil => exact reflects_nil hcapacity
  | append_singleton run command ih =>
      rw [after_concat]
      cases command with
      | set now key v ttl => exact ih.set htime hcapacity now key v ttl
      | get now key => exact ih.get htime now key
      | contains now key => exact ih.contains now key
      | invalidate pattern => exact ih.invalidate pattern

/-- A cache that is full of live entries has no others. -/
theorem Reflects.sweep_eq (h : (after time capacity run).Reflects time capacity run) {now : τ}
    (hfull : capacity ≤ ((sweep now (after time capacity run).entries).length : Int)) :
    sweep now (after time capacity run).entries = (after time capacity run).entries := by
  apply List.filter_sublist.eq_of_length
  have hle := length_sweep_le now (after time capacity run).entries
  have hbounded := h.bounded
  rw [sweep] at hle hfull
  omega

/-- A victim is there just if a new key comes into a cache full of live entries. -/
theorem Reflects.isSome_victim?_iff (h : (after time capacity run).Reflects time capacity run)
    (hcapacity : 1 ≤ capacity) (now : τ) (key : String) :
    ((after time capacity run).victim? now key).isSome = true ↔
      (after time capacity run).entries.has key = false ∧
        ((sweep now (after time capacity run).entries).length : Int) = capacity := by
  have hroom : 1 ≤ (after time capacity run).capacity := by
    rw [h.limit]
    exact hcapacity
  have hbounded := h.bounded
  rw [isSome_victim? h.keys hroom, live_eq_none_iff h.keys, h.limit]
  constructor
  · rintro ⟨hnew, hfull⟩
    have hall := h.sweep_eq hfull
    rw [hall] at hnew hfull ⊢
    exact ⟨hnew, le_antisymm hbounded hfull⟩
  · rintro ⟨hnew, hfull⟩
    have hall := h.sweep_eq (le_of_eq hfull.symm)
    rw [hall] at hfull ⊢
    exact ⟨hnew, le_of_eq hfull.symm⟩

include htime in
/-- A victim was accessed no later than any other entry. -/
theorem Reflects.victim_accessed (h : (after time capacity run).Reflects time capacity run) (hcapacity : 1 ≤ capacity)
    {now : τ} {key victim : String} (hvictim : (after time capacity run).victim? now key = some victim) :
    ∃ a, LastAccess time capacity run victim a ∧
      ∀ k, (after time capacity run).entries.has k = true → ∃ b, LastAccess time capacity run k b ∧ a ≤ b := by
  have hfull : capacity ≤ ((sweep now (after time capacity run).entries).length : Int) := by
    have hsome := (h.isSome_victim?_iff hcapacity now key).mp (by rw [hvictim]; rfl)
    exact le_of_eq hsome.2.symm
  have hlive : ∀ k, (after time capacity run).live now k = (after time capacity run).entries.get? k := by
    intro k
    rw [← get?_sweep h.keys, h.sweep_eq hfull]
  have htimes : ∀ x : String × CacheEntry τ, ∃ a, x ∈ (after time capacity run).entries →
      LastAccess time capacity run x.1 a ∧ x.2.lastAccess = time a := by
    intro x
    by_cases hx : x ∈ (after time capacity run).entries
    · obtain ⟨a, ha⟩ := h.accessed x.1 x.2 ((Entries.mem_iff_get? h.keys).mp hx)
      exact ⟨a, fun _ => ha⟩
    · obtain ⟨y, hy, -⟩ := List.mem_map.mp (victim?_mem hvictim)
      rw [h.sweep_eq hfull] at hy
      obtain ⟨a, -⟩ := h.accessed y.1 y.2 ((Entries.mem_iff_get? h.keys).mp hy)
      exact ⟨a, fun hno => absurd hno hx⟩
  choose access haccess using htimes
  obtain ⟨e, he, hleast⟩ := victim?_spec h.keys htime (fun x hx => (haccess x hx).2) hvictim
  rw [hlive] at he
  refine ⟨access (victim, e), (haccess _ (Entries.mem_of_get? he)).1, ?_⟩
  intro k hk
  obtain ⟨e', he'⟩ := Option.isSome_iff_exists.mp hk
  refine ⟨access (k, e'), (haccess _ (Entries.mem_of_get? he')).1, hleast k e' ?_⟩
  rw [hlive, he']

end Invariant

/-! ## Every run -/

section Answers

variable {α τ : Type} [LT τ] [DecidableLT τ] [LinearOrder α] [AddCommGroup α] [IsOrderedAddMonoid α]

theorem Reflects.live_iff {time : α → τ} (htime : ∀ a b, time a < time b ↔ a < b) {capacity : Int}
    {run : List (CacheCommand α)} (h : (after time capacity run).Reflects time capacity run)
    {command : CacheCommand α} {now : α} (hsteady : Steady (run ++ [command])) (hnow : command.reading? = some now)
    (key : String) (v : Value) :
    (∃ e, (after time capacity run).live (time now) key = some e ∧ e.value = v) ↔
      ∃ t ttl, Stands time capacity run key v t ttl ∧ now - t ≤ ttl := by
  constructor
  · rintro ⟨e, hlive, rfl⟩
    obtain ⟨hfound, hunexpired⟩ := live_eq_some_iff.mp hlive
    obtain ⟨t, ttl, hstands, hexpires⟩ := h.stands key e hfound
    rw [hexpires, htime, not_lt] at hunexpired
    exact ⟨t, ttl, hstands, sub_le_iff_le_add'.mpr hunexpired⟩
  · rintro ⟨t, ttl, hstands, hage⟩
    obtain ⟨e, hlive, hvalue, -⟩ := h.live_of_stands htime hstands (sub_le_iff_le_add'.mp hage)
      fun r hr => hsteady.le_reading hnow hr
    exact ⟨e, hlive, hvalue⟩

/-- What a cache does is told by its run: it never holds more than its capacity; it answers with what stands under a
key and is not older than its time to live; a `set` evicts one entry, the one accessed least recently, just if its key
is new and the cache is full of live entries; looking changes nothing; and every `get` is counted. -/
theorem answers_its_run {time : α → τ} (htime : ∀ a b, time a < time b ↔ a < b) {capacity : Int}
    (hcapacity : 1 ≤ capacity) (run : List (CacheCommand α)) :
    ((after time capacity run).entries.length : Int) ≤ capacity ∧
    (∀ now key v, Steady (run ++ [.get now key]) →
      (((after time capacity run).get (time now) key).1 = some v ↔
        ∃ t ttl, Stands time capacity run key v t ttl ∧ now - t ≤ ttl)) ∧
    (∀ now key v ttl,
      ((∃ k, (CacheCommand.set now key v ttl).Evicts time (after time capacity run) k) ↔
        (after time capacity run).entries.has key = false ∧
          ((sweep (time now) (after time capacity run).entries).length : Int) = capacity) ∧
      ∀ victim, (CacheCommand.set now key v ttl).Evicts time (after time capacity run) victim →
        (∀ k, (CacheCommand.set now key v ttl).Evicts time (after time capacity run) k → k = victim) ∧
        ∃ a, LastAccess time capacity run victim a ∧
          ∀ k, (after time capacity run).entries.has k = true → ∃ b, LastAccess time capacity run k b ∧ a ≤ b) ∧
    (∀ now key, (CacheCommand.contains now key).perform time (after time capacity run) = after time capacity run ∧
      (Steady (run ++ [.contains now key]) →
        ((after time capacity run).contains (time now) key = true ↔
          ∃ v t ttl, Stands time capacity run key v t ttl ∧ now - t ≤ ttl))) ∧
    (after time capacity run).hits + (after time capacity run).misses = run.countP CacheCommand.isGet := by
  have h : (after time capacity run).Reflects time capacity run := reflects_after htime hcapacity run
  refine ⟨h.bounded, ?_, ?_, ?_, h.counts⟩
  · intro now key v hsteady
    rw [get_answer, Option.map_eq_some_iff]
    exact h.live_iff htime hsteady rfl key v
  · intro now key v ttl
    simp only [evicts_iff h.keys]
    constructor
    · rw [← Option.isSome_iff_exists, h.isSome_victim?_iff hcapacity]
    · intro victim hvictim
      refine ⟨?_, h.victim_accessed htime hcapacity hvictim⟩
      intro k hk
      rw [hvictim] at hk
      exact (Option.some.inj hk).symm
  · intro now key
    refine ⟨rfl, ?_⟩
    intro hsteady
    rw [contains_eq, Option.isSome_iff_exists]
    constructor
    · rintro ⟨e, hlive⟩
      exact ⟨e.value, (h.live_iff htime hsteady rfl key e.value).mp ⟨e, hlive, rfl⟩⟩
    · rintro ⟨v, hstands⟩
      obtain ⟨e, hlive, -⟩ := (h.live_iff htime hsteady rfl key v).mpr hstands
      exact ⟨e, hlive⟩

end Answers

/-! ## A clock of whole seconds -/

theorem int_lt_int_iff (a b : Int) : Number.int a < Number.int b ↔ a < b := decide_eq_true_iff

theorem setFor_int (c : MetricsCache Number) (now ttl : Int) (key : String) (v : Value) :
    c.setFor (.int now) key v (.int ttl) = (.ok (), (CacheCommand.set now key v ttl).perform Number.int c) := rfl

/-- A full cache of two: what was set first is found again, so the other entry makes room. -/
theorem full_of_two :
    let run : List (CacheCommand Int) :=
      [.set 0 "a" (.int 1) 10, .set 1 "b" (.int 2) 10, .get 2 "a", .set 3 "c" (.int 3) 10]
    Steady (run ++ [.get 4 "a"]) ∧ (after Number.int 2 run).entries.keys = ["a", "c"] ∧
      (after Number.int 2 run).entries.length ≤ 2 ∧
      ∃ t ttl, Stands Number.int 2 run "a" (.int 1) t ttl ∧ 4 - t ≤ ttl := by
  intro run
  have hsteady : Steady (run ++ [.get 4 "a"]) := by
    rw [Steady]
    decide
  obtain ⟨hbounded, hget, -⟩ := answers_its_run int_lt_int_iff (by decide : (1 : Int) ≤ 2) run
  refine ⟨hsteady, by decide +kernel, by exact_mod_cast hbounded, ?_⟩
  exact (hget 4 "a" (.int 1) hsteady).mp rfl

end MetricsCache

end TableSteward

import Mathlib.Tactic.Order
import TableSteward.Dashboard.Cache
import TableSteward.Proofs.KeyedEntries

/-!
# The operations of a cache of metrics

`live` is what a key stands for at a time, the entry that has not expired.  What an operation answers, and what is
found under each key after it, is told by `live` alone.
-/
set_option autoImplicit false

namespace TableSteward.MetricsCache

variable {τ : Type} [LT τ] [DecidableLT τ] {c : MetricsCache τ} {now expiresAt : τ} {key k : String} {v : Value}

def live (c : MetricsCache τ) (now : τ) (k : String) : Option (CacheEntry τ) :=
  (c.entries.get? k).filter fun e => !isExpired now e

theorem live_eq_some_iff {e : CacheEntry τ} :
    c.live now k = some e ↔ c.entries.get? k = some e ∧ ¬ e.expiresAt < now := by
  rw [live, Option.filter_eq_some_iff, isExpired, Bool.not_eq_true', decide_eq_false_iff_not]

theorem get?_sweep (hkeys : c.entries.keys.Nodup) (now : τ) (k : String) :
    Entries.get? (sweep now c.entries) k = c.live now k := by
  rw [sweep, Entries.get?_filter hkeys, live]

theorem nodup_sweep (hkeys : c.entries.keys.Nodup) (now : τ) : (sweep now c.entries).keys.Nodup :=
  Entries.nodup_filter hkeys _

theorem length_sweep_le (now : τ) (es : Entries (CacheEntry τ)) : (sweep now es).length ≤ es.length :=
  List.length_filter_le _ _

theorem contains_eq (c : MetricsCache τ) (now : τ) (k : String) : c.contains now k = (c.live now k).isSome := by
  rw [contains, live]
  cases c.entries.get? k with
  | none => rfl
  | some e =>
      by_cases hexpired : isExpired now e = true
      · simp [hexpired]
      · simp [hexpired]

/-! ## Getting -/

/-- An expired entry is taken out when it is asked for; one that is missing anyway can be taken out too. -/
theorem get_eq (c : MetricsCache τ) (now : τ) (key : String) :
    c.get now key =
      match c.live now key with
      | none => (none, { c with entries := c.entries.erase key, misses := c.misses + 1 })
      | some e =>
          (some e.value, { c with entries := c.entries.put key { e with lastAccess := now }, hits := c.hits + 1 }) := by
  rw [get, live]
  cases hfound : c.entries.get? key with
  | none =>
      rw [Option.filter_none, Entries.erase_of_not_mem (Entries.get?_eq_none_iff.mp hfound)]
  | some e =>
      by_cases hexpired : isExpired now e = true
      · simp only [if_pos hexpired]
        rw [Option.filter_some_neg (by simp [hexpired])]
      · simp only [if_neg hexpired]
        rw [Option.filter_some_pos (by simp [hexpired])]

theorem get_answer (c : MetricsCache τ) (now : τ) (key : String) :
    (c.get now key).1 = (c.live now key).map CacheEntry.value := by
  rw [get_eq]
  cases c.live now key <;> rfl

theorem get?_get (hkeys : c.entries.keys.Nodup) (now : τ) (key k : String) :
    (c.get now key).2.entries.get? k =
      if k = key then (c.live now key).map fun e => { e with lastAccess := now } else c.entries.get? k := by
  rw [get_eq]
  cases c.live now key with
  | none => exact Entries.get?_erase hkeys key k
  | some e => exact Entries.get?_put c.entries key _ k

theorem nodup_get (hkeys : c.entries.keys.Nodup) (now : τ) (key : String) :
    (c.get now key).2.entries.keys.Nodup := by
  rw [get_eq]
  cases c.live now key with
  | none => exact Entries.nodup_filter hkeys _
  | some e => exact Entries.nodup_put hkeys key _

theorem length_get_le (c : MetricsCache τ) (now : τ) (key : String) :
    (c.get now key).2.entries.length ≤ c.entries.length := by
  rw [get_eq]
  cases hlive : c.live now key with
  | none => exact List.length_filter_le _ _
  | some e =>
      have hmem : key ∈ c.entries.keys := Entries.mem_keys_of_get? (live_eq_some_iff.mp hlive).1
      exact Nat.le_of_eq (Entries.length_put_of_mem hmem _)

theorem counts_get (c : MetricsCache τ) (now : τ) (key : String) :
    (c.get now key).2.hits + (c.get now key).2.misses = c.hits + c.misses + 1 := by
  rw [get_eq]
  cases c.live now key with
  | none => rfl
  | some e => exact Nat.add_right_comm _ _ _

@[simp] theorem capacity_get (c : MetricsCache τ) (now : τ) (key : String) :
    (c.get now key).2.capacity = c.capacity := by
  rw [get_eq]
  cases c.live now key <;> rfl

/-! ## Setting -/

/-- The key whose entry is evicted when `key` is set. -/
def victim? (c : MetricsCache τ) (now : τ) (key : String) : Option String :=
  if (sweep now c.entries).has key = false ∧ c.capacity ≤ ((sweep now c.entries).length : Int) then
    match sweep now c.entries with
    | [] => none
    | (k, e) :: rest => some (leastRecent k e.lastAccess rest)
  else none

theorem entries_makeRoom (c : MetricsCache τ) (now : τ) (key : String) :
    (c.makeRoom now key).entries =
      match c.victim? now key with
      | none => sweep now c.entries
      | some k => Entries.erase (sweep now c.entries) k := by
  simp only [makeRoom, victim?, Bool.and_eq_true, Bool.not_eq_true', decide_eq_true_eq]
  split
  · cases sweep now c.entries <;> rfl
  · rfl

theorem leastRecent_mem (key : String) (t : τ) (rest : Entries (CacheEntry τ)) :
    leastRecent key t rest ∈ key :: rest.keys := by
  induction rest generalizing key t with
  | nil => exact List.mem_cons_self
  | cons second rest ih =>
      rw [leastRecent, Entries.keys_cons]
      split
      · exact List.mem_cons_of_mem _ (ih second.1 second.2.lastAccess)
      · exact List.cons_subset_cons _ (List.subset_cons_self _ _) (ih key t)

theorem victim?_mem (h : c.victim? now key = some k) : k ∈ (sweep now c.entries).keys := by
  rw [victim?] at h
  split at h
  · cases hsweep : sweep now c.entries with
    | nil =>
        rw [hsweep] at h
        cases h
    | cons head rest =>
        rw [hsweep] at h
        rw [← Option.some.inj h]
        exact leastRecent_mem _ _ _
  · cases h

theorem victim?_ne (h : c.victim? now key = some k) : k ≠ key := by
  have hmem := Entries.has_iff.mpr (victim?_mem h)
  rw [victim?] at h
  split at h
  · rename_i hfull
    rintro rfl
    rw [hfull.1] at hmem
    cases hmem
  · cases h

/-- The entry that was read least recently stands in the list, and none was read before it. -/
theorem leastRecent_least {α : Type} [LinearOrder α] {time : α → τ} (htime : ∀ a b, time a < time b ↔ a < b)
    {access : String × CacheEntry τ → α} {rest : Entries (CacheEntry τ)} {head : String × CacheEntry τ}
    (hhead : head.2.lastAccess = time (access head)) (hrest : ∀ x ∈ rest, x.2.lastAccess = time (access x)) :
    ∃ x ∈ head :: rest, leastRecent head.1 head.2.lastAccess rest = x.1 ∧
      ∀ y ∈ head :: rest, access x ≤ access y := by
  induction rest generalizing head with
  | nil =>
      refine ⟨head, List.mem_cons_self, rfl, ?_⟩
      intro y hy
      rw [List.mem_singleton.mp hy]
  | cons second rest ih =>
      have hsecond := hrest second List.mem_cons_self
      have hothers : ∀ x ∈ rest, x.2.lastAccess = time (access x) := fun x hx =>
        hrest x (List.mem_cons_of_mem _ hx)
      rw [leastRecent, hhead, hsecond]
      by_cases hearlier : access second < access head
      · obtain ⟨x, hx, hleast, hall⟩ := ih hsecond hothers
        rw [if_pos ((htime _ _).mpr hearlier), ← hsecond]
        refine ⟨x, List.mem_cons_of_mem _ hx, hleast, ?_⟩
        intro y hy
        rcases List.mem_cons.mp hy with rfl | hy
        · exact (hall second List.mem_cons_self).trans (le_of_lt hearlier)
        · exact hall y hy
      · obtain ⟨x, hx, hleast, hall⟩ := ih hhead hothers
        rw [if_neg (mt (htime _ _).mp hearlier), ← hhead]
        refine ⟨x, List.cons_subset_cons _ (List.subset_cons_self _ _) hx, hleast, ?_⟩
        intro y hy
        rcases List.mem_cons.mp hy with rfl | hy
        · exact hall y List.mem_cons_self
        rcases List.mem_cons.mp hy with rfl | hy
        · exact (hall head List.mem_cons_self).trans (not_lt.mp hearlier)
        · exact hall y (List.mem_cons_of_mem _ hy)

/-- A victim is a live entry, of another key, in a full cache; and it was read no later than any other. -/
theorem victim?_spec (hkeys : c.entries.keys.Nodup) {α : Type} [LinearOrder α] {time : α → τ}
    (htime : ∀ a b, time a < time b ↔ a < b) {access : String × CacheEntry τ → α}
    (haccess : ∀ x ∈ c.entries, x.2.lastAccess = time (access x)) (h : c.victim? now key = some k) :
    ∃ e, c.live now k = some e ∧ ∀ k' e', c.live now k' = some e' → access (k, e) ≤ access (k', e') := by
  rw [victim?] at h
  split at h
  · cases hsweep : sweep now c.entries with
    | nil =>
        rw [hsweep] at h
        cases h
    | cons head rest =>
        have hmem : ∀ x ∈ head :: rest, x ∈ c.entries := by
          intro x hx
          rw [← hsweep] at hx
          exact List.mem_of_mem_filter hx
        have hrest : ∀ x ∈ rest, x.2.lastAccess = time (access x) := fun x hx =>
          haccess x (hmem x (List.mem_cons_of_mem _ hx))
        obtain ⟨x, hx, hleast, hall⟩ :=
          leastRecent_least htime (haccess head (hmem head List.mem_cons_self)) hrest
        rw [hsweep] at h
        obtain rfl : k = x.1 := (Option.some.inj h).symm.trans hleast
        have hlive : ∀ k' e', c.live now k' = some e' ↔ (k', e') ∈ head :: rest := by
          intro k' e'
          rw [← hsweep, ← get?_sweep hkeys, Entries.mem_iff_get? (nodup_sweep hkeys now)]
        refine ⟨x.2, (hlive _ _).mpr hx, ?_⟩
        intro k' e' he'
        exact hall (k', e') ((hlive k' e').mp he')
  · cases h

theorem live_eq_none_iff (hkeys : c.entries.keys.Nodup) :
    c.live now key = none ↔ (sweep now c.entries).has key = false := by
  rw [← get?_sweep hkeys, Entries.has, Option.isSome_eq_false_iff, Option.isNone_iff_eq_none]

theorem isSome_victim? (hkeys : c.entries.keys.Nodup) (hcapacity : 1 ≤ c.capacity) :
    (c.victim? now key).isSome = true ↔
      c.live now key = none ∧ c.capacity ≤ ((sweep now c.entries).length : Int) := by
  rw [victim?, live_eq_none_iff hkeys]
  split
  · rename_i hfull
    cases hsweep : sweep now c.entries with
    | nil =>
        rw [hsweep, List.length_nil] at hfull
        omega
    | cons head rest =>
        rw [hsweep] at hfull
        simpa using hfull
  · rename_i hroom
    simp only [Option.isSome_none, Bool.false_eq_true, false_iff]
    exact hroom

theorem get?_set (hkeys : c.entries.keys.Nodup) (now expiresAt : τ) (key : String) (v : Value) (k : String) :
    (c.set now expiresAt key v).entries.get? k =
      if k = key then some ⟨v, expiresAt, now⟩
      else if c.victim? now key = some k then none else c.live now k := by
  rw [set, Entries.get?_put, entries_makeRoom]
  cases c.victim? now key with
  | none => simp [get?_sweep hkeys]
  | some victim => simp only [Entries.get?_erase (nodup_sweep hkeys now), get?_sweep hkeys, Option.some_inj, eq_comm]

theorem nodup_set (hkeys : c.entries.keys.Nodup) (now expiresAt : τ) (key : String) (v : Value) :
    (c.set now expiresAt key v).entries.keys.Nodup := by
  apply Entries.nodup_put
  rw [entries_makeRoom]
  cases c.victim? now key with
  | none => exact nodup_sweep hkeys now
  | some victim => exact Entries.nodup_filter (nodup_sweep hkeys now) _

/-- A full cache makes room before it takes a new key. -/
theorem length_set_le (hkeys : c.entries.keys.Nodup) (hcapacity : 1 ≤ c.capacity)
    (hfull : (c.entries.length : Int) ≤ c.capacity) (now expiresAt : τ) (key : String) (v : Value) :
    ((c.set now expiresAt key v).entries.length : Int) ≤ c.capacity := by
  have hsweep : ((sweep now c.entries).length : Int) ≤ c.capacity := by
    have hle := length_sweep_le now c.entries
    omega
  rw [set, entries_makeRoom]
  cases hvictim : c.victim? now key with
  | none =>
      by_cases hmem : key ∈ (sweep now c.entries).keys
      · simp only [Entries.length_put_of_mem hmem]
        exact hsweep
      · have hroom : ¬ c.capacity ≤ ((sweep now c.entries).length : Int) := by
          intro hno
          have hsome := (isSome_victim? hkeys hcapacity).mpr
            ⟨(live_eq_none_iff hkeys).mpr (Bool.eq_false_iff.mpr (mt Entries.has_iff.mp hmem)), hno⟩
          rw [hvictim] at hsome
          cases hsome
        simp only [Entries.length_put_of_not_mem hmem]
        omega
  | some victim =>
      have hlive : victim ∈ (sweep now c.entries).keys := victim?_mem hvictim
      have herase := Entries.length_erase_of_mem (nodup_sweep hkeys now) hlive
      have hput := Entries.length_put_le (Entries.erase (sweep now c.entries) victim) key ⟨v, expiresAt, now⟩
      simp only
      omega

theorem capacity_set (c : MetricsCache τ) (now expiresAt : τ) (key : String) (v : Value) :
    (c.set now expiresAt key v).capacity = c.capacity := rfl

/-! ## Invalidating -/

/-- Whether a key is among those that a pattern picks; no pattern picks all of them. -/
def Picks (pattern : Option String) (k : String) : Bool :=
  match pattern with
  | none => true
  | some p => Text.containsText k p

omit [LT τ] [DecidableLT τ] in
theorem entries_invalidate (c : MetricsCache τ) (pattern : Option String) :
    (c.invalidate pattern).2.entries = c.entries.filter fun e => !Picks pattern e.1 := by
  cases pattern with
  | none => simp [invalidate, Picks]
  | some p => rfl

omit [LT τ] [DecidableLT τ] in
theorem get?_invalidate (hkeys : c.entries.keys.Nodup) (pattern : Option String) (k : String) :
    (c.invalidate pattern).2.entries.get? k = if Picks pattern k = true then none else c.entries.get? k := by
  rw [entries_invalidate, Entries.get?_filter hkeys]
  by_cases hpicks : Picks pattern k = true
  · simp [hpicks]
  · cases c.entries.get? k <;> simp [hpicks]

omit [LT τ] [DecidableLT τ] in
theorem invalidate_keeps (c : MetricsCache τ) (pattern : Option String) :
    (c.invalidate pattern).2.capacity = c.capacity ∧
      (c.invalidate pattern).2.hits = c.hits ∧ (c.invalidate pattern).2.misses = c.misses := by
  cases pattern <;> exact ⟨rfl, rfl, rfl⟩

end TableSteward.MetricsCache

import TableSteward.Proofs.PacificDay

/-!
# Readings of the Pacific clocks

A reading is what the clocks show, to the second.  When the clocks are put forward some readings are skipped, and when
they are put back some are shown twice.  A reading that is shown at all is read as the first instant at which the clocks
show it or a later one; so instants follow the order of their readings.  Midnight is shown once each day.
-/
set_option autoImplicit false

namespace TableSteward.Pacific

/-! ## Readings in a list of changes -/

/-- What clocks show at an instant that begin with an offset and go through changes. -/
def shownBy (start : Int) (changes : List Change) (instant : Int) : Int :=
  instant + offsetAfter (fun c => c.instant ≤ instant) start changes

/-- The instant as which such clocks are read. -/
def readBy (start : Int) (changes : List Change) (reading : Int) : Int :=
  reading - offsetAfter (fun c => c.shown ≤ reading) start changes

/-- No change takes the clocks back behind what they showed at an earlier change. -/
def Spaced (changes : List Change) : Prop := changes.Pairwise fun c d => c.shown ≤ d.instant + d.after

/-- The clocks show no midnight at the change, neither by the offset before it nor by the one after it. -/
def Change.AvoidsMidnight (c : Change) : Prop :=
  0 < (c.instant + c.before) % 86400 ∧ 0 < (c.instant + c.after) % 86400

instance (changes : List Change) : Decidable (Spaced changes) := inferInstanceAs (Decidable (List.Pairwise _ _))

instance (c : Change) : Decidable c.AvoidsMidnight := inferInstanceAs (Decidable (_ ∧ _))

section

variable {start instant reading : Int} {c : Change} {changes rest : List Change}

theorem shownBy_cons_of_le (h : c.instant ≤ instant) :
    shownBy start (c :: changes) instant = shownBy c.after changes instant := by
  rw [shownBy, offsetAfter_cons_of_reached (decide_eq_true h), shownBy]

theorem shownBy_cons_of_lt (h : instant < c.instant) :
    shownBy start (c :: changes) instant = shownBy start changes instant := by
  rw [shownBy, offsetAfter_cons_of_not_reached (decide_eq_false (Int.not_le.mpr h)), shownBy]

theorem shownBy_of_lt (h : ∀ d ∈ changes, instant < d.instant) :
    shownBy start changes instant = instant + start := by
  rw [shownBy, offsetAfter_of_not_reached fun d hd => decide_eq_false (Int.not_le.mpr (h d hd))]

theorem readBy_cons_of_le (h : c.shown ≤ reading) :
    readBy start (c :: changes) reading = readBy c.after changes reading := by
  rw [readBy, offsetAfter_cons_of_reached (decide_eq_true h), readBy]

theorem readBy_of_lt (h : ∀ d ∈ changes, reading < d.shown) :
    readBy start changes reading = reading - start := by
  rw [readBy, offsetAfter_of_not_reached fun d hd => decide_eq_false (Int.not_le.mpr (h d hd))]

/-- Clocks that are never put back behind a reading stay at it or ahead of it. -/
theorem le_shownBy (hstart : reading ≤ instant + start)
    (hchanges : ∀ d ∈ changes, reading ≤ d.instant + d.after) : reading ≤ shownBy start changes instant := by
  induction changes generalizing start with
  | nil => rwa [shownBy_of_lt (List.forall_mem_nil _)]
  | cons c rest ih =>
      have hrest : ∀ d ∈ rest, reading ≤ d.instant + d.after := fun d hd =>
        hchanges d (List.mem_cons_of_mem c hd)
      by_cases hreached : c.instant ≤ instant
      · rw [shownBy_cons_of_le hreached]
        have hafter := hchanges c List.mem_cons_self
        exact ih (by omega) hrest
      · rw [shownBy_cons_of_lt (Int.not_le.mp hreached)]
        exact ih hstart hrest

/-- A reading that is shown at some time is read as the first instant at which the clocks show it or a later one. -/
theorem Orderly.read_shown (h : Orderly start changes) (hspaced : Spaced changes)
    (hshown : ∃ x, shownBy start changes x = reading) :
    shownBy start changes (readBy start changes reading) = reading ∧
      ∀ x, reading ≤ shownBy start changes x → readBy start changes reading ≤ x := by
  induction changes generalizing start with
  | nil =>
      simp only [shownBy, readBy, offsetAfter, List.foldl_nil]
      exact ⟨by omega, fun x hx => by omega⟩
  | cons c rest ih =>
      obtain ⟨hbefore, -, -, hlater, hrest⟩ := h
      obtain ⟨hspace, hspaced⟩ := List.pairwise_cons.mp hspaced
      obtain ⟨y, hy⟩ := hshown
      have hahead : ∀ x, x < c.instant → shownBy start (c :: rest) x = x + start := fun x hx => by
        refine shownBy_of_lt fun d hd => ?_
        rcases List.mem_cons.mp hd with rfl | hd
        · exact hx
        · exact Int.lt_of_lt_of_le hx (hlater d hd).1
      have hcshown : c.shown = c.instant + max c.before c.after := rfl
      by_cases hreached : c.shown ≤ reading
      · -- the reading comes after the change, and so does every instant that shows it or a later one
        have hbehind : ∀ x, reading ≤ shownBy start (c :: rest) x → c.instant ≤ x := fun x hx => by
          refine Int.not_lt.mp fun hlt => ?_
          rw [hahead x hlt] at hx
          omega
        have hsame : ∀ x, reading ≤ shownBy start (c :: rest) x →
            shownBy start (c :: rest) x = shownBy c.after rest x := fun x hx =>
          shownBy_cons_of_le (hbehind x hx)
        obtain ⟨hread, hfirst⟩ := ih hrest hspaced ⟨y, by rw [← hsame y (Int.le_of_eq hy.symm), hy]⟩
        rw [readBy_cons_of_le hreached]
        have hbelow : c.instant ≤ readBy c.after rest reading := by
          refine Int.not_lt.mp fun hlt => ?_
          rw [shownBy_of_lt fun d hd => Int.lt_of_lt_of_le hlt (hlater d hd).1] at hread
          omega
        refine ⟨by rw [shownBy_cons_of_le hbelow, hread], fun x hx => hfirst x ?_⟩
        rwa [← hsame x hx]
      · have hread : readBy start (c :: rest) reading = reading - start := by
          refine readBy_of_lt fun d hd => ?_
          rcases List.mem_cons.mp hd with rfl | hd
          · exact Int.not_le.mp hreached
          · have := (hlater d hd).2
            omega
        -- the clocks have shown the reading before the change
        have hearly : reading - start < c.instant := by
          by_cases hyearly : y < c.instant
          · rw [hahead y hyearly] at hy
            omega
          · rw [shownBy_cons_of_le (Int.not_lt.mp hyearly)] at hy
            by_cases hforward : c.before ≤ c.after
            · have hlow : c.shown ≤ shownBy c.after rest y :=
                le_shownBy (by omega) hspace
              omega
            · omega
        rw [hread]
        refine ⟨by rw [hahead _ hearly]; omega, fun x hx => ?_⟩
        by_cases hxearly : x < c.instant
        · rw [hahead x hxearly] at hx
          omega
        · omega

/-- A midnight is shown just at the instant as which it is read. -/
theorem Orderly.shownBy_eq_midnight_iff (h : Orderly start changes)
    (havoids : ∀ c ∈ changes, c.AvoidsMidnight) (day : Int) (instant : Int) :
    shownBy start changes instant = day * 86400 ↔ instant = readBy start changes (day * 86400) := by
  induction changes generalizing start with
  | nil =>
      simp only [shownBy, readBy, offsetAfter, List.foldl_nil]
      omega
  | cons c rest ih =>
      obtain ⟨hbefore, hwithin, -, hlater, hrest⟩ := h
      have hstep := ih hrest fun d hd => havoids d (List.mem_cons_of_mem c hd)
      have havoid := havoids c List.mem_cons_self
      unfold Change.AvoidsMidnight at havoid
      unfold Change.WithinDay at hwithin
      have hcshown : c.shown = c.instant + max c.before c.after := rfl
      by_cases hday : c.shown ≤ day * 86400
      · rw [readBy_cons_of_le hday]
        by_cases hinstant : c.instant ≤ instant
        · rw [shownBy_cons_of_le hinstant]
          exact hstep
        · have hahead : ∀ d ∈ rest, instant < d.instant := fun d hd => by
            have := (hlater d hd).1
            omega
          rw [shownBy_of_lt hahead] at hstep
          rw [shownBy_cons_of_lt (Int.not_le.mp hinstant), shownBy_of_lt hahead]
          omega
      · have hread : ∀ d ∈ rest, day * 86400 < d.shown := fun d hd => by
          have := (hlater d hd).2
          omega
        rw [readBy_of_lt hread] at hstep
        rw [readBy_of_lt fun d hd => (List.mem_cons.mp hd).elim (fun h => h ▸ Int.not_le.mp hday) (hread d)]
        by_cases hinstant : c.instant ≤ instant
        · rw [shownBy_cons_of_le hinstant]
          omega
        · have hahead : ∀ d ∈ rest, instant < d.instant := fun d hd => by
            have := (hlater d hd).1
            omega
          rw [shownBy_cons_of_lt (Int.not_le.mp hinstant), shownBy_of_lt hahead]
          omega

end

/-! ## The changes of each year -/

theorem spaced_changesIn (year : Nat) : Spaced (changesIn year) := by
  unfold changesIn
  by_cases hyear : year ≤ lastOfHistory
  · rw [if_pos hyear]
    decide +kernel
  · rw [if_neg hyear]
    have hspring := sunday_bounds year 3 2 (by decide)
    have hautumn := sunday_bounds year 11 1 (by decide)
    have hlength : Date.daysBeforeMonth year 11 = Date.daysBeforeMonth year 3 + 245 := rfl
    refine List.pairwise_pair.mpr ?_
    simp only [Change.shown, spring, autumn, secondsAt, standard, daylight]
    omega

theorem avoidsMidnight_of_mem_changesIn {year : Nat} {c : Change} (hc : c ∈ changesIn year) : c.AvoidsMidnight := by
  unfold changesIn at hc
  by_cases hyear : year ≤ lastOfHistory
  · rw [if_pos hyear] at hc
    revert c
    decide +kernel
  · rw [if_neg hyear] at hc
    simp only [List.mem_cons, List.not_mem_nil, or_false] at hc
    rcases hc with rfl | rfl
    all_goals
      simp only [Change.AvoidsMidnight, spring, autumn, secondsAt, standard, daylight]
      omega

/-! ## Readings at timestamps -/

/-- What the clocks show at a timestamp of Greenwich, in seconds from the first day of the calendar. -/
def shownSecond (t : Timestamp) : Int := t.second + offsetAt t.date.year t.second

theorem shownSecond_eq (t : Timestamp) :
    shownSecond t = shownBy (offsetBefore t.date.year) (changesIn t.date.year) t.second := rfl

theorem toUtc_eq (d : Date) (second : Nat) :
    toUtc d second = readBy (offsetBefore d.year) (changesIn d.year) (localSecond d second) := rfl

theorem shownSecond_bounds (t : Timestamp) : t.second - 86400 < shownSecond t ∧ shownSecond t ≤ t.second := by
  have hoffset : Change.IsOffset (offsetAt t.date.year t.second) := isOffset_offsetWhere _ _
  unfold Change.IsOffset at hoffset
  unfold shownSecond
  omega

/-- The clocks are always behind those of Greenwich. -/
theorem shownSecond_lt (t : Timestamp) : shownSecond t < t.second := by
  have hbefore : offsetBefore t.date.year < 0 := by
    unfold offsetBefore
    split <;> decide
  have hafter : ∀ c ∈ changesIn t.date.year, c.after < 0 := by
    unfold changesIn
    split
    · decide +kernel
    · simp only [List.mem_cons, List.not_mem_nil, or_false, forall_eq_or_imp, forall_eq]
      exact ⟨(by decide : daylight < 0), (by decide : standard < 0)⟩
  have hoffset : offsetAt t.date.year t.second < 0 := by
    unfold offsetAt offsetWhere
    refine List.foldlRecOn (motive := fun offset => offset < 0) _ _ hbefore fun offset hoffset c hc => ?_
    dsimp only
    split
    · exact hafter c hc
    · exact hoffset
  unfold shownSecond
  omega

theorem offsetAfter_concat_of_reached {reached : Change → Bool} {start : Int} {changes : List Change} {c : Change}
    (h : reached c = true) : offsetAfter reached start (changes ++ [c]) = c.after := by
  simp [offsetAfter, h]

/-- On the first day of a year the clocks are where the last change of the year before it has left them. -/
theorem shownBy_newYear {year : Nat} {instant : Int} (hyear : 1 ≤ year)
    (hlow : (Date.daysBeforeYear (year + 1) : Int) * 86400 ≤ instant)
    (hhigh : instant < (Date.daysBeforeYear (year + 1) + 1 : Int) * 86400) :
    shownBy (offsetBefore (year + 1)) (changesIn (year + 1)) instant =
      shownBy (offsetBefore year) (changesIn year) instant := by
  by_cases hhistory : year + 1 ≤ lastOfHistory
  · have hearlier : year ≤ lastOfHistory := Nat.le_of_succ_le hhistory
    simp only [offsetBefore, changesIn, if_pos hhistory, if_pos hearlier]
  have hautumn : (autumn year).instant ≤ instant := by
    have hsunday := (sunday_bounds year 11 1 (by decide)).2
    have hnext := Date.daysBeforeYear_succ hyear
    have hmonths : Date.daysBeforeMonth year 11 + 61 = daysInYear year := by
      rw [← Date.daysBeforeMonth_thirteen]
      rfl
    simp only [autumn, secondsAt]
    omega
  have hspring : instant < (spring (year + 1)).instant := by
    have hsunday := (sunday_bounds (year + 1) 3 2 (by decide)).1
    simp only [spring, secondsAt]
    omega
  have hlater : instant < (autumn (year + 1)).instant := by
    have hlength : Date.daysBeforeMonth (year + 1) 11 = Date.daysBeforeMonth (year + 1) 3 + 245 := rfl
    simp only [autumn, secondsAt]
    omega
  have hbefore : shownBy (offsetBefore (year + 1)) (changesIn (year + 1)) instant = instant + standard := by
    have hahead : ∀ c ∈ changesIn (year + 1), instant < c.instant := by
      unfold changesIn
      rw [if_neg hhistory]
      intro c hc
      simp only [List.mem_cons, List.not_mem_nil, or_false] at hc
      exact hc.elim (fun h => h ▸ hspring) fun h => h ▸ hlater
    rw [shownBy_of_lt hahead, offsetBefore, if_neg hhistory]
  have hafter : offsetAfter (fun c => c.instant ≤ instant) (offsetBefore year) (changesIn year) = standard := by
    have hlast : ∃ changes, changesIn year = changes ++ [autumn year] := by
      unfold changesIn
      by_cases hended : year ≤ lastOfHistory
      · rw [if_pos hended]
        obtain rfl : year = lastOfHistory := by omega
        exact ⟨history, rfl⟩
      · rw [if_neg hended]
        exact ⟨[spring year], rfl⟩
    obtain ⟨changes, hchanges⟩ := hlast
    rw [hchanges, offsetAfter_concat_of_reached (decide_eq_true hautumn)]
    rfl
  rw [hbefore, shownBy, hafter]

/-- An instant that is at most a day behind a reading of a day falls on that day or, by the clocks of Greenwich, on the
next one; so the changes of the year of that day are those that matter. -/
theorem shownSecond_near {d : Date} {second : Nat} (hsecond : second < 86400) {t : Timestamp}
    (hlow : localSecond d second ≤ t.second) (hhigh : t.second < localSecond d second + 86400) :
    shownSecond t = shownBy (offsetBefore d.year) (changesIn d.year) t.second := by
  have ht := t.second_bounds
  have hd := d.dayNumber_bounds
  have ht' := t.date.dayNumber_bounds
  unfold localSecond at hlow hhigh
  have hyear : d.year ≤ t.date.year := Date.year_le_of_dayNumber_le (by omega)
  rcases Nat.eq_or_lt_of_le hyear with hsame | hlater
  · rw [shownSecond_eq, hsame]
  have hnext : t.date.year = d.year + 1 := by
    refine Nat.le_antisymm (Nat.le_of_not_lt fun hfar => ?_) hlater
    have hmono := Date.daysBeforeYear_mono (show d.year + 1 + 1 ≤ t.date.year from hfar)
    have hlength := Date.daysBeforeYear_succ (show 1 ≤ d.year + 1 by omega)
    have hyearLength : 365 ≤ daysInYear (d.year + 1) := by
      unfold daysInYear
      split <;> decide
    omega
  rw [shownSecond_eq, hnext]
  rw [hnext] at ht'
  exact shownBy_newYear d.isDay.1 (by omega) (by omega)

/-- A reading that is not skipped, in the changes of the year of its day. -/
theorem shownBy_toUtc {d : Date} {second : Nat} (hsecond : second < 86400)
    (hshown : ∃ u, shownSecond u = localSecond d second) :
    shownBy (offsetBefore d.year) (changesIn d.year) (toUtc d second) = localSecond d second ∧
      ∀ x, localSecond d second ≤ shownBy (offsetBefore d.year) (changesIn d.year) x → toUtc d second ≤ x := by
  obtain ⟨u, hu⟩ := hshown
  have hbounds := shownSecond_bounds u
  refine (orderly_changesIn d.year).read_shown (spaced_changesIn d.year) ⟨u.second, ?_⟩
  rw [← shownSecond_near hsecond (by omega) (by omega), hu]

theorem localSecond_le_toUtc (d : Date) (second : Nat) :
    localSecond d second ≤ toUtc d second ∧ toUtc d second < localSecond d second + 86400 := by
  have hoffset : Change.IsOffset (offsetOfLocal d.year (localSecond d second)) := isOffset_offsetWhere _ _
  unfold Change.IsOffset at hoffset
  unfold toUtc
  omega

/-- The clocks show a reading that they do not skip at the instant as which it is read. -/
theorem shownSecond_of_toUtc {d : Date} {second : Nat} (hsecond : second < 86400)
    (hshown : ∃ u, shownSecond u = localSecond d second) {t : Timestamp} (ht : t.second = toUtc d second) :
    shownSecond t = localSecond d second := by
  have hnear := localSecond_le_toUtc d second
  rw [shownSecond_near (d := d) hsecond (by omega) (by omega), ht]
  exact (shownBy_toUtc hsecond hshown).1

/-- They show neither the reading nor a later one before that instant. -/
theorem toUtc_le {d : Date} {second : Nat} (hsecond : second < 86400)
    (hshown : ∃ u, shownSecond u = localSecond d second) {u : Timestamp} (hu : localSecond d second ≤ shownSecond u) :
    toUtc d second ≤ u.second := by
  have hnear := localSecond_le_toUtc d second
  -- an instant that is a day behind the reading is behind its first instant, too
  by_cases hfar : localSecond d second + 86400 ≤ u.second
  · omega
  · have hbounds := shownSecond_bounds u
    refine (shownBy_toUtc hsecond hshown).2 u.second ?_
    rwa [← shownSecond_near hsecond (by omega) (by omega)]

/-- Each midnight is shown once, at the instant as which it is read. -/
theorem shownSecond_eq_midnight_iff (d : Date) (t : Timestamp) :
    shownSecond t = localSecond d 0 ↔ t.second = midnight d := by
  have hmidnight : localSecond d 0 = ((d.dayNumber : Int) - 1) * 86400 := Int.add_zero _
  have hlist := (orderly_changesIn d.year).shownBy_eq_midnight_iff (fun _ => avoidsMidnight_of_mem_changesIn)
    ((d.dayNumber : Int) - 1) t.second
  rw [← hmidnight, ← toUtc_eq] at hlist
  rw [midnight, ← hlist]
  have hnear : localSecond d 0 ≤ t.second → t.second < localSecond d 0 + 86400 →
      shownSecond t = shownBy (offsetBefore d.year) (changesIn d.year) t.second :=
    shownSecond_near (by decide)
  constructor
  · intro h
    have hbounds := shownSecond_bounds t
    rw [← hnear (by omega) (by omega), h]
  · intro h
    have hoffset : Change.IsOffset (offsetAfter (fun c => c.instant ≤ t.second) (offsetBefore d.year)
        (changesIn d.year)) := isOffset_offsetWhere _ _
    have hsum : t.second + offsetAfter (fun c => c.instant ≤ t.second) (offsetBefore d.year)
        (changesIn d.year) = localSecond d 0 := h
    unfold Change.IsOffset at hoffset
    rw [hnear (by omega) (by omega), h]

end TableSteward.Pacific

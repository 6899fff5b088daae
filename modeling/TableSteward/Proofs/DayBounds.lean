import Mathlib.Data.Int.Interval
import Mathlib.Data.Set.Card
import TableSteward.Proofs.DayFilters
import TableSteward.Proofs.PacificClock

/-!
# Bounds by the Pacific clocks

A day is read as the interval from the instant at which the clocks show its midnight to the instant at which they show
the midnight of the next day: the days part the time, and each interval is as long as its day is.  A time of a day is
read as the first instant at which the clocks show it, so the order of the readings is the order of their instants; the
last second of a day is read as the midnight behind it.
-/
set_option autoImplicit false

namespace TableSteward

/-! ## Spellings -/

/-- A number in digits of any script. -/
def Text.Numeral (width n : Nat) (cs : List Char) : Prop :=
  cs.length = width ∧ cs.all Text.isDigit = true ∧ Text.digitsValue cs = n

instance (width n : Nat) (cs : List Char) : Decidable (Text.Numeral width n cs) := inferInstanceAs (Decidable (_ ∧ _))

/-- Year, month and day with dashes. -/
inductive DayText (d : Date) : List Char → Prop
  | mk (year month day : List Char) : Text.Numeral 4 d.year year → Text.Numeral 2 d.month month →
      Text.Numeral 2 d.day day → DayText d (year ++ '-' :: (month ++ '-' :: day))

/-- Hour, minute and second with colons. -/
inductive ClockText (c : TimeOfDay) : List Char → Prop
  | mk (hour minute second : List Char) : Text.Numeral 2 c.hour hour → Text.Numeral 2 c.minute minute →
      Text.Numeral 2 c.second second → c.micro = 0 → ClockText c (hour ++ ':' :: (minute ++ ':' :: second))

/-- A day and a time with any white space between them. -/
inductive MomentText (d : Date) (c : TimeOfDay) : List Char → Prop
  | mk (day gap clock : List Char) : DayText d day → gap ≠ [] → gap.all Text.isBlank = true →
      ClockText c clock → MomentText d c (day ++ (gap ++ clock))

/-- The code points of white space. -/
def Text.blanks : List Nat :=
  [0x09, 0x0A, 0x0B, 0x0C, 0x0D, 0x1C, 0x1D, 0x1E, 0x1F, 0x20, 0x85, 0xA0, 0x1680, 0x2000, 0x2001, 0x2002, 0x2003, 0x2004,
    0x2005, 0x2006, 0x2007, 0x2008, 0x2009, 0x200A, 0x2028, 0x2029, 0x202F, 0x205F, 0x3000]

theorem Text.toNat_mem_blanks {c : Char} (h : Text.isBlank c = true) : c.toNat ∈ Text.blanks := by
  simp only [Text.isBlank, Text.isSpacing, Bool.or_eq_true, Bool.and_eq_true, decide_eq_true_eq, beq_iff_eq] at h
  simp only [Text.blanks, List.mem_cons, List.not_mem_nil, or_false]
  omega

theorem Text.not_isDigit_of_isBlank {c : Char} (h : Text.isBlank c = true) : Text.isDigit c = false := by
  have hblanks : ∀ n ∈ Text.blanks, Text.isDigit (Char.ofNat n) = false := by decide +kernel
  have hc := hblanks c.toNat (Text.toNat_mem_blanks h)
  rwa [Char.ofNat_toNat] at hc

section

variable {s : String} {d : Date} {c : TimeOfDay} {cs rest : List Char}

theorem DateText.readDay?_append (h : DayText d cs) (rest : List Char) :
    DateText.readDay? (cs ++ rest) = some ((d.year, d.month, d.day), rest) := by
  obtain ⟨year, month, day, ⟨hylength, hydigits, hyear⟩, ⟨hmlength, hmdigits, hmonth⟩,
    ⟨hdlength, hddigits, hday⟩⟩ := h
  obtain ⟨a, b, c, d, rfl⟩ := List.length_eq_four.mp hylength
  obtain ⟨e, f, rfl⟩ := List.length_eq_two.mp hmlength
  obtain ⟨g, h, rfl⟩ := List.length_eq_two.mp hdlength
  have hdigits : [a, b, c, d, e, f, g, h].all Text.isDigit = true := by
    have hall : ([a, b, c, d] ++ ([e, f] ++ [g, h])).all Text.isDigit = true := by
      rw [List.all_append, List.all_append, hydigits, hmdigits, hddigits]
      rfl
    exact hall
  simp only [List.cons_append, List.nil_append, DateText.readDay?, hdigits, if_true, hyear, hmonth, hday]

theorem DateText.readClock?_eq (h : ClockText c cs) :
    DateText.readClock? cs = some (c.hour, c.minute, c.second) := by
  obtain ⟨hour, minute, second, ⟨hhlength, hhdigits, hhour⟩, ⟨hmlength, hmdigits, hminute⟩,
    ⟨hslength, hsdigits, hsecond⟩, -⟩ := h
  obtain ⟨a, b, rfl⟩ := List.length_eq_two.mp hhlength
  obtain ⟨c, d, rfl⟩ := List.length_eq_two.mp hmlength
  obtain ⟨e, f, rfl⟩ := List.length_eq_two.mp hslength
  have hdigits : [a, b, c, d, e, f].all Text.isDigit = true := by
    have hall : ([a, b] ++ ([c, d] ++ [e, f])).all Text.isDigit = true := by
      rw [List.all_append, List.all_append, hhdigits, hmdigits, hsdigits]
      rfl
    exact hall
  simp only [List.cons_append, List.nil_append, DateText.readClock?, hdigits, if_true, hhour, hminute, hsecond]

theorem spells_of_dayText (h : DayText d s.toList) : Spells s d := by
  have hday := DateText.readDay?_append h []
  rw [List.append_nil] at hday
  rw [Spells, DateText.read?, hday]

/-- A time begins with a digit, so the white space before it ends there. -/
theorem dropWhile_isBlank_append {gap clock : List Char} (hgap : gap.all Text.isBlank = true)
    (hclock : ClockText c clock) : (gap ++ clock).dropWhile Text.isBlank = clock := by
  rw [List.dropWhile_append_of_pos (List.all_eq_true.mp hgap)]
  obtain ⟨hour, minute, second, ⟨hlength, hdigits, -⟩, -, -, -⟩ := hclock
  obtain ⟨a, b, rfl⟩ := List.length_eq_two.mp hlength
  have hblank : Text.isBlank a = false := by
    rw [Bool.eq_false_iff]
    intro hblank
    have hdigit := List.all_eq_true.mp hdigits a List.mem_cons_self
    rw [Text.not_isDigit_of_isBlank hblank] at hdigit
    cases hdigit
  rw [List.cons_append, List.dropWhile_cons_of_neg (by rw [hblank]; exact Bool.false_ne_true)]

theorem DateText.read?_of_momentText (h : MomentText d c s.toList) :
    DateText.read? s = some (.moment d.year d.month d.day c.hour c.minute c.second) := by
  generalize hcs : s.toList = cs at h
  obtain ⟨day, gap, clock, hday, hne, hgap, hclock⟩ := h
  have hread := DateText.readDay?_append hday (gap ++ clock)
  have htime := DateText.readClock?_eq hclock
  rw [← dropWhile_isBlank_append hgap hclock] at htime
  obtain ⟨blank, gap, rfl⟩ := List.exists_cons_of_ne_nil hne
  have hblank := List.all_eq_true.mp hgap blank List.mem_cons_self
  rw [List.cons_append, List.dropWhile_cons_of_pos hblank] at htime
  rw [DateText.read?, hcs, hread]
  simp only [List.cons_append, hblank, if_true, htime, Option.map_some]

end

/-! ## Days -/

/-- At a timestamp of Greenwich the clocks show a time of a day. -/
def Pacific.Shows (t : Timestamp) (d : Date) (c : TimeOfDay) : Prop :=
  t.offset = some 0 ∧ Pacific.shownSecond t = Pacific.localSecond d c.secondOfDay ∧ t.time.micro = c.micro

instance (t : Timestamp) (d : Date) (c : TimeOfDay) : Decidable (Pacific.Shows t d c) :=
  inferInstanceAs (Decidable (_ ∧ _))

/-- For how many microseconds the clocks show a day. -/
noncomputable def Pacific.duration (d : Date) : Nat :=
  {t : Timestamp | t.offset = some 0 ∧ Pacific.shownDay t = d.dayNumber}.ncard

theorem Bound.timestamp_eq {n : Int} (hpos : 0 ≤ n) (hend : n < Timestamp.endOfCalendar) :
    ∃ t, Bound.timestamp n = .ok t ∧ t.offset = some 0 ∧ t.second = n ∧ t.time.micro = 0 := by
  obtain ⟨t, ht, hparts⟩ := Timestamp.ofUtcSeconds?_eq_some hpos hend
  exact ⟨t, by rw [Bound.timestamp, ht], hparts⟩

theorem Bound.startOf_midnight (d : Date) :
    ∃ t, Bound.startOf d = .ok t ∧ t.offset = some 0 ∧ t.second = Pacific.midnight d ∧ t.time.micro = 0 :=
  Bound.timestamp_eq (Pacific.midnight_bounds d).1 (Pacific.midnight_bounds d).2

theorem Timestamp.instant_inj {t u : Timestamp} (ht : t.offset = some 0) (hu : u.offset = some 0)
    (h : t.instant = u.instant) : t = u := by
  rw [Timestamp.instant_of_greenwich ht, Timestamp.instant_of_greenwich hu] at h
  have htmicro := t.time.inDay.2.2.2
  have humicro := u.time.inDay.2.2.2
  exact Timestamp.ext_of_second (ht.trans hu.symm) (by omega) (by omega)

/-- There is a timestamp of Greenwich for every microsecond of the calendar. -/
theorem Timestamp.exists_instant {x : Int} (hpos : 86400000000 ≤ x)
    (hend : x < (Timestamp.endOfCalendar + 86400) * 1000000) :
    ∃ t : Timestamp, t.offset = some 0 ∧ t.instant = x := by
  obtain ⟨whole, -, hoffset, hsecond, -⟩ :=
    Timestamp.ofUtcSeconds?_eq_some (n := x / 1000000 - 86400) (by omega) (by omega)
  obtain ⟨hhour, hminute, hsecond', -⟩ := whole.time.inDay
  let time : TimeOfDay := ⟨whole.time.hour, whole.time.minute, whole.time.second, (x % 1000000).toNat,
    hhour, hminute, hsecond', by omega⟩
  have hsame : Timestamp.second ⟨whole.date, time, some 0⟩ = whole.second := rfl
  refine ⟨⟨whole.date, time, some 0⟩, rfl, ?_⟩
  rw [Timestamp.instant_of_greenwich rfl, hsame, hsecond]
  have hmicro : ((x % 1000000).toNat : Int) = x % 1000000 := Int.toNat_of_nonneg (by omega)
  show (x / 1000000 - 86400 + 86400) * 1000000 + ((x % 1000000).toNat : Int) = x
  omega

theorem Pacific.duration_eq {d : Date} {start stop : Timestamp} (hstart : 86400000000 ≤ start.instant)
    (hstop : stop.instant ≤ (Timestamp.endOfCalendar + 86400) * 1000000) (horder : start.instant ≤ stop.instant)
    (hday : ∀ t : Timestamp, t.offset = some 0 →
      (start.instant ≤ t.instant ∧ t.instant < stop.instant ↔ Pacific.shownDay t = d.dayNumber)) :
    stop.instant - start.instant = Pacific.duration d := by
  have himage : Timestamp.instant '' {t : Timestamp | t.offset = some 0 ∧ Pacific.shownDay t = d.dayNumber} =
      Set.Ico start.instant stop.instant := by
    ext x
    constructor
    · rintro ⟨t, ⟨hoffset, hshown⟩, rfl⟩
      exact (hday t hoffset).mpr hshown
    · rintro ⟨hlow, hhigh⟩
      obtain ⟨t, hoffset, rfl⟩ := Timestamp.exists_instant (Int.le_trans hstart hlow) (Int.lt_of_lt_of_le hhigh hstop)
      exact ⟨t, ⟨hoffset, (hday t hoffset).mp ⟨hlow, hhigh⟩⟩, rfl⟩
  have hinj : Set.InjOn Timestamp.instant
      {t : Timestamp | t.offset = some 0 ∧ Pacific.shownDay t = d.dayNumber} := fun t ht u hu h =>
    Timestamp.instant_inj ht.1 hu.1 h
  rw [Pacific.duration, ← hinj.ncard_image, himage, ← Finset.coe_Ico, Set.ncard_coe_finset, Int.card_Ico,
    Int.toNat_of_nonneg (by omega)]

/-- A day is read as the interval between two midnights: those that the clocks show at its beginning and at the
beginning of the next day.  Later days begin later, and each interval is as long as the clocks show its day. -/
theorem Bound.day_bounds {s : String} {d next : Date} (hs : DayText d s.toList) (hnext : d.IsNext next) :
    ∃ start stop, Bound.ofText s false = .ok start ∧ Bound.ofText s true = .ok stop ∧
      (∀ t, Pacific.Shows t d .midnight ↔ t = start) ∧
      (∀ s', DayText next s'.toList → Bound.ofText s' false = .ok stop) ∧
      (∀ s' d', DayText d' s'.toList → d.dayNumber < d'.dayNumber → ∃ start', Bound.ofText s' false = .ok start' ∧
        start.instant < start'.instant ∧ stop.instant ≤ start'.instant) ∧
      (∀ t, t.offset = some 0 →
        (start.instant ≤ t.instant ∧ t.instant < stop.instant ↔ Pacific.shownDay t = d.dayNumber)) ∧
      stop.instant - start.instant = Pacific.duration d := by
  have hnumber := hnext.dayNumber_eq
  obtain ⟨start, hstart, hoffset, hsecond, hmicro⟩ := Bound.startOf_midnight d
  obtain ⟨stop, hstop, hoffset', hsecond', hmicro'⟩ := Bound.startOf_midnight next
  have hfirst := isFirstInstant_of_second hoffset hsecond hmicro
  have hfirst' := isFirstInstant_of_second hoffset' hsecond' hmicro'
  have hlower : ∀ s' d', DayText d' s'.toList → Bound.ofText s' false = Bound.startOf d' := fun s' d' hs' => by
    rw [Bound.ofText_of_spells (spells_of_dayText hs'), if_neg Bool.false_ne_true]
  have hupper : Bound.ofText s true = .ok stop := by
    rw [Bound.ofText_of_spells (spells_of_dayText hs), if_pos rfl, Bound.startOfNext_eq hnext.next?_eq, hstop]
  have hday : ∀ t : Timestamp, t.offset = some 0 →
      (start.instant ≤ t.instant ∧ t.instant < stop.instant ↔ Pacific.shownDay t = d.dayNumber) := fun t ht => by
    have hlow := hfirst.least t ht
    have hhigh := hfirst'.least t ht
    omega
  have horder : start.instant ≤ stop.instant := by
    refine (hfirst.least stop hoffset').mpr ?_
    rw [hfirst'.shows]
    omega
  refine ⟨start, stop, (hlower s d hs).trans hstart, hupper, fun t => ⟨fun h => ?_, fun h => ?_⟩,
    fun s' hs' => (hlower s' next hs').trans hstop, fun s' d' hs' hlater => ?_, hday, ?_⟩
  · obtain ⟨ht, hshown, htmicro⟩ := h
    have htsecond := (Pacific.shownSecond_eq_midnight_iff d t).mp hshown
    exact Timestamp.ext_of_second (ht.trans hoffset.symm) (htsecond.trans hsecond.symm) (htmicro.trans hmicro.symm)
  · rw [h]
    exact ⟨hoffset, (Pacific.shownSecond_eq_midnight_iff d start).mpr hsecond, hmicro⟩
  · obtain ⟨start', hstart', hfirst''⟩ := Bound.startOf_eq d'
    refine ⟨start', (hlower s' d' hs').trans hstart', ?_, ?_⟩
    · have hearlier := hfirst''.least start hoffset
      rw [hfirst.shows] at hearlier
      omega
    · refine (hfirst'.least start' hfirst''.greenwich).mpr ?_
      rw [hfirst''.shows]
      omega
  · have hbounds := Pacific.midnight_bounds d
    have hbounds' := Pacific.midnight_bounds next
    refine Pacific.duration_eq ?_ ?_ horder hday
    · rw [Timestamp.instant_of_greenwich hoffset]
      omega
    · rw [Timestamp.instant_of_greenwich hoffset']
      omega

/-- In 2025 daylight time began on the ninth of March. -/
theorem Bound.day_bounds_spring :
    Bound.ofText "2025-03-09" false = .ok ⟨⟨2025, 3, 9, by decide⟩, ⟨8, 0, 0, 0, by decide⟩, some 0⟩ ∧
      Bound.ofText "2025-03-09" true = .ok ⟨⟨2025, 3, 10, by decide⟩, ⟨7, 0, 0, 0, by decide⟩, some 0⟩ ∧
      Pacific.duration ⟨2025, 3, 9, by decide⟩ = 23 * 3600000000 := by
  have hstart : Bound.ofText "2025-03-09" false =
      .ok ⟨⟨2025, 3, 9, by decide⟩, ⟨8, 0, 0, 0, by decide⟩, some 0⟩ := by decide +kernel
  have hstop : Bound.ofText "2025-03-09" true =
      .ok ⟨⟨2025, 3, 10, by decide⟩, ⟨7, 0, 0, 0, by decide⟩, some 0⟩ := by decide +kernel
  have htext : DayText ⟨2025, 3, 9, by decide⟩ "2025-03-09".toList :=
    .mk ['2', '0', '2', '5'] ['0', '3'] ['0', '9'] (by decide) (by decide) (by decide)
  obtain ⟨start, stop, hstart', hstop', -, -, -, -, hduration⟩ :=
    @Bound.day_bounds "2025-03-09" ⟨2025, 3, 9, by decide⟩ ⟨2025, 3, 10, by decide⟩ htext (by decide)
  obtain rfl := Except.ok.inj (hstart'.symm.trans hstart)
  obtain rfl := Except.ok.inj (hstop'.symm.trans hstop)
  refine ⟨hstart, hstop, ?_⟩
  have hlength : (23 * 3600000000 : Int) = Pacific.duration ⟨2025, 3, 9, by decide⟩ := hduration
  omega

/-! ## Times of a day -/

def TimeOfDay.lastSecond : TimeOfDay := ⟨23, 59, 59, 0, by decide⟩

/-- What the clocks show at the bound that is given by a time of a day: that time, or midnight after the last second. -/
def Pacific.boundSecond (d : Date) (c : TimeOfDay) : Int :=
  if c = .lastSecond then Pacific.localSecond d 86400 else Pacific.localSecond d c.secondOfDay

/-- The first timestamp of Greenwich at which the clocks show a reading or a later one. -/
structure Pacific.IsReading (reading : Int) (t : Timestamp) : Prop where
  greenwich : t.offset = some 0
  whole : t.time.micro = 0
  shows : Pacific.shownSecond t = reading
  least : ∀ u, reading ≤ Pacific.shownSecond u → t.second ≤ u.second

section

variable {s : String} {d : Date} {c : TimeOfDay} {upper : Bool}

theorem Pacific.IsReading.mono {reading reading' : Int} {t t' : Timestamp} (h : Pacific.IsReading reading t)
    (h' : Pacific.IsReading reading' t') (hle : reading ≤ reading') : t.instant ≤ t'.instant := by
  have hsecond : t.second ≤ t'.second := h.least t' (by rw [h'.shows]; exact hle)
  rw [Timestamp.instant_of_greenwich h.greenwich, Timestamp.instant_of_greenwich h'.greenwich, h.whole, h'.whole]
  omega

theorem MomentText.whole {cs : List Char} (h : MomentText d c cs) : c.micro = 0 := by
  obtain ⟨-, -, -, -, -, -, ⟨-, -, -, -, -, -, hwhole⟩⟩ := h
  exact hwhole

/-- A reading that the clocks do not skip is read as an instant of the calendar. -/
theorem Bound.timestamp_toUtc {second : Nat} (hsecond : second < 86400)
    (hshown : ∃ u, Pacific.shownSecond u = Pacific.localSecond d second) :
    ∃ t, Bound.timestamp (Pacific.toUtc d second) = .ok t ∧
      Pacific.IsReading (Pacific.localSecond d second) t := by
  obtain ⟨u, hu⟩ := hshown
  have hbefore : Pacific.toUtc d second ≤ u.second := Pacific.toUtc_le hsecond ⟨u, hu⟩ (Int.le_of_eq hu.symm)
  have hend : Pacific.toUtc d second < Timestamp.endOfCalendar := by
    have hbounds := u.second_bounds
    have hlast := u.date.dayNumber_le_lastNumber
    unfold Timestamp.endOfCalendar
    omega
  obtain ⟨t, ht, hoffset, htsecond, hmicro⟩ := Bound.timestamp_eq (Pacific.toUtc_bounds d hsecond).1 hend
  refine ⟨t, ht, hoffset, hmicro, Pacific.shownSecond_of_toUtc hsecond ⟨u, hu⟩ htsecond, fun v hv => ?_⟩
  rw [htsecond]
  exact Pacific.toUtc_le hsecond ⟨u, hu⟩ hv

theorem Bound.startOf_reading (d : Date) :
    ∃ t, Bound.startOf d = .ok t ∧ Pacific.IsReading (Pacific.localSecond d 0) t := by
  obtain ⟨t, -, -, hsecond, -⟩ := Bound.startOf_midnight d
  exact Bound.timestamp_toUtc (by decide) ⟨t, (Pacific.shownSecond_eq_midnight_iff d t).mpr hsecond⟩

/-- The clocks show the last second of a day only if there is a next day: they are behind those of Greenwich. -/
theorem Pacific.next_of_shown {u : Timestamp} (h : Pacific.shownSecond u = Pacific.localSecond d 86399) :
    ∃ next, d.next? = some next := by
  refine Option.ne_none_iff_exists'.mp fun hnone => ?_
  have hlast := Date.next?_eq_none_iff.mp hnone
  have hbehind := Pacific.shownSecond_lt u
  have hbounds := u.second_bounds
  have hdate := u.date.dayNumber_le_lastNumber
  unfold Pacific.localSecond at h
  omega

theorem Bound.ofText_of_momentText (h : MomentText d c s.toList) (upper : Bool) :
    Bound.ofText s upper =
      if c = .lastSecond then Bound.startOfNext d else Bound.timestamp (Pacific.toUtc d c.secondOfDay) := by
  have hday : Bound.dayOf s d.year d.month d.day = .ok d := by
    rw [Bound.dayOf, Date.ofParts?, dif_pos d.isDay]
  have hread := DateText.read?_of_momentText h
  have hwhole := h.whole
  have hparts : ∀ e : TimeOfDay, e.micro = 0 →
      ((c.hour, c.minute, c.second) = (e.hour, e.minute, e.second) ↔ c = e) := fun e he => by
    constructor
    · intro hparts
      simp only [Prod.mk.injEq] at hparts
      refine TimeOfDay.ext_of_second ?_ (hwhole.trans he.symm)
      rw [TimeOfDay.secondOfDay, TimeOfDay.secondOfDay, hparts.1, hparts.2.1, hparts.2.2]
    · rintro rfl
      rfl
  have hmidnight : (c.hour, c.minute, c.second) = (0, 0, 0) ↔ c = .midnight := hparts .midnight rfl
  have hlast : (c.hour, c.minute, c.second) = (23, 59, 59) ↔ c = .lastSecond := hparts .lastSecond rfl
  have htime : TimeOfDay.ofParts? c.hour c.minute c.second 0 = some c := by
    have hinDay := c.inDay
    rw [hwhole] at hinDay
    rw [TimeOfDay.ofParts?, dif_pos hinDay]
    obtain ⟨hour, minute, second, micro, hparts⟩ := c
    obtain rfl : micro = 0 := hwhole
    rfl
  unfold Bound.ofText
  rw [hread]
  simp only [hday, Result.ok_bind, htime, hmidnight, hlast]
  by_cases hc : c = .midnight
  · rw [if_pos hc, hc]
    rfl
  · rw [if_neg hc]

/-- What is accepted as a bound is the first instant of its reading, whether it is a lower or an upper bound. -/
theorem Bound.ofText_reading (h : MomentText d c s.toList) (hshown : ∃ u, Pacific.Shows u d c) :
    ∃ t, (∀ upper, Bound.ofText s upper = .ok t) ∧ Pacific.IsReading (Pacific.boundSecond d c) t := by
  obtain ⟨u, -, hu, -⟩ := hshown
  rw [Pacific.boundSecond]
  by_cases hlast : c = .lastSecond
  · rw [hlast] at hu
    obtain ⟨next, hnext⟩ := Pacific.next_of_shown hu
    obtain ⟨t, ht, hreading⟩ := Bound.startOf_reading next
    have hsame : Pacific.localSecond next 0 = Pacific.localSecond d 86400 := by
      rw [Pacific.localSecond, Pacific.localSecond, Date.dayNumber_next hnext]
      omega
    rw [if_pos hlast, ← hsame]
    refine ⟨t, fun upper => ?_, hreading⟩
    rw [Bound.ofText_of_momentText h, if_pos hlast, Bound.startOfNext_eq hnext, ht]
  · obtain ⟨t, ht, hreading⟩ := Bound.timestamp_toUtc c.secondOfDay_lt ⟨u, hu⟩
    rw [if_neg hlast]
    exact ⟨t, fun upper => by rw [Bound.ofText_of_momentText h, if_neg hlast, ht], hreading⟩

/-- The last second of a day is read as a later reading, but no reading lies between the two. -/
theorem Pacific.boundSecond_mono {d' : Date} {c' : TimeOfDay} (hc' : c'.micro = 0)
    (hle : Pacific.localSecond d c.secondOfDay ≤ Pacific.localSecond d' c'.secondOfDay) :
    Pacific.boundSecond d c ≤ Pacific.boundSecond d' c' := by
  have hsecond := c.secondOfDay_lt
  have hsecond' := c'.secondOfDay_lt
  have hlast : c = .lastSecond → c.secondOfDay = 86399 := fun h => by rw [h]; rfl
  have hlast' : c' = .lastSecond ↔ c'.secondOfDay = 86399 :=
    ⟨fun h => by rw [h]; rfl, fun h => TimeOfDay.ext_of_second h hc'⟩
  unfold Pacific.boundSecond
  unfold Pacific.localSecond at *
  by_cases hc : c = .lastSecond
  · rw [if_pos hc]
    have hfull := hlast hc
    split
    · omega
    · have hshort := mt hlast'.mpr ‹_›
      omega
  · rw [if_neg hc]
    split
    · omega
    · exact hle

/-- A time of a day that the clocks do not skip is read as the first instant at which they show it, and the last second
of a day as the midnight after it.  Two such bounds are in the order of what the clocks show, so no range between them is
empty. -/
theorem Bound.moment_bounds (hs : MomentText d c s.toList) (hshown : ∃ u, Pacific.Shows u d c) :
    ∃ t, (∀ upper, Bound.ofText s upper = .ok t) ∧
      (c ≠ .lastSecond → Pacific.Shows t d c ∧ ∀ u, Pacific.Shows u d c → t.instant ≤ u.instant) ∧
      (c = .lastSecond → ∃ next, d.IsNext next ∧ ∀ s', MomentText next .midnight s'.toList →
        ∀ upper, Bound.ofText s' upper = .ok t) ∧
      ∀ s' d' c', MomentText d' c' s'.toList → (∃ u, Pacific.Shows u d' c') →
        Pacific.localSecond d c.secondOfDay ≤ Pacific.localSecond d' c'.secondOfDay →
        ∃ t', (∀ upper, Bound.ofText s' upper = .ok t') ∧ t.instant ≤ t'.instant ∧
          ∀ (resolve : Resolver) (name : String) (column : ColumnExpr), resolve name = .ok column →
            Where.ofFilters resolve [⟨name, "between", .list [.text s, .text s']⟩] =
              .ok ⟨[.between column (.timestamp t) (.timestamp t')], 0⟩ := by
  obtain ⟨t, ht, hreading⟩ := Bound.ofText_reading hs hshown
  refine ⟨t, ht, fun hlast => ?_, fun hlast => ?_, fun s' d' c' hs' hshown' hle => ?_⟩
  · rw [Pacific.boundSecond, if_neg hlast] at hreading
    refine ⟨⟨hreading.greenwich, hreading.shows, hreading.whole.trans hs.whole.symm⟩, fun u hu => ?_⟩
    have hsecond := hreading.least u (Int.le_of_eq hu.2.1.symm)
    rw [Timestamp.instant_of_greenwich hreading.greenwich, Timestamp.instant_of_greenwich hu.1, hreading.whole]
    omega
  · obtain ⟨u, -, hu, -⟩ := hshown
    rw [hlast] at hu
    obtain ⟨next, hnext⟩ := Pacific.next_of_shown hu
    refine ⟨next, Date.isNext_of_next?_eq hnext, fun s' hs' upper => ?_⟩
    rw [← ht upper, Bound.ofText_of_momentText hs, if_pos hlast, Bound.startOfNext_eq hnext,
      Bound.ofText_of_momentText hs', if_neg (by decide)]
    rfl
  · obtain ⟨t', ht', hreading'⟩ := Bound.ofText_reading hs' hshown'
    exact ⟨t', ht', hreading.mono hreading' (Pacific.boundSecond_mono hs'.whole hle),
      fun resolve name column hcolumn => Where.ofFilters_between hcolumn (ht false) (ht' true)⟩

end

/-- In 2025 daylight time ended on the second of November, so half past one was shown twice. -/
theorem Bound.moment_bounds_autumn :
    ∃ start stop : Timestamp, Bound.ofText "2025-11-02 \t01:30:٠٠" false = .ok start ∧
      start = ⟨⟨2025, 11, 2, by decide⟩, ⟨8, 30, 0, 0, by decide⟩, some 0⟩ ∧
      (∀ u, Pacific.Shows u ⟨2025, 11, 2, by decide⟩ ⟨1, 30, 0, 0, by decide⟩ → start.instant ≤ u.instant) ∧
      Bound.ofText "2025-11-02 23:59:59" true = .ok stop ∧
      stop = ⟨⟨2025, 11, 3, by decide⟩, ⟨8, 0, 0, 0, by decide⟩, some 0⟩ ∧ start.instant ≤ stop.instant := by
  have hday : DayText ⟨2025, 11, 2, by decide⟩ ['2', '0', '2', '5', '-', '1', '1', '-', '0', '2'] :=
    .mk ['2', '0', '2', '5'] ['1', '1'] ['0', '2'] (by decide) (by decide) (by decide)
  have htext : MomentText ⟨2025, 11, 2, by decide⟩ ⟨1, 30, 0, 0, by decide⟩ "2025-11-02 \t01:30:٠٠".toList :=
    .mk _ [' ', '\t'] ['0', '1', ':', '3', '0', ':', '٠', '٠'] hday (by decide) (by decide)
      (.mk ['0', '1'] ['3', '0'] ['٠', '٠'] (by decide) (by decide) (by decide +kernel) rfl)
  have htext' : MomentText ⟨2025, 11, 2, by decide⟩ .lastSecond "2025-11-02 23:59:59".toList :=
    .mk _ [' '] ['2', '3', ':', '5', '9', ':', '5', '9'] hday (by decide) (by decide)
      (.mk ['2', '3'] ['5', '9'] ['5', '9'] (by decide) (by decide) (by decide) rfl)
  have hshown : ∃ u, Pacific.Shows u ⟨2025, 11, 2, by decide⟩ ⟨1, 30, 0, 0, by decide⟩ :=
    ⟨⟨⟨2025, 11, 2, by decide⟩, ⟨9, 30, 0, 0, by decide⟩, some 0⟩, by decide +kernel⟩
  have hshown' : ∃ u, Pacific.Shows u ⟨2025, 11, 2, by decide⟩ .lastSecond :=
    ⟨⟨⟨2025, 11, 3, by decide⟩, ⟨7, 59, 59, 0, by decide⟩, some 0⟩, by decide +kernel⟩
  obtain ⟨start, hstart, hfirst, -, horder⟩ := Bound.moment_bounds htext hshown
  obtain ⟨stop, hstop, hle, -⟩ := horder _ _ _ htext' hshown' (by decide)
  have hstart' : Bound.ofText "2025-11-02 \t01:30:٠٠" false =
      .ok ⟨⟨2025, 11, 2, by decide⟩, ⟨8, 30, 0, 0, by decide⟩, some 0⟩ := by decide +kernel
  have hstop' : Bound.ofText "2025-11-02 23:59:59" true =
      .ok ⟨⟨2025, 11, 3, by decide⟩, ⟨8, 0, 0, 0, by decide⟩, some 0⟩ := by decide +kernel
  exact ⟨start, stop, hstart false, Except.ok.inj ((hstart false).symm.trans hstart'), (hfirst (by decide)).2,
    hstop true, Except.ok.inj ((hstop true).symm.trans hstop'), hle⟩

end TableSteward

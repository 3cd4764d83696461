import ContentGenerator.Workflows.Schedule

/-!
# The next slot of a schedule

The slot of a day is the instant of the configured wall time, moved forward out of a gap (`Resolves`); the
slots of later days are later (`slot_lt_slot`). What should be computed is the first slot after an instant
(`NextSlot`).

The code looks for it by the readings of the clock: `weeklyFrom_eq_ok_iff` says what the search finds. A slot in
a stretch that the clock is about to repeat lies ahead by its reading and in the past by its instant, and a
slot moved past midnight is taken for one of the next day. `next_run_iff` is the exact condition under which
the search finds the next slot.
-/

namespace ContentGenerator.Workflows

open Lib List Nat
open TriggerConfig (daily interval nextIn weekly)

variable {after localAfter date : ℤ} {steps' steps : ℕ}

/-! ### Slots -/

/-- The clock at the instant of a local time shows that minute. -/
def ShowsMinute (tz : Timezone) (wall : ℤ) : Prop :=
  astimezone tz (astimezoneUtc tz wall) / minute = wall / minute

/-- From a local time, fewer than `steps` minutes on, the first one that the clock shows. -/
def ResolvesWithin (tz : Timezone) (steps : ℕ) (wall resolved : ℤ) : Prop :=
  ∃ k < steps, resolved = wall + k * minute ∧ ShowsMinute tz resolved ∧
    ∀ j < k, ¬ ShowsMinute tz (wall + j * minute)

/-- The local time that a local time stands for: the first one that the clock shows, at most three hours
on. -/
def Resolves (tz : Timezone) (wall resolved : ℤ) : Prop := ResolvesWithin tz 181 wall resolved

def ClockTime.on (clock : ClockTime) (date : ℤ) : ℤ := date * day + clock.hh * hour + clock.mm * minute

def ClockTime.Valid (clock : ClockTime) : Prop := clock.hh ≤ 23 ∧ clock.mm ≤ 59

instance (tz : Timezone) (wall : ℤ) : Decidable (ShowsMinute tz wall) :=
  inferInstanceAs (Decidable (astimezone tz (astimezoneUtc tz wall) / minute = wall / minute))

variable {tz : Timezone} {clock : ClockTime} {wall resolved resolved' : ℤ}

theorem ResolvesWithin.mono (h : ResolvesWithin tz steps wall resolved)
    (hsteps : steps ≤ steps') : ResolvesWithin tz steps' wall resolved := by
  obtain ⟨k, hk, hrest⟩ := h
  exact ⟨k, hk.trans_le hsteps, hrest⟩

/-- A local time stands for one only. -/
theorem ResolvesWithin.unique (h : ResolvesWithin tz steps wall resolved)
    (h' : ResolvesWithin tz steps' wall resolved') : resolved = resolved' := by
  obtain ⟨k, -, rfl, hshows, hbefore⟩ := h
  obtain ⟨k', -, rfl, hshows', hbefore'⟩ := h'
  rcases lt_trichotomy k k' with hlt | rfl | hgt
  · exact absurd hshows (hbefore' k hlt)
  · rfl
  · exact absurd hshows' (hbefore k' hgt)

/-- What the walk finds. -/
theorem probeFrom_eq_some_iff {probe : ℤ} :
    probeFrom tz steps probe = some resolved ↔ ResolvesWithin tz steps probe resolved := by
  induction steps generalizing probe with
  | zero => simp [probeFrom, ResolvesWithin]
  | succ steps ih =>
    change (if ShowsMinute tz probe then some probe else probeFrom tz steps (probe + minute)) = _ ↔ _
    by_cases hshows : ShowsMinute tz probe
    · rw [if_pos hshows]
      have hself : ResolvesWithin tz (steps + 1) probe probe :=
        ⟨0, succ_pos _, by simp, hshows, fun j hj ↦ absurd hj (Nat.not_lt_zero j)⟩
      constructor
      · intro h
        rwa [← Option.some.inj h]
      · intro h
        rw [hself.unique h]
    · rw [if_neg hshows, ih]
      constructor
      · rintro ⟨k, hk, rfl, hfound, hbefore⟩
        refine ⟨k + 1, succ_lt_succ hk, by push_cast; ring, hfound, fun j hj ↦ ?_⟩
        cases j with
        | zero => simpa using hshows
        | succ j =>
          have hnot := hbefore j (lt_of_succ_lt_succ hj)
          rwa [show probe + minute + (j : ℤ) * minute = probe + ((j + 1 : ℕ) : ℤ) * minute by
            push_cast; ring] at hnot
      · rintro ⟨k, hk, rfl, hfound, hbefore⟩
        cases k with
        | zero => exact absurd (by simpa using hfound) hshows
        | succ k =>
          refine ⟨k, lt_of_succ_lt_succ hk, by push_cast; ring, hfound, fun j hj ↦ ?_⟩
          have hnot := hbefore (j + 1) (succ_lt_succ hj)
          rwa [show probe + ((j + 1 : ℕ) : ℤ) * minute = probe + minute + (j : ℤ) * minute by
            push_cast; ring] at hnot

theorem combineLocalWallTime_eq_ok_iff :
    combineLocalWallTime tz date clock.hh clock.mm = .ok resolved ↔
      ResolvesWithin tz 180 (clock.on date) resolved := by
  rw [← probeFrom_eq_some_iff]
  unfold combineLocalWallTime ClockTime.on
  split
  · rename_i found hfound
    rw [hfound]
    exact ⟨fun h ↦ congrArg some (Except.ok.inj h), fun h ↦ congrArg Except.ok (Option.some.inj h)⟩
  · rename_i hnone
    rw [hnone]
    exact iff_of_false (by simp) (by simp)

theorem minute_dvd_on (clock : ClockTime) (date : ℤ) : minute ∣ clock.on date :=
  ⟨date * 1440 + clock.hh * 60 + clock.mm, by unfold ClockTime.on day hour; ring⟩

theorem ResolvesWithin.bounds (hwall : minute ∣ wall) (h : ResolvesWithin tz steps wall resolved) :
    minute ∣ resolved ∧ wall ≤ resolved ∧ resolved < wall + steps * minute := by
  obtain ⟨k, hk, rfl, -⟩ := h
  have hpos := minute_pos
  refine ⟨hwall.add (Dvd.intro_left _ rfl), le_add_of_nonneg_right (mul_nonneg (Int.natCast_nonneg k) hpos.le), ?_⟩
  have hlt : (k : ℤ) * minute < steps * minute := mul_lt_mul_of_pos_right (Int.ofNat_lt.mpr hk) hpos
  omega

/-- The slot of a later day is later. -/
theorem slot_lt_slot {date' : ℤ} (hdate : date < date') (h : Resolves tz (clock.on date) resolved)
    (h' : Resolves tz (clock.on date') resolved') : astimezoneUtc tz resolved < astimezoneUtc tz resolved' := by
  obtain ⟨hminute, hle, hlt⟩ := h.bounds (minute_dvd_on clock date)
  obtain ⟨hminute', hle', -⟩ := h'.bounds (minute_dvd_on clock date')
  obtain ⟨k, -, -, hshows, -⟩ := h
  have hdays : clock.on date + day ≤ clock.on date' := by
    unfold ClockTime.on
    have hmul : (date + 1) * day ≤ date' * day := mul_le_mul_of_nonneg_right hdate day_pos.le
    rw [add_mul, one_mul] at hmul
    omega
  have hreading : astimezone tz (astimezoneUtc tz resolved) < resolved' := by
    have hfloor := Int.lt_ediv_add_one_mul_self (astimezone tz (astimezoneUtc tz resolved)) minute_pos
    rw [hshows, add_mul, one_mul, Int.ediv_mul_cancel hminute] at hfloor
    have hminutes : (181 : ℕ) * minute + minute < day := by decide
    omega
  exact lt_of_occurrenceKey_lt (occurrenceKey_lt_of_astimezone_lt tz (second_dvd_minute.trans hminute)
    (second_dvd_minute.trans hminute') hreading)

/-! ### What the search finds -/

/-- The loop over consecutive days. -/
theorem weeklyFrom_eq_ok_iff {wanted : List ℤ} {next : ℤ} {start : ℕ} :
    weeklyFrom tz wanted localAfter clock.hh clock.mm (range' start steps) = .ok next ↔
      ∃ offset, start ≤ offset ∧ offset < start + steps ∧
        (∀ earlier, start ≤ earlier → earlier < offset → ∃ wall,
          ResolvesWithin tz 180 (clock.on (localAfter / day + earlier)) wall ∧
            ¬ (weekday wall ∈ wanted ∧ localAfter < wall)) ∧
        ∃ wall, ResolvesWithin tz 180 (clock.on (localAfter / day + offset)) wall ∧
          (weekday wall ∈ wanted ∧ localAfter < wall) ∧ next = astimezoneUtc tz wall := by
  have hdate : ∀ offset : ℕ, (localAfter + offset * day) / day = localAfter / day + offset :=
    fun offset ↦ Int.add_mul_ediv_right _ _ day_pos.ne'
  induction steps generalizing start with
  | zero =>
    refine iff_of_false (by simp [weeklyFrom]) ?_
    rintro ⟨offset, hstart, hend, -⟩
    omega
  | succ steps ih =>
    rw [range'_succ, weeklyFrom, hdate]
    cases hcandidate : combineLocalWallTime tz (localAfter / day + start) clock.hh clock.mm with
    | error error =>
      refine iff_of_false (by simp [bind, Except.bind]) ?_
      rintro ⟨offset, hstart, -, hearlier, wall, hwall, -⟩
      have hfirst : ∃ wall, ResolvesWithin tz 180 (clock.on (localAfter / day + start)) wall := by
        rcases hstart.eq_or_lt with rfl | hlt
        · exact ⟨wall, hwall⟩
        · obtain ⟨found, hfound, -⟩ := hearlier start le_rfl hlt
          exact ⟨found, hfound⟩
      obtain ⟨found, hfound⟩ := hfirst
      rw [combineLocalWallTime_eq_ok_iff.mpr hfound] at hcandidate
      cases hcandidate
    | ok candidate =>
      have hresolves := combineLocalWallTime_eq_ok_iff.mp hcandidate
      change (if weekday candidate ∈ wanted ∧ localAfter < candidate then Except.ok (astimezoneUtc tz candidate)
        else weeklyFrom tz wanted localAfter clock.hh clock.mm (range' (start + 1) steps)) = _ ↔ _
      by_cases haccepted : weekday candidate ∈ wanted ∧ localAfter < candidate
      · rw [if_pos haccepted]
        constructor
        · intro h
          exact ⟨start, le_rfl, by omega, fun earlier hge hlt ↦ absurd hlt (not_lt.mpr hge), candidate, hresolves,
            haccepted, (Except.ok.inj h).symm⟩
        · rintro ⟨offset, hstart, -, hearlier, wall, hwall, -, rfl⟩
          rcases hstart.eq_or_lt with rfl | hlt
          · rw [hresolves.unique hwall]
          · obtain ⟨found, hfound, hrejected⟩ := hearlier start le_rfl hlt
            rw [hfound.unique hresolves] at hrejected
            exact absurd haccepted hrejected
      · rw [if_neg haccepted]
        refine Iff.trans ih ?_
        constructor
        · rintro ⟨offset, hstart, hend, hearlier, hfound⟩
          refine ⟨offset, by omega, by omega, fun earlier hge hlt ↦ ?_, hfound⟩
          rcases hge.eq_or_lt with rfl | hgt
          · exact ⟨candidate, hresolves, haccepted⟩
          · exact hearlier earlier hgt hlt
        · rintro ⟨offset, hstart, hend, hearlier, wall, hwall, hok, rfl⟩
          rcases hstart.eq_or_lt with rfl | hlt
          · rw [hwall.unique hresolves] at hok
            exact absurd hok haccepted
          · exact ⟨offset, hlt, by omega, fun earlier hge ↦ hearlier earlier (by omega), wall, hwall, hok, rfl⟩

def everyDay : List ℤ := [0, 1, 2, 3, 4, 5, 6]

theorem weekday_mem_everyDay (wall : ℤ) : weekday wall ∈ everyDay := by
  have hnonneg := Int.emod_nonneg (wall / day + 3) (show (7 : ℤ) ≠ 0 by decide)
  have hlt := Int.emod_lt_of_pos (wall / day + 3) (show (0 : ℤ) < 7 by decide)
  unfold weekday everyDay
  simp only [mem_cons, not_mem_nil, or_false]
  omega

def WeeklyTriggerConfig.wanted (config : WeeklyTriggerConfig) : List ℤ := config.days.map Weekday.index

theorem parseHhmm_of_valid (hclock : clock.Valid) : parseHhmm clock = .ok (clock.hh, clock.mm) := by
  obtain ⟨hhh, hmm⟩ := hclock
  exact if_neg (by omega)

theorem parseHhmm_of_not_valid (hclock : ¬ clock.Valid) :
    parseHhmm clock = .error (.invalidTime clock.hh clock.mm) := by
  unfold ClockTime.Valid at hclock
  exact if_pos (by omega)

theorem nextIn_weekly (config : WeeklyTriggerConfig) (hclock : config.clock.Valid) :
    (weekly config).nextIn tz after =
      weeklyFrom tz config.wanted (astimezone tz after) config.clock.hh config.clock.mm (range' 0 8) := by
  unfold nextIn
  dsimp only
  rw [parseHhmm_of_valid hclock]
  rfl

/-- Wall times of later days have not been read on an earlier one. -/
theorem lt_of_resolvesWithin (hdate : localAfter / day < date)
    (h : ResolvesWithin tz steps (clock.on date) wall) : localAfter < wall := by
  have hle := (h.bounds (minute_dvd_on clock date)).2.1
  have hstart : date * day ≤ clock.on date := by
    have hhour : 0 ≤ (clock.hh : ℤ) * hour := mul_nonneg (Int.natCast_nonneg _) hour_pos.le
    have hminute : 0 ≤ (clock.mm : ℤ) * minute := mul_nonneg (Int.natCast_nonneg _) minute_pos.le
    unfold ClockTime.on
    omega
  exact (Int.lt_mul_of_ediv_lt day_pos hdate).trans_le (hstart.trans hle)

theorem nextIn_daily (config : DailyTriggerConfig) (hclock : config.clock.Valid) :
    (daily config).nextIn tz after =
      weeklyFrom tz everyDay (astimezone tz after) config.clock.hh config.clock.mm (range' 0 8) := by
  have hdate : ∀ offset : ℕ, (astimezone tz after + offset * day) / day = astimezone tz after / day + offset :=
    fun offset ↦ Int.add_mul_ediv_right _ _ day_pos.ne'
  unfold nextIn
  dsimp only
  rw [parseHhmm_of_valid hclock, range'_succ, weeklyFrom, hdate, cast_zero, add_zero]
  dsimp only [bind, Except.bind]
  cases htoday : combineLocalWallTime tz (astimezone tz after / day) config.clock.hh config.clock.mm with
  | error error => rfl
  | ok candidate =>
    dsimp only
    by_cases hshown : candidate ≤ astimezone tz after
    · rw [if_pos hshown, if_neg fun haccepted ↦ not_lt.mpr hshown haccepted.2, range'_succ, weeklyFrom, hdate,
        cast_add, cast_zero, cast_one, zero_add]
      dsimp only [bind, Except.bind]
      cases htomorrow : combineLocalWallTime tz (astimezone tz after / day + 1) config.clock.hh
        config.clock.mm with
      | error error => rfl
      | ok candidate =>
        have hlater := lt_of_resolvesWithin (Int.lt_succ _) (combineLocalWallTime_eq_ok_iff.mp htomorrow)
        dsimp only
        rw [if_pos ⟨weekday_mem_everyDay candidate, hlater⟩]
    · rw [if_neg hshown, if_pos ⟨weekday_mem_everyDay candidate, not_le.mp hshown⟩]

/-! ### The next slot -/

/-- The slot of a permitted day is the first one after an instant. -/
structure NextSlot (tz : Timezone) (wanted : List ℤ) (clock : ClockTime) (after date wall : ℤ) : Prop where
  permitted : weekday (clock.on date) ∈ wanted
  resolves : Resolves tz (clock.on date) wall
  later : after < astimezoneUtc tz wall
  least : ∀ date' wall', weekday (clock.on date') ∈ wanted → Resolves tz (clock.on date') wall' →
    after < astimezoneUtc tz wall' → astimezoneUtc tz wall ≤ astimezoneUtc tz wall'

def ReturnsNextSlot (tz : Timezone) (wanted : List ℤ) (clock : ClockTime) (after : ℤ)
    (result : Except ScheduleError ℤ) : Prop :=
  ∃ date wall, NextSlot tz wanted clock after date wall ∧ result = .ok (astimezoneUtc tz wall)

/-- The next slot is that of one of the eight days from the one that the clock shows; the walk ends within
179 minutes on these days up to it; its reading lies ahead of the clock and on a permitted day of the week;
and on the days before it, no reading on a permitted day of the week lies ahead. -/
structure SearchMeets (tz : Timezone) (wanted : List ℤ) (clock : ClockTime) (after date wall : ℤ) : Prop where
  valid : clock.Valid
  slot : NextSlot tz wanted clock after date wall
  searched : astimezone tz after / day ≤ date ∧ date < astimezone tz after / day + 8
  walks : ∀ other, astimezone tz after / day ≤ other → other ≤ date →
    ∃ found, ResolvesWithin tz 180 (clock.on other) found
  ahead : astimezone tz after < wall
  weekday : weekday wall ∈ wanted
  behind : ∀ other found, astimezone tz after / day ≤ other → other < date → Resolves tz (clock.on other) found →
    Workflows.weekday found ∈ wanted → found ≤ astimezone tz after

variable {wanted : List ℤ}

/-- When the search over the days of the week finds the next slot. -/
theorem search_returnsNextSlot_iff (hclock : clock.Valid) :
    ReturnsNextSlot tz wanted clock after
        (weeklyFrom tz wanted (astimezone tz after) clock.hh clock.mm (range' 0 8)) ↔
      ∃ date wall, SearchMeets tz wanted clock after date wall := by
  constructor
  · rintro ⟨date, wall, hslot, hreturns⟩
    obtain ⟨offset, -, hend, hearlier, found, hfound, ⟨hweekday, hahead⟩, hnext⟩ :=
      weeklyFrom_eq_ok_iff.mp hreturns
    have hresolves : Resolves tz (clock.on (astimezone tz after / day + offset)) found := hfound.mono (by decide)
    -- slots of different days are different
    have hdate : astimezone tz after / day + offset = date := by
      rcases lt_trichotomy (astimezone tz after / day + offset) date with hlt | heq | hgt
      · exact absurd hnext (slot_lt_slot hlt hresolves hslot.resolves).ne'
      · exact heq
      · exact absurd hnext (slot_lt_slot hgt hslot.resolves hresolves).ne
    subst hdate
    obtain rfl : found = wall := hfound.unique hslot.resolves
    have hdays : ∀ other, astimezone tz after / day ≤ other → other < astimezone tz after / day + offset →
        ∃ reading, ResolvesWithin tz 180 (clock.on other) reading ∧
          ¬ (weekday reading ∈ wanted ∧ astimezone tz after < reading) := by
      intro other hge hlt
      obtain ⟨earlier, rfl⟩ : ∃ earlier : ℕ, other = astimezone tz after / day + earlier :=
        ⟨(other - astimezone tz after / day).toNat, by omega⟩
      exact hearlier earlier (Nat.zero_le _) (by omega)
    refine ⟨_, found, hclock, hslot, ⟨by omega, by omega⟩, fun other hge hle ↦ ?_, hahead, hweekday, ?_⟩
    · rcases hle.eq_or_lt with rfl | hlt
      · exact ⟨found, hfound⟩
      · obtain ⟨reading, hreading, -⟩ := hdays other hge hlt
        exact ⟨reading, hreading⟩
    · intro other reading hge hlt hreading hpermitted
      obtain ⟨reading', hreading', hrejected⟩ := hdays other hge hlt
      obtain rfl := hreading'.unique hreading
      exact not_lt.mp fun hreached ↦ hrejected ⟨hpermitted, hreached⟩
  · rintro ⟨date, wall, hmeets⟩
    refine ⟨date, wall, hmeets.slot, weeklyFrom_eq_ok_iff.mpr ?_⟩
    obtain ⟨hge, hlt⟩ := hmeets.searched
    obtain ⟨offset, rfl⟩ : ∃ offset : ℕ, date = astimezone tz after / day + offset :=
      ⟨(date - astimezone tz after / day).toNat, by omega⟩
    refine ⟨offset, Nat.zero_le _, by omega, fun earlier _ hearlier ↦ ?_, ?_⟩
    · obtain ⟨found, hfound⟩ := hmeets.walks (astimezone tz after / day + earlier) (by omega) (by omega)
      refine ⟨found, hfound, fun haccepted ↦ ?_⟩
      exact absurd haccepted.2 (not_lt.mpr
        (hmeets.behind _ found (by omega) (by omega) (hfound.mono (by decide)) haccepted.1))
    · obtain ⟨found, hfound⟩ := hmeets.walks _ hge le_rfl
      obtain rfl := hfound.unique hmeets.slot.resolves
      exact ⟨found, hfound, ⟨hmeets.weekday, hmeets.ahead⟩, rfl⟩

theorem not_returnsNextSlot_of_error {error : ScheduleError} :
    ¬ ReturnsNextSlot tz wanted clock after (.error error) := by
  rintro ⟨date, wall, -, hreturns⟩
  cases hreturns

/-- An interval is added; a daily or weekly schedule is given its next slot exactly when the search meets
it. -/
theorem next_run_iff (tz : Timezone) (after : ℤ) :
    (∀ config : IntervalTriggerConfig,
        (interval config).nextIn tz after = .ok (after + config.everySeconds * second)) ∧
      (∀ config : DailyTriggerConfig,
        ReturnsNextSlot tz everyDay config.clock after ((daily config).nextIn tz after) ↔
          ∃ date wall, SearchMeets tz everyDay config.clock after date wall) ∧
      (∀ config : WeeklyTriggerConfig,
        ReturnsNextSlot tz config.wanted config.clock after ((weekly config).nextIn tz after) ↔
          ∃ date wall, SearchMeets tz config.wanted config.clock after date wall) := by
  refine ⟨fun config ↦ rfl, fun config ↦ ?_, fun config ↦ ?_⟩
  · by_cases hclock : config.clock.Valid
    · rw [nextIn_daily config hclock]
      exact search_returnsNextSlot_iff hclock
    · refine iff_of_false ?_ fun ⟨_, _, hmeets⟩ ↦ hclock hmeets.valid
      rw [nextIn, parseHhmm_of_not_valid hclock]
      exact not_returnsNextSlot_of_error
  · by_cases hclock : config.clock.Valid
    · rw [nextIn_weekly config hclock]
      exact search_returnsNextSlot_iff hclock
    · refine iff_of_false ?_ fun ⟨_, _, hmeets⟩ ↦ hclock hmeets.valid
      rw [nextIn, parseHhmm_of_not_valid hclock]
      exact not_returnsNextSlot_of_error

/-- The clock is put back from 03:00 to 02:00 on an autumn morning. -/
def autumnClock : Timezone where
  first := 7200
  transitions := [⟨1729990800, 3600⟩]
  spaced := trivial

/-- Ten minutes into the repeated hour, a daily schedule at 02:30 is given the 02:30 that is forty minutes
past. -/
theorem repeated_hour_goes_back :
    (daily ⟨⟨2, 30⟩⟩).nextIn autumnClock (1729991400 * second) =
        .ok (1729991400 * second - 40 * minute) ∧
      ¬ ReturnsNextSlot autumnClock everyDay ⟨2, 30⟩ (1729991400 * second)
        ((daily ⟨⟨2, 30⟩⟩).nextIn autumnClock (1729991400 * second)) := by
  have hreturns : (daily ⟨⟨2, 30⟩⟩).nextIn autumnClock (1729991400 * second) =
      .ok (1729991400 * second - 40 * minute) := by
    decide +kernel
  refine ⟨hreturns, ?_⟩
  rintro ⟨date, wall, hslot, hnext⟩
  rw [hreturns] at hnext
  have hlater := hslot.later
  rw [← Except.ok.inj hnext] at hlater
  exact absurd hlater (by decide)

end ContentGenerator.Workflows

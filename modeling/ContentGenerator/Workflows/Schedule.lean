import Mathlib.Algebra.Order.Ring.Int
import Mathlib.Algebra.Ring.Divisibility.Basic
import Mathlib.Tactic.Ring
import ContentGenerator.Lib.Timezone

/-!
# Schedules

`compute_next_run_at` for schedules that fire at an interval, daily, or on days of the week. Instants and
local times are counted in microseconds, and a local time is compared with another one as the clock shows
them, whichever of two equal ones in a fold is meant.

Main result: `IsSlot.key_lt`, after a slot comes one that is later, by its key already.
-/

namespace ContentGenerator.Workflows

open Lib

variable {after next wall : ℤ} {hh mm : ℕ} {tz : Timezone}

/-! ### Clocks -/

def second : ℤ := 1000000
def minute : ℤ := 60 * second
def hour : ℤ := 60 * minute
def day : ℤ := 24 * hour

/-- `astimezone(tz)`: what the clock shows at an instant. -/
def astimezone (tz : Timezone) (instant : ℤ) : ℤ :=
  second * tz.fromUtc (instant / second) + instant % second

/-- `astimezone(timezone.utc)` of a local time with `fold=0`. -/
def astimezoneUtc (tz : Timezone) (wall : ℤ) : ℤ :=
  second * tz.toUtc (wall / second) + wall % second

/-- `occurrence_key`, as the second it names. -/
def occurrenceKey (scheduledFor : ℤ) : ℤ := scheduledFor / second

/-- The `ValueError`s of a schedule. -/
inductive ScheduleError
  | unknownTimezone (name : String)
  | invalidTime (hour minute : ℕ)
  | unresolvedWallTime (day : ℤ) (hour minute : ℕ)
  | noWeeklySlot
  deriving DecidableEq

/-- The walk of `combine_local_wall_time`, minute by minute, to a local time that exists. -/
def probeFrom (tz : Timezone) : ℕ → ℤ → Option ℤ
  | 0, _ => none
  | steps + 1, probe =>
    if astimezone tz (astimezoneUtc tz probe) / minute = probe / minute then some probe
    else probeFrom tz steps (probe + minute)

def combineLocalWallTime (tz : Timezone) (date : ℤ) (hh mm : ℕ) : Except ScheduleError ℤ :=
  match probeFrom tz 180 (date * day + hh * hour + mm * minute) with
  | some wall => .ok wall
  | none => .error (.unresolvedWallTime date hh mm)

/-! ### Trigger configurations -/

inductive Weekday
  | mon | tue | wed | thu | fri | sat | sun
  deriving DecidableEq

/-- `_WEEKDAY_INDEX`. -/
def Weekday.index : Weekday → ℤ
  | .mon => 0
  | .tue => 1
  | .wed => 2
  | .thu => 3
  | .fri => 4
  | .sat => 5
  | .sun => 6

/-- `weekday()`: day 0 was a Thursday. -/
def weekday (wall : ℤ) : ℤ := (wall / day + 3) % 7

/-- The two numbers of `HH:MM`. -/
structure ClockTime where
  hh : ℕ
  mm : ℕ

structure IntervalTriggerConfig where
  everySeconds : ℕ
  atLeast : 60 ≤ everySeconds
  atMost : everySeconds ≤ 86400 * 30

structure DailyTriggerConfig where
  clock : ClockTime

structure WeeklyTriggerConfig where
  days : List Weekday
  nonempty : days ≠ []
  clock : ClockTime

inductive TriggerConfig
  | interval (config : IntervalTriggerConfig)
  | daily (config : DailyTriggerConfig)
  | weekly (config : WeeklyTriggerConfig)

def parseHhmm (clock : ClockTime) : Except ScheduleError (ℕ × ℕ) :=
  if clock.hh > 23 ∨ clock.mm > 59 then .error (.invalidTime clock.hh clock.mm)
  else .ok (clock.hh, clock.mm)

/-- The loop over the days of a weekly schedule. -/
def weeklyFrom (tz : Timezone) (wanted : List ℤ) (localAfter : ℤ) (hh mm : ℕ) :
    List ℕ → Except ScheduleError ℤ
  | [] => .error .noWeeklySlot
  | offset :: offsets => do
    let candidate ← combineLocalWallTime tz ((localAfter + offset * day) / day) hh mm
    if weekday candidate ∈ wanted ∧ localAfter < candidate then
      return astimezoneUtc tz candidate
    weeklyFrom tz wanted localAfter hh mm offsets

/-- `compute_next_run_at` in a timezone. -/
def TriggerConfig.nextIn (tz : Timezone) (after : ℤ) : TriggerConfig → Except ScheduleError ℤ
  | .interval config => .ok (after + config.everySeconds * second)
  | .daily config => do
    let localAfter := astimezone tz after
    let (hh, mm) ← parseHhmm config.clock
    let date := localAfter / day
    let candidate ← combineLocalWallTime tz date hh mm
    if candidate ≤ localAfter then
      let candidate ← combineLocalWallTime tz (date + 1) hh mm
      return astimezoneUtc tz candidate
    return astimezoneUtc tz candidate
  | .weekly config => do
    let localAfter := astimezone tz after
    let (hh, mm) ← parseHhmm config.clock
    weeklyFrom tz (config.days.map Weekday.index) localAfter hh mm (List.range 8)

/-- `compute_next_run_at`, with the timezones of the database as a parameter. -/
def computeNextRunAt (resolveTz : String → Option Timezone) (config : TriggerConfig)
    (timezoneName : String) (after : ℤ) : Except ScheduleError ℤ :=
  match resolveTz timezoneName with
  | some tz => config.nextIn tz after
  | none => .error (.unknownTimezone timezoneName)

/-! ### Slots -/

theorem second_pos : 0 < second := by decide

theorem minute_pos : 0 < minute := by decide

theorem hour_pos : 0 < hour := by decide

theorem day_pos : 0 < day := by decide

theorem second_dvd_minute : second ∣ minute := Dvd.intro_left 60 rfl

/-- A local time that the clock has not yet shown at the instant of another one stands for an instant with
a later key. -/
theorem occurrenceKey_lt_of_astimezone_lt (tz : Timezone) {later : ℤ} (hwall : second ∣ wall)
    (hlater : second ∣ later) (h : astimezone tz (astimezoneUtc tz wall) < later) :
    occurrenceKey (astimezoneUtc tz wall) < occurrenceKey (astimezoneUtc tz later) := by
  obtain ⟨wall, rfl⟩ := hwall
  obtain ⟨later, rfl⟩ := hlater
  have hne : second ≠ 0 := second_pos.ne'
  have hwhole : ∀ seconds, astimezoneUtc tz (second * seconds) = second * tz.toUtc seconds := by
    intro seconds
    unfold astimezoneUtc
    rw [Int.mul_ediv_cancel_left _ hne, Int.mul_emod_right, add_zero]
  rw [hwhole, hwhole, occurrenceKey, occurrenceKey, Int.mul_ediv_cancel_left _ hne,
    Int.mul_ediv_cancel_left _ hne]
  refine tz.toUtc_lt_toUtc ?_
  rw [hwhole, astimezone, Int.mul_ediv_cancel_left _ hne, Int.mul_emod_right, add_zero] at h
  exact lt_of_mul_lt_mul_left h second_pos.le

/-- A walk ends at a full minute, not before it began. -/
theorem probeFrom_spec {steps : ℕ} {probe : ℤ} (hprobe : minute ∣ probe)
    (h : probeFrom tz steps probe = some wall) : minute ∣ wall ∧ probe ≤ wall := by
  induction steps generalizing probe with
  | zero => exact absurd h (by simp [probeFrom])
  | succ steps ih =>
    unfold probeFrom at h
    split_ifs at h
    · cases h
      exact ⟨hprobe, le_rfl⟩
    · obtain ⟨hdvd, hle⟩ := ih (dvd_add hprobe dvd_rfl) h
      exact ⟨hdvd, (le_add_of_nonneg_right minute_pos.le).trans hle⟩

theorem combineLocalWallTime_spec {date : ℤ}
    (h : combineLocalWallTime tz date hh mm = .ok wall) : minute ∣ wall ∧ date * day ≤ wall := by
  unfold combineLocalWallTime at h
  split at h
  · rename_i found hfound
    cases h
    have hstart : minute ∣ date * day + hh * hour + mm * minute :=
      ⟨date * 1440 + hh * 60 + mm, by unfold day hour; ring⟩
    obtain ⟨hdvd, hle⟩ := probeFrom_spec hstart hfound
    have hhour : 0 ≤ (hh : ℤ) * hour := mul_nonneg (Int.natCast_nonneg hh) hour_pos.le
    have hminute : 0 ≤ (mm : ℤ) * minute := mul_nonneg (Int.natCast_nonneg mm) minute_pos.le
    exact ⟨hdvd, by omega⟩
  · cases h

/-- The weekly loop ends with a local time that the clock has not yet shown. -/
theorem weeklyFrom_spec {wanted : List ℤ} {localAfter : ℤ} {offsets : List ℕ}
    (h : weeklyFrom tz wanted localAfter hh mm offsets = .ok next) :
    ∃ wall, minute ∣ wall ∧ localAfter < wall ∧ next = astimezoneUtc tz wall := by
  induction offsets with
  | nil => cases h
  | cons offset offsets ih =>
    unfold weeklyFrom at h
    cases hcandidate : combineLocalWallTime tz ((localAfter + offset * day) / day) hh mm with
    | error error =>
      rw [hcandidate] at h
      cases h
    | ok candidate =>
      rw [hcandidate] at h
      change (if weekday candidate ∈ wanted ∧ localAfter < candidate then
        Except.ok (astimezoneUtc tz candidate) else weeklyFrom tz wanted localAfter hh mm offsets) = _ at h
      split_ifs at h with hlater
      · exact ⟨candidate, (combineLocalWallTime_spec hcandidate).1, hlater.2, (Except.ok.inj h).symm⟩
      · exact ih h

/-- A daily slot is the instant of a local time that the clock has not yet shown. -/
theorem nextIn_daily_spec {config : DailyTriggerConfig}
    (h : (TriggerConfig.daily config).nextIn tz after = .ok next) :
    ∃ wall, minute ∣ wall ∧ astimezone tz after < wall ∧ next = astimezoneUtc tz wall := by
  unfold TriggerConfig.nextIn at h
  cases hclock : parseHhmm config.clock with
  | error error =>
    dsimp only at h
    rw [hclock] at h
    cases h
  | ok clock =>
    obtain ⟨hh, mm⟩ := clock
    dsimp only at h
    rw [hclock] at h
    dsimp only [Bind.bind, Except.bind] at h
    cases hcandidate : combineLocalWallTime tz (astimezone tz after / day) hh mm with
    | error error =>
      rw [hcandidate] at h
      cases h
    | ok candidate =>
      rw [hcandidate] at h
      dsimp only at h
      split_ifs at h with hshown
      · cases htomorrow : combineLocalWallTime tz (astimezone tz after / day + 1) hh mm with
        | error error =>
          rw [htomorrow] at h
          cases h
        | ok wall =>
          rw [htomorrow] at h
          obtain ⟨hdvd, hle⟩ := combineLocalWallTime_spec htomorrow
          exact ⟨wall, hdvd, (Int.lt_mul_of_ediv_lt day_pos (Int.lt_succ _)).trans_le hle,
            (Except.ok.inj h).symm⟩
      · exact ⟨candidate, (combineLocalWallTime_spec hcandidate).1, not_le.mp hshown,
          (Except.ok.inj h).symm⟩

/-- So is a weekly slot. -/
theorem nextIn_weekly_spec {config : WeeklyTriggerConfig}
    (h : (TriggerConfig.weekly config).nextIn tz after = .ok next) :
    ∃ wall, minute ∣ wall ∧ astimezone tz after < wall ∧ next = astimezoneUtc tz wall := by
  unfold TriggerConfig.nextIn at h
  cases hclock : parseHhmm config.clock with
  | error error =>
    dsimp only at h
    rw [hclock] at h
    cases h
  | ok clock =>
    dsimp only at h
    rw [hclock] at h
    exact weeklyFrom_spec h

/-- Every instant is a slot of an interval; a slot of another schedule stands for a full minute of the
clock. -/
def TriggerConfig.IsSlot (tz : Timezone) (slot : ℤ) : TriggerConfig → Prop
  | .interval _ => True
  | .daily _ | .weekly _ => ∃ wall, minute ∣ wall ∧ slot = astimezoneUtc tz wall

variable {config : TriggerConfig} {slot : ℤ}

/-- What is computed is a slot. -/
theorem isSlot_of_nextIn (h : config.nextIn tz after = .ok next) : config.IsSlot tz next := by
  cases config with
  | interval config => trivial
  | daily config =>
    obtain ⟨wall, hdvd, -, rfl⟩ := nextIn_daily_spec h
    exact ⟨wall, hdvd, rfl⟩
  | weekly config =>
    obtain ⟨wall, hdvd, -, rfl⟩ := nextIn_weekly_spec h
    exact ⟨wall, hdvd, rfl⟩

/-- After a slot comes one with a later key. -/
theorem TriggerConfig.IsSlot.key_lt (hslot : config.IsSlot tz slot) (h : config.nextIn tz slot = .ok next) :
    occurrenceKey slot < occurrenceKey next := by
  have hfull : ∀ wall, minute ∣ wall → second ∣ wall := fun _ ↦ dvd_trans second_dvd_minute
  cases config with
  | interval config =>
    cases h
    unfold occurrenceKey
    rw [Int.add_mul_ediv_right _ _ second_pos.ne']
    have hevery := config.atLeast
    omega
  | daily config =>
    obtain ⟨wall, hwall, rfl⟩ := hslot
    obtain ⟨later, hlater, hlt, rfl⟩ := nextIn_daily_spec h
    exact occurrenceKey_lt_of_astimezone_lt tz (hfull wall hwall) (hfull later hlater) hlt
  | weekly config =>
    obtain ⟨wall, hwall, rfl⟩ := hslot
    obtain ⟨later, hlater, hlt, rfl⟩ := nextIn_weekly_spec h
    exact occurrenceKey_lt_of_astimezone_lt tz (hfull wall hwall) (hfull later hlater) hlt

/-- A later key belongs to a later instant. -/
theorem lt_of_occurrenceKey_lt (h : occurrenceKey slot < occurrenceKey next) : slot < next :=
  lt_of_not_ge fun hle ↦ absurd (Int.ediv_le_ediv second_pos hle) (not_le.mpr h)

end ContentGenerator.Workflows

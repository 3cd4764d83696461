import Mathlib.Algebra.Order.Group.Abs
import Mathlib.Algebra.Order.Group.Int

/-!
# Timezones

A timezone is an offset and the sorted list of the transitions to other offsets. A local time in a gap or
in a fold stands for the instant that the offset in force before the transition gives, so the clock at that
instant shows the local time or, in a gap, a later one. Every local time after the one
the clock shows then stands for a later instant (`toUtc_lt_toUtc`).
-/

namespace ContentGenerator.Lib

variable {instant later : ℤ}

/-- From an instant on, another offset is in force. -/
structure OffsetTransition where
  instant : ℤ
  offset : ℤ

/-- The transitions come one after the other, and none before the shift of the clock at the one before it
is over. -/
def SpacedTransitions : ℤ → List OffsetTransition → Prop
  | _, [] => True
  | _, [_] => True
  | offset, first :: second :: rest =>
    first.instant < second.instant ∧ |first.offset - offset| ≤ second.instant - first.instant ∧
      SpacedTransitions first.offset (second :: rest)

structure Timezone where
  first : ℤ
  transitions : List OffsetTransition
  spaced : SpacedTransitions first transitions

namespace Timezone

def offsetFrom : ℤ → List OffsetTransition → ℤ → ℤ
  | offset, [], _ => offset
  | offset, next :: rest, instant =>
    if instant < next.instant then offset else offsetFrom next.offset rest instant

/-- The offset of a local time. A transition has come when the later of the two clocks shows it. -/
def wallOffsetFrom : ℤ → List OffsetTransition → ℤ → ℤ
  | offset, [], _ => offset
  | offset, next :: rest, wall =>
    if wall < next.instant + max offset next.offset then offset
    else wallOffsetFrom next.offset rest wall

def fromUtc (tz : Timezone) (instant : ℤ) : ℤ :=
  instant + offsetFrom tz.first tz.transitions instant

def toUtc (tz : Timezone) (wall : ℤ) : ℤ :=
  wall - wallOffsetFrom tz.first tz.transitions wall

variable {offset wall : ℤ} {transitions : List OffsetTransition}

theorem spaced_tail {next : OffsetTransition} {rest : List OffsetTransition}
    (h : SpacedTransitions offset (next :: rest)) : SpacedTransitions next.offset rest := by
  cases rest with
  | nil => trivial
  | cons second rest => exact h.2.2

/-- The next transition is not before the shift of the clock is over. -/
theorem spaced_head {next second : OffsetTransition} {rest : List OffsetTransition}
    (h : SpacedTransitions offset (next :: rest)) (hsecond : second ∈ rest.head?) :
    next.instant < second.instant ∧ |next.offset - offset| ≤ second.instant - next.instant := by
  cases rest with
  | nil => simp at hsecond
  | cons head rest =>
    obtain rfl := Option.mem_some_iff.mp hsecond
    exact ⟨h.1, h.2.1⟩

/-- Before the next transition, a local time that the clock has reached stands for an instant that has
come. -/
theorem le_sub_wallOffsetFrom (hspaced : SpacedTransitions offset transitions)
    (hnext : ∀ next ∈ transitions.head?, instant ≤ next.instant) (hwall : instant + offset ≤ wall) :
    instant ≤ wall - wallOffsetFrom offset transitions wall := by
  induction transitions generalizing offset instant with
  | nil => exact Int.le_sub_right_of_add_le hwall
  | cons next rest ih =>
    have hinstant : instant ≤ next.instant := hnext next rfl
    unfold wallOffsetFrom
    split_ifs with hbefore
    · exact Int.le_sub_right_of_add_le hwall
    · have hshown : next.instant + next.offset ≤ wall := by omega
      have hrest : ∀ second ∈ rest.head?, next.instant ≤ second.instant :=
        fun second hsecond ↦ (spaced_head hspaced hsecond).1.le
      exact hinstant.trans (ih (spaced_tail hspaced) hrest hshown)

/-- The instant a local time stands for is not one at which the clock shows less. -/
theorem wallOffsetFrom_le (hspaced : SpacedTransitions offset transitions) (wall : ℤ) :
    wallOffsetFrom offset transitions wall ≤
      offsetFrom offset transitions (wall - wallOffsetFrom offset transitions wall) := by
  induction transitions generalizing offset with
  | nil => exact le_rfl
  | cons next rest ih =>
    have hrest : ∀ second ∈ rest.head?, next.instant < second.instant ∧
        |next.offset - offset| ≤ second.instant - next.instant :=
      fun second hsecond ↦ spaced_head hspaced hsecond
    unfold wallOffsetFrom
    split_ifs with hbefore
    · unfold offsetFrom
      split_ifs with hinstant
      · exact le_rfl
      · -- in a gap: the clock has been put forward, and not yet again
        have hforward : offset ≤ next.offset := by omega
        suffices hoffset : offsetFrom next.offset rest (wall - offset) = next.offset by
          rw [hoffset]
          exact hforward
        cases rest with
        | nil => rfl
        | cons second rest =>
          obtain ⟨-, hshift⟩ := hrest second rfl
          have habs := le_abs_self (next.offset - offset)
          exact if_pos (by omega)
    · have hshown : next.instant + next.offset ≤ wall := by omega
      have hinstant := le_sub_wallOffsetFrom (spaced_tail hspaced)
        (fun second hsecond ↦ (hrest second hsecond).1.le) hshown
      rw [offsetFrom, if_neg (by omega)]
      exact ih (spaced_tail hspaced)

/-- After the local time that the clock shows at the instant of a local time, every local time stands for
a later instant. -/
theorem sub_wallOffsetFrom_lt (hspaced : SpacedTransitions offset transitions)
    (hinstant : instant = wall - wallOffsetFrom offset transitions wall)
    (hlater : instant + offsetFrom offset transitions instant < later) :
    instant < later - wallOffsetFrom offset transitions later := by
  induction transitions generalizing offset with
  | nil => exact Int.lt_sub_right_of_add_lt hlater
  | cons next rest ih =>
    have hrest : ∀ second ∈ rest.head?, next.instant < second.instant ∧
        |next.offset - offset| ≤ second.instant - next.instant :=
      fun second hsecond ↦ spaced_head hspaced hsecond
    have hle := wallOffsetFrom_le hspaced wall
    rw [← hinstant] at hle
    have hreached : ∀ shown, next.instant + next.offset ≤ shown →
        next.instant ≤ shown - wallOffsetFrom next.offset rest shown := fun shown hshown ↦
      le_sub_wallOffsetFrom (spaced_tail hspaced) (fun second hsecond ↦ (hrest second hsecond).1.le) hshown
    by_cases hwall : wall < next.instant + max offset next.offset
    · rw [wallOffsetFrom, if_pos hwall] at hinstant hle
      by_cases hbefore : instant < next.instant
      · -- before the transition the clock shows the local time itself
        rw [offsetFrom, if_pos hbefore] at hlater
        unfold wallOffsetFrom
        split_ifs with hsecond
        · omega
        · have := hreached later (by omega)
          omega
      · -- in a gap, and the later time is after it
        have hforward : offset < next.offset := by omega
        rw [offsetFrom, if_neg hbefore] at hlater hle
        have hsmall : ∀ second ∈ rest.head?, instant + 1 ≤ second.instant := by
          intro second hsecond
          have habs := le_abs_self (next.offset - offset)
          have := (hrest second hsecond).2
          omega
        have hoffset : offsetFrom next.offset rest instant = next.offset := by
          cases rest with
          | nil => rfl
          | cons second rest => exact if_pos (hsmall second rfl)
        rw [hoffset] at hlater
        rw [wallOffsetFrom, if_neg (by omega)]
        have hshown : instant + 1 + next.offset ≤ later := by omega
        have := le_sub_wallOffsetFrom (spaced_tail hspaced) hsmall hshown
        omega
    · have hafter : next.instant ≤ instant := by
        rw [wallOffsetFrom, if_neg hwall] at hinstant
        rw [hinstant]
        exact hreached wall (by omega)
      have hshown : wall ≤ instant + offsetFrom offset (next :: rest) instant := by
        rw [hinstant]
        rw [hinstant] at hle
        omega
      rw [wallOffsetFrom, if_neg hwall] at hinstant
      rw [wallOffsetFrom, if_neg (by omega)]
      rw [offsetFrom, if_neg (by omega)] at hlater
      exact ih (spaced_tail hspaced) hinstant hlater

variable (tz : Timezone)

/-- A local time that the clock has not yet shown at the instant of another one stands for a later
instant. -/
theorem toUtc_lt_toUtc (h : tz.fromUtc (tz.toUtc wall) < later) :
    tz.toUtc wall < tz.toUtc later :=
  sub_wallOffsetFrom_lt tz.spaced rfl h

end Timezone

end ContentGenerator.Lib

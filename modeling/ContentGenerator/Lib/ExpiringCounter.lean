import Mathlib.Data.Nat.Notation
import Mathlib.Tactic.SplitIfs

/-!
# Counters whose expiry every hit puts off

A counter with an expiry instant, as a key-value store keeps it for `INCR` followed by `EXPIRE`: a hit counts
one more while the counter lives and starts again at one when it does not, and moves the expiry to one
lifetime after the hit. The count is therefore not the number of hits in the last lifetime: it is the length
of the last series of hits with gaps below the lifetime (`counterAfter_cons`).

Histories are lists of hit times, the newest first.
-/

namespace ContentGenerator.Lib

open List

structure ExpiringCounter where
  count : ℕ
  expiresAt : ℕ

namespace ExpiringCounter

/-- What the store still knows at an instant. -/
def liveCount (now : ℕ) (stored : Option ExpiringCounter) : ℕ :=
  match stored with
  | some counter => if now < counter.expiresAt then counter.count else 0
  | none => 0

/-- `INCR` and `EXPIRE` at one instant. -/
def hit (lifetime now : ℕ) (stored : Option ExpiringCounter) : ExpiringCounter where
  count := liveCount now stored + 1
  expiresAt := now + lifetime

def counterAfter (lifetime : ℕ) : List ℕ → Option ExpiringCounter
  | [] => none
  | now :: earlier => some (hit lifetime now (counterAfter lifetime earlier))

/-- The length of the last series of hits each of which comes less than a lifetime after the one before. -/
def burst (lifetime : ℕ) : List ℕ → ℕ
  | [] => 0
  | [_] => 1
  | now :: last :: earlier => if now < last + lifetime then burst lifetime (last :: earlier) + 1 else 1

variable {lifetime now last start : ℕ} {earlier later : List ℕ}

theorem burst_cons_cons :
    burst lifetime (now :: last :: earlier) =
      if now < last + lifetime then burst lifetime (last :: earlier) + 1 else 1 := rfl

/-- The counter holds the length of the last series. -/
theorem counterAfter_cons (lifetime now : ℕ) (earlier : List ℕ) :
    counterAfter lifetime (now :: earlier) =
      some { count := burst lifetime (now :: earlier), expiresAt := now + lifetime } := by
  induction earlier generalizing now with
  | nil => rfl
  | cons last earlier ih =>
    rw [counterAfter, ih, hit, liveCount, burst_cons_cons]
    split_ifs
    · rfl
    · rfl

theorem count_hit (lifetime now : ℕ) (earlier : List ℕ) :
    (hit lifetime now (counterAfter lifetime earlier)).count = burst lifetime (now :: earlier) := by
  have h := counterAfter_cons lifetime now earlier
  rw [counterAfter, Option.some_inj] at h
  rw [h]

/-- A hit on a counter that is gone starts a series. -/
theorem burst_of_not_live (h : liveCount start (counterAfter lifetime earlier) = 0) :
    burst lifetime (start :: earlier) = 1 := by
  rw [← count_hit, hit, h]

/-- A series does not end before the lifetime of its first hit is over: every hit until then counts. -/
theorem burst_append (hstart : burst lifetime (start :: earlier) = 1)
    (hlater : ∀ time ∈ later, start ≤ time ∧ time < start + lifetime) :
    burst lifetime (later ++ start :: earlier) = later.length + 1 := by
  induction later with
  | nil => exact hstart
  | cons time later ih =>
    have htime := hlater time mem_cons_self
    have hrest := ih fun other hother ↦ hlater other (mem_cons_of_mem time hother)
    cases later with
    | nil =>
      rw [cons_append, nil_append, burst_cons_cons, if_pos htime.2, hstart]
      rfl
    | cons last later =>
      have hlast := hlater last (mem_cons_of_mem time mem_cons_self)
      rw [cons_append] at hrest ⊢
      rw [cons_append, burst_cons_cons, if_pos (by omega), hrest]
      rfl

/-- Hits at a steady gap, the newest first. -/
def steady (gap : ℕ) : ℕ → List ℕ
  | 0 => []
  | n + 1 => n * gap :: steady gap n

/-- Steady hits with a gap below the lifetime are one series, however long. -/
theorem burst_steady (lifetime gap n : ℕ) :
    burst lifetime (steady gap (n + 1)) = if gap < lifetime then n + 1 else 1 := by
  induction n with
  | zero => rw [ite_self]; rfl
  | succ n ih =>
    have hgap : (n + 1) * gap < n * gap + lifetime ↔ gap < lifetime := by
      rw [Nat.add_mul, Nat.one_mul, Nat.add_lt_add_iff_left]
    rw [steady, steady, burst_cons_cons, ← steady, ih]
    simp only [hgap]
    split_ifs
    · rfl
    · rfl

end ExpiringCounter

end ContentGenerator.Lib

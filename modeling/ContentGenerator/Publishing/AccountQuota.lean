import ContentGenerator.Lib.ExpiringCounter
import ContentGenerator.Lib.Uuid
import ContentGenerator.Publishing.Models

/-!
# The publishing quota of an account

`consume_account_quota` counts the calls for one account and action in a Redis counter, and sets the expiry
of the counter to one window after the call, whether the call is allowed or denied. The counter therefore
lives as long as the calls keep coming less than a window apart.

`account_quota_rate_iff` is what this makes of the quota: in the window that starts when a counter is created
at most `maxAttempts` calls are allowed, and when a denied call has more than `maxAttempts` calls in the last
window.
-/

namespace ContentGenerator.Publishing

open Lib ExpiringCounter List

structure AccountQuotaDecision where
  allowed : Bool
  retryAfterSeconds : ℕ
  key : String
  action : String

def accountQuotaKey (tenantId socialAccountId : Uuid) (action : String) : String :=
  s!"rate_limit:account:{tenantId.text}:{socialAccountId.text}:{action}"

/-- The lifetime of the counter in microseconds. -/
def windowOf (windowSeconds : ℕ) : Time := windowSeconds * 1000000

/-- `TTL`: the seconds that are left, rounded, and -2 for a key that is gone. -/
def ttl (now : Time) (counter : ExpiringCounter) : ℤ :=
  if now < counter.expiresAt then ((counter.expiresAt - now + 500000) / 1000000 : ℕ) else -2

/-- `consume_account_quota` on the counter that is stored under its key. -/
def consumeAccountQuota (tenantId socialAccountId : Uuid) (action : String)
    (maxAttempts windowSeconds : ℕ) (now : Time) (stored : Option ExpiringCounter) :
    AccountQuotaDecision × ExpiringCounter :=
  let key := accountQuotaKey tenantId socialAccountId action
  let counter := hit (windowOf windowSeconds) now stored
  if maxAttempts < counter.count then
    let seconds := ttl now counter
    ({ allowed := false
       retryAfterSeconds := (max (if seconds = 0 then (windowSeconds : ℤ) else seconds) 1).toNat
       key := key
       action := action }, counter)
  else ({ allowed := true, retryAfterSeconds := 0, key := key, action := action }, counter)

section Runs

variable (tenantId socialAccountId : Uuid) (action : String) (maxAttempts windowSeconds : ℕ)

/-- The call at `now` after the calls of a history, the newest first. -/
def quotaCall (now : Time) (earlier : List Time) : AccountQuotaDecision × ExpiringCounter :=
  consumeAccountQuota tenantId socialAccountId action maxAttempts windowSeconds now
    (counterAfter (windowOf windowSeconds) earlier)

/-- A call is allowed as long as the series it belongs to is not longer than the quota. -/
theorem allowed_iff (now : Time) (earlier : List Time) :
    (quotaCall tenantId socialAccountId action maxAttempts windowSeconds now earlier).1.allowed ↔
      burst (windowOf windowSeconds) (now :: earlier) ≤ maxAttempts := by
  unfold quotaCall consumeAccountQuota
  dsimp only
  rw [count_hit]
  by_cases hdenied : maxAttempts < burst (windowOf windowSeconds) (now :: earlier)
  · rw [if_pos hdenied]
    exact iff_of_false Bool.false_ne_true (Nat.not_le.mpr hdenied)
  · rw [if_neg hdenied]
    exact iff_of_true rfl (Nat.not_lt.mp hdenied)

/-- The number of calls of `later` that are allowed after the history `earlier`. -/
def allowedCalls (earlier : List Time) : List Time → ℕ
  | [] => 0
  | now :: later =>
    allowedCalls earlier later +
      if (quotaCall tenantId socialAccountId action maxAttempts windowSeconds now (later ++ earlier)).1.allowed
      then 1 else 0

/-- The calls of the last window: this one and those less than a window ago. -/
def recentCalls (now : Time) (earlier : List Time) : ℕ :=
  ((now :: earlier).filter fun time ↦ now < time + windowOf windowSeconds).length

variable {maxAttempts windowSeconds}

/-- Within a lifetime of the first call of a counter the calls are counted through, so that no more than the
quota are allowed. -/
theorem allowedCalls_le {start : Time} {earlier later : List Time}
    (hstart : liveCount start (counterAfter (windowOf windowSeconds) earlier) = 0)
    (hlater : ∀ time ∈ later, start ≤ time ∧ time < start + windowOf windowSeconds) :
    allowedCalls tenantId socialAccountId action maxAttempts windowSeconds earlier (later ++ [start]) =
      min maxAttempts (later.length + 1) := by
  have hfirst := burst_of_not_live hstart
  induction later with
  | nil =>
    rw [nil_append, allowedCalls, allowedCalls, nil_append]
    simp only [allowed_iff, hfirst]
    split_ifs with hallowed
    · rw [length_nil]
      omega
    · rw [length_nil]
      omega
  | cons time later ih =>
    have hseries : burst (windowOf windowSeconds) (time :: (later ++ [start] ++ earlier)) =
        later.length + 2 := by
      have happend := burst_append hfirst hlater
      rwa [length_cons, cons_append, append_cons] at happend
    rw [cons_append, allowedCalls, ih fun other hother ↦ hlater other (mem_cons_of_mem time hother)]
    simp only [allowed_iff, hseries]
    rw [length_cons]
    split_ifs with hallowed
    · omega
    · omega

/-- What the quota is as a rate limit. In the window that starts with the call that creates a counter, at
most `maxAttempts` calls are allowed. In a run, every denied call comes with more than `maxAttempts` calls in
the last window if and only if every call that ends a series of more than `maxAttempts` calls does; a series
is a stretch of calls less than a window apart. Calls at a steady gap are all allowed if and only if the gap
is at least a window and the quota allows a call at all. -/
theorem account_quota_rate_iff (maxAttempts windowSeconds : ℕ) :
    (∀ (start : Time) (earlier later : List Time),
        liveCount start (counterAfter (windowOf windowSeconds) earlier) = 0 →
          (∀ time ∈ later, start ≤ time ∧ time < start + windowOf windowSeconds) →
            allowedCalls tenantId socialAccountId action maxAttempts windowSeconds earlier (later ++ [start]) ≤
              maxAttempts) ∧
      (∀ calls : List Time,
        (∀ now earlier, now :: earlier <:+ calls →
            ¬ (quotaCall tenantId socialAccountId action maxAttempts windowSeconds now earlier).1.allowed →
              maxAttempts < recentCalls windowSeconds now earlier) ↔
          ∀ now earlier, now :: earlier <:+ calls →
            maxAttempts < burst (windowOf windowSeconds) (now :: earlier) →
              maxAttempts < recentCalls windowSeconds now earlier) ∧
      ∀ gap : ℕ,
        (∀ n, (quotaCall tenantId socialAccountId action maxAttempts windowSeconds (n * gap)
            (steady gap n)).1.allowed) ↔
          windowOf windowSeconds ≤ gap ∧ 1 ≤ maxAttempts := by
  refine ⟨fun start earlier later hstart hlater ↦ ?_, fun calls ↦ ?_, fun gap ↦ ?_⟩
  · rw [allowedCalls_le tenantId socialAccountId action hstart hlater]
    exact Nat.min_le_left _ _
  · refine forall₂_congr fun now earlier ↦ imp_congr_right fun _ ↦ ?_
    rw [allowed_iff, Nat.not_le]
  · simp only [allowed_iff]
    have hseries : ∀ n, burst (windowOf windowSeconds) (n * gap :: steady gap n) =
        if gap < windowOf windowSeconds then n + 1 else 1 := fun n ↦ burst_steady _ gap n
    simp only [hseries]
    constructor
    · intro hallowed
      have hlast := hallowed maxAttempts
      by_cases hgap : gap < windowOf windowSeconds
      · rw [if_pos hgap] at hlast
        omega
      · rw [if_neg hgap] at hlast
        exact ⟨Nat.not_lt.mp hgap, hlast⟩
    · rintro ⟨hgap, hquota⟩ n
      rw [if_neg (Nat.not_lt.mpr hgap)]
      exact hquota

end Runs

/-- Two calls in ten seconds are allowed, and a call every six seconds is denied the third time, with one
other call in the last ten seconds. -/
theorem steady_calls_are_denied :
    (quotaCall (⟨fun _ ↦ 0⟩) (⟨fun _ ↦ 1⟩) "publish" 2 10 12000000 [6000000, 0]).1.allowed = false ∧
      recentCalls 10 12000000 [6000000, 0] = 2 := by
  decide +kernel

end ContentGenerator.Publishing

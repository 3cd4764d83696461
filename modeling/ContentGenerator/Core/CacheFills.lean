import ContentGenerator.Core.CredentialGuard
import ContentGenerator.Lib.Play

/-!
# Fills are reused

A run of calls of `get_or_set`, one after the other, with the record of what their factories have returned. A fill
is reused when every later call on its key, before it expires, returns its value and does not invoke its factory
(`Reuses`).

Three things stand in the way: a negative result is written but reads as a miss; a value that looks like a
negative result or like an envelope is read as one; and a call that finds the value under one of its legacy keys
deletes it there. `KeepsFills` excludes them, and `fills_reused` is the result about runs. The invariant is `Live`.
-/

namespace ContentGenerator.Core

open Lib List Option Function Redis

variable {draw : ℕ} {wire : Wire} {other : String} {policy : FillPolicy}

/-- No key in the value, at any depth, is a marker of a credential in lower case. -/
def MarkerFree (value : Json) : Prop :=
  ∀ fields, Json.Inside value (.obj fields) → ∀ field ∈ fields, pyLower field.1 ∉ credentialMarkers

/-- The reader takes the value for an envelope of `wrap_payload`. -/
def isEnvelope : Json → Bool
  | .obj fields => (JsonObject.get fields "_cg_meta").isSome && (JsonObject.get fields "data").isSome
  | _ => false

/-- What a factory has returned for a key, and when it expires. -/
structure Fill where
  key : String
  value : Json
  expiresAt : ℕ
deriving DecidableEq

/-- Redis, the fills of the calls so far, and the time of the last call. -/
structure CacheRun where
  redis : Redis
  fills : List Fill := []
  now : ℕ := 0

variable {E : Type}

def FillPolicy.lifetime (policy : FillPolicy) (value : Json) : ℕ :=
  if value = .null then policy.negativeTtlSeconds.toNat else policy.ttlSeconds.toNat

/-- The fill of a call, if it has invoked its factory and the factory has returned. -/
def FillCall.fills (env : CacheEnv) (c : FillCall E) (redis : Redis) : List Fill :=
  match (c.getOrSet env redis).invoked, c.factory with
  | true, .ok value => [{ key := c.key, value, expiresAt := c.filledAt + c.policy.lifetime value * 1000000 }]
  | _, _ => []

def CacheRun.apply (env : CacheEnv) (st : CacheRun) (c : FillCall E) : CacheRun where
  redis := (c.getOrSet env st.redis).redis
  fills := st.fills ++ c.fills env st.redis
  now := c.filledAt

/-- The call begins when the last one has ended. -/
def NonOverlapping (st : CacheRun) (c : FillCall E) : Prop :=
  st.now ≤ c.startedAt ∧ c.startedAt ≤ c.recheckedAt ∧ c.recheckedAt ≤ c.filledAt

/-- A call on the key of a fill that has not expired returns its value and does not invoke its factory. -/
def Reuses (env : CacheEnv) (st : CacheRun) (c : FillCall E) : Prop :=
  ∀ fill ∈ st.fills, MarkerFree fill.value → fill.key = c.key → c.startedAt < fill.expiresAt →
    (c.getOrSet env st.redis).outcome = .ok fill.value ∧ (c.getOrSet env st.redis).invoked = false

/-- A value that reads as itself once it is stored: a negative result that is not stored, or a value in an envelope
or without the look of a marker of the cache. -/
def FillPolicy.Stores (policy : FillPolicy) (value : Json) : Prop :=
  if value = .null then policy.negativeTtlSeconds ≤ 0
  else 0 < policy.swrSeconds ∨ (isNegativePayload value = false ∧ isEnvelope value = false)

/-- A call on a key without a value returns a value that reads as itself, and takes no fill from a legacy key. -/
structure KeepsFills (env : CacheEnv) (st : CacheRun) (c : FillCall E) : Prop where
  stores : getJson env st.redis c.startedAt c.key = .ok .null → ∀ value, c.factory = .ok value →
    c.policy.Stores value
  moves : getJson env st.redis c.startedAt c.key = .ok .null → ∀ legacy value,
    FillCall.findLegacy env st.redis c.startedAt c.legacyKeys = .ok (some (legacy, value)) →
      ∀ fill ∈ st.fills, fill.key = legacy → fill.expiresAt ≤ c.startedAt

/-! ### Payloads -/

structure Reads (env : CacheEnv) (payload value : Json) : Prop where
  positive : isNegativePayload payload = false
  present : value ≠ .null
  unwraps : ∀ now, ∃ stale, unwrapPayload env now payload = .ok (value, stale)

variable {env : CacheEnv} {payload value : Json}

theorem unwrapPayload_of_not_isEnvelope (h : isEnvelope value = false) (now : ℕ) :
    unwrapPayload env now value = .ok (value, false) := by
  cases value with
  | obj fields =>
    unfold isEnvelope at h
    unfold unwrapPayload
    dsimp only at h ⊢
    split
    · rename_i hinfo hdata
      rw [hinfo, hdata] at h
      exact absurd h.symm Bool.false_ne_true
    · rename_i hinfo hdata
      rw [hinfo, hdata] at h
      exact absurd h.symm Bool.false_ne_true
    · rfl
  | _ => rfl

theorem reads_wrapPayload (hvalue : value ≠ .null) (h : policy.Stores value)
    (now softTtl : ℕ) : Reads env (wrapPayload now value softTtl policy.swrSeconds) value := by
  unfold FillPolicy.Stores at h
  rw [if_neg hvalue] at h
  unfold wrapPayload
  split_ifs with hswr
  · obtain ⟨hpositive, henvelope⟩ := h.resolve_left (by omega)
    exact ⟨hpositive, hvalue, fun now ↦ ⟨false, unwrapPayload_of_not_isEnvelope henvelope now⟩⟩
  · exact ⟨rfl, hvalue, fun now ↦ ⟨_, rfl⟩⟩

/-- A live entry whose payload reads as a value. -/
def HoldsUntil (env : CacheEnv) (redis : Redis) (key : String) (value : Json) (expiresAt : ℕ) : Prop :=
  ∃ payload expiry, redis key = some { wire := .json payload, expiresAt := some expiry } ∧ expiresAt ≤ expiry ∧
    Reads env payload value

variable {redis redis' : Redis} {key : String} {now expiresAt : ℕ}

theorem HoldsUntil.get_isSome (h : HoldsUntil env redis key value expiresAt) (hnow : now < expiresAt) :
    (redis.get now key).isSome := by
  obtain ⟨payload, expiry, hentry, hexpiry, -⟩ := h
  have hlive : now < expiry := lt_of_lt_of_le hnow hexpiry
  simp [Redis.get, hentry, hlive]

theorem HoldsUntil.getJson (h : HoldsUntil env redis key value expiresAt) (hnow : now < expiresAt) :
    getJson env redis now key = .ok value := by
  obtain ⟨payload, expiry, hentry, hexpiry, hreads⟩ := h
  have hlive : now < expiry := lt_of_lt_of_le hnow hexpiry
  have hget : redis.get now key = some (.json payload) := by simp [Redis.get, hentry, hlive]
  obtain ⟨stale, hunwraps⟩ := hreads.unwraps now
  unfold Core.getJson
  rw [hget]
  simp [decode, hreads.positive, hunwraps, Except.map]

theorem HoldsUntil.ne_null (h : HoldsUntil env redis key value expiresAt) : value ≠ .null := by
  obtain ⟨payload, expiry, -, -, hreads⟩ := h
  exact hreads.present

theorem HoldsUntil.congr (h : HoldsUntil env redis key value expiresAt) (hsame : redis' key = redis key) :
    HoldsUntil env redis' key value expiresAt := by
  unfold HoldsUntil
  rw [hsame]
  exact h

/-! ### Writes -/

theorem ttl_le_effectiveTtl (env : CacheEnv) (ttlSeconds jitterSeconds : ℤ) (draw : ℕ) :
    ttlSeconds.toNat ≤ effectiveTtl env ttlSeconds jitterSeconds draw := by
  unfold effectiveTtl
  dsimp only
  refine Int.toNat_le_toNat (Int.le_trans ?_ (Int.le_max_left _ _))
  split_ifs <;> omega

theorem lockKeyFor_ne (cacheKey : String) : lockKeyFor cacheKey ≠ cacheKey := by
  intro hsame
  have hlength := congrArg String.length hsame
  rw [lockKeyFor, String.length_append] at hlength
  have hsuffix : 0 < ":sf_lock".length := by decide
  omega

/-- A write leaves the other keys alone. -/
theorem setJson_of_ne {ttlSeconds : Option ℤ}
    (hother : other ≠ key) : (setJson env redis now draw key value policy ttlSeconds).1 other = redis other := by
  unfold setJson
  split_ifs
  · rfl
  · exact update_of_ne hother _ _

theorem releaseIfEqual_of_ne (hother : other ≠ key) :
    redis.releaseIfEqual now key wire other = redis other := by
  unfold releaseIfEqual
  split_ifs
  · exact update_of_ne hother _ _
  · rfl

theorem MarkerFree.not_holdsPlainCredential (h : MarkerFree value) : ¬ HoldsPlainCredential value := by
  rintro ⟨fields, key, hinside, hkey, htruthy⟩
  obtain ⟨found, hfound⟩ := isSome_iff_exists.mp htruthy
  obtain ⟨field, hfield, -⟩ := map_eq_some_iff.mp (filter_eq_some_iff.mp hfound).1
  have hsame : field.1 = key := by simpa using find?_some hfield
  refine h fields hinside field (mem_of_find?_eq_some hfield) ?_
  rw [hsame, pyLower_marker key hkey]
  exact hkey

theorem holdsUntil_setJson (hfree : MarkerFree value) (hvalue : value ≠ .null)
    (hstores : policy.Stores value) :
    HoldsUntil env (setJson env redis now draw key value policy none).1 key value
      (now + policy.lifetime value * 1000000) := by
  have hpasses := assertNoCredentials_eq_ok_iff.mpr hfree.not_holdsPlainCredential
  unfold setJson
  rw [if_neg fun hrefused ↦ hrefused.2 hpasses]
  refine ⟨_, _, update_self _ _ _, ?_, reads_wrapPayload hvalue hstores now _⟩
  have hlong := ttl_le_effectiveTtl env policy.ttlSeconds policy.ttlJitterSeconds draw
  rw [FillPolicy.lifetime, if_neg hvalue, getD_none]
  omega

namespace FillCall

variable {c : FillCall E}

theorem fill_of_ne (hother : other ≠ c.key) : (c.fill env redis).redis other = redis other := by
  unfold fill
  split
  · rfl
  · unfold setNegative
    dsimp only
    split_ifs
    · rfl
    · exact setJson_of_ne hother
  · dsimp only
    exact setJson_of_ne hother

/-- A fill with a value that reads as itself. -/
theorem holdsUntil_fill (hfactory : c.factory = .ok value) (hfree : MarkerFree value) (hvalue : value ≠ .null)
    (hstores : c.policy.Stores value) :
    HoldsUntil env (c.fill env redis).redis c.key value (c.filledAt + c.policy.lifetime value * 1000000) := by
  unfold fill
  rw [hfactory]
  cases value with
  | null => exact absurd rfl hvalue
  | _ => exact holdsUntil_setJson hfree hvalue hstores

theorem setNx_of_ne {milliseconds : ℕ} (hother : other ≠ key) :
    (redis.setNx now key milliseconds wire).1 other = redis other := by
  unfold setNx
  split_ifs
  · rfl
  · exact update_of_ne hother _ _

/-- A key with a live entry keeps it through a distributed fill of another key. -/
theorem distributedFill_of_ne (hother : other ≠ c.key)
    (hlive : (redis.get c.startedAt other).isSome) : (c.distributedFill env redis).redis other = redis other := by
  unfold distributedFill
  split
  · rename_i locked hlock
    have hfree : other ≠ lockKeyFor c.key := by
      rintro rfl
      unfold setNx at hlock
      rw [if_pos hlive] at hlock
      exact absurd (congrArg Prod.snd hlock) Bool.false_ne_true
    have hlocked : (redis.setNx c.startedAt (lockKeyFor c.key) (max env.singleflightLockMs 1).toNat c.token).1 other =
        redis other := setNx_of_ne hfree
    rw [hlock] at hlocked
    dsimp only at hlocked
    dsimp only
    rw [releaseIfEqual_of_ne hfree, fill_of_ne hother, hlocked]
  · split
    · rfl
    · exact fill_of_ne hother
    · rfl

/-- A fill that has not expired is still there after the call, unless the call takes it from a legacy key. -/
theorem getOrSet_keeps (h : HoldsUntil env redis other value expiresAt)
    (hlive : c.startedAt < expiresAt)
    (hmoves : getJson env redis c.startedAt c.key = .ok .null → ∀ legacy moved,
      findLegacy env redis c.startedAt c.legacyKeys = .ok (some (legacy, moved)) → legacy ≠ other) :
    (c.getOrSet env redis).redis other = redis other := by
  have hread := h.getJson hlive
  unfold getOrSet
  split
  · rfl
  · rename_i hmiss
    have hother : other ≠ c.key := by
      rintro rfl
      exact h.ne_null (Except.ok.inj (hread.symm.trans hmiss))
    split
    · rfl
    · rename_i legacy moved hlegacy
      change (setJson env redis c.startedAt c.draw c.key moved c.policy none).1.del legacy other = redis other
      rw [del, update_of_ne (hmoves hmiss legacy moved hlegacy).symm]
      exact setJson_of_ne hother
    · split_ifs
      · exact distributedFill_of_ne hother (h.get_isSome hlive)
      · exact fill_of_ne hother
  · rfl

/-- A call that invokes its factory has found nothing, and its fill is what it leaves under its key. -/
theorem getOrSet_invoked (h : (c.getOrSet env redis).invoked = true) :
    getJson env redis c.startedAt c.key = .ok .null ∧
      ∃ before, (c.getOrSet env redis).redis c.key = (c.fill env before).redis c.key := by
  unfold getOrSet at h ⊢
  split at h
  · exact absurd h Bool.false_ne_true
  · rename_i hmiss
    refine ⟨hmiss, ?_⟩
    split at h
    · exact absurd h Bool.false_ne_true
    · exact absurd h Bool.false_ne_true
    · split_ifs at h ⊢ with hsingle
      · unfold distributedFill at h ⊢
        split at h
        · rename_i locked hlock
          exact ⟨locked, releaseIfEqual_of_ne (lockKeyFor_ne c.key).symm⟩
        · split at h
          · exact absurd h Bool.false_ne_true
          · exact ⟨redis, rfl⟩
          · exact absurd h Bool.false_ne_true
      · exact ⟨redis, rfl⟩
  · exact absurd h Bool.false_ne_true

/-- A call on a key with a live entry returns its value. -/
theorem getOrSet_hit (h : HoldsUntil env redis c.key value expiresAt) (hlive : c.startedAt < expiresAt) :
    (c.getOrSet env redis).outcome = .ok value ∧ (c.getOrSet env redis).invoked = false := by
  have hread := h.getJson hlive
  have hvalue := h.ne_null
  unfold getOrSet
  rw [hread]
  cases value with
  | null => exact absurd rfl hvalue
  | _ => exact ⟨rfl, rfl⟩

end FillCall

/-! ### Runs -/

/-- The fills that have not expired are in Redis and read as their values. -/
def Live (env : CacheEnv) (st : CacheRun) : Prop :=
  ∀ fill ∈ st.fills, MarkerFree fill.value → st.now < fill.expiresAt →
    HoldsUntil env st.redis fill.key fill.value fill.expiresAt

variable {st : CacheRun} {c : FillCall E}

theorem Live.apply (h : Live env st) (hafter : NonOverlapping st c) (hkeeps : KeepsFills env st c) :
    Live env (st.apply env c) := by
  obtain ⟨hstart, hwaits, hfills⟩ := hafter
  have hcall : c.startedAt ≤ c.filledAt := hwaits.trans hfills
  intro fill hfill hfree hlive
  have hunexpired : c.startedAt < fill.expiresAt := lt_of_le_of_lt hcall hlive
  rcases mem_append.mp hfill with hold | hnew
  · have hholds := h fill hold hfree (lt_of_le_of_lt hstart hunexpired)
    refine hholds.congr (FillCall.getOrSet_keeps hholds hunexpired fun hmiss legacy moved hlegacy hsame ↦ ?_)
    exact absurd (hkeeps.moves hmiss legacy moved hlegacy fill hold hsame.symm) (not_le.mpr hunexpired)
  · unfold FillCall.fills at hnew
    split at hnew
    · rename_i value hinvoked hfactory
      obtain rfl := mem_singleton.mp hnew
      obtain ⟨hmiss, before, hredis⟩ := FillCall.getOrSet_invoked hinvoked
      have hstores := hkeeps.stores hmiss value hfactory
      by_cases hvalue : value = .null
      · -- a negative result is not stored, and its fill has expired at once
        unfold FillPolicy.Stores at hstores
        rw [if_pos hvalue] at hstores
        change c.filledAt < c.filledAt + c.policy.lifetime value * 1000000 at hlive
        rw [FillPolicy.lifetime, if_pos hvalue, Int.toNat_of_nonpos hstores] at hlive
        omega
      · exact (FillCall.holdsUntil_fill hfactory hfree hvalue hstores).congr hredis
    · simp at hnew

theorem Live.reuses (h : Live env st) (hafter : NonOverlapping st c) : Reuses env st c := by
  intro fill hfill hfree hkey hlive
  have hholds := h fill hfill hfree (lt_of_le_of_lt hafter.1 hlive)
  rw [hkey] at hholds
  exact FillCall.getOrSet_hit hholds hlive

/-- In every run of calls one after the other, from any contents of Redis, in which every call keeps the fills,
every fill is reused until it expires. -/
theorem fills_reused (calls : List (FillCall E)) (redis : Redis)
    (hcalls : Along (CacheRun.apply env) (fun st c ↦ NonOverlapping st c ∧ KeepsFills env st c) calls { redis }) :
    Along (CacheRun.apply env) (Reuses env) calls { redis } := by
  have hstep : ∀ (st : CacheRun) (c : FillCall E), Live env st → NonOverlapping st c ∧ KeepsFills env st c →
      Live env (st.apply env c) := fun _ _ h hcall ↦ h.apply hcall.1 hcall.2
  have hreuses : ∀ (st : CacheRun) (c : FillCall E), Live env st → NonOverlapping st c ∧ KeepsFills env st c →
      Reuses env st c := fun _ _ h hcall ↦ h.reuses hcall.1
  exact hcalls.mono_invariant hstep hreuses fun _ hfill ↦ absurd hfill not_mem_nil

/-- A call whose factory returns the value, with a minute for values and for negative results. -/
def minuteCall (startedAt : ℕ) (value : Json) : FillCall Unit where
  key := "cg:test:global:identity:user"
  policy := { owner := "identity", ttlSeconds := 60, negativeTtlSeconds := 60 }
  factory := .ok value
  startedAt
  recheckedAt := startedAt
  filledAt := startedAt
  token := .broken "token"

def twoCalls (value : Json) : List (FillCall Unit) := [minuteCall 0 value, minuteCall 1000000 value]

theorem number_reused :
    Along (CacheRun.apply plainCacheEnv) (Reuses plainCacheEnv) (twoCalls (.int 5)) { redis := fun _ ↦ none } := by
  have hkeeps : ∀ (st : CacheRun) (startedAt : ℕ), KeepsFills plainCacheEnv st (minuteCall startedAt (.int 5)) := by
    refine fun st startedAt ↦ ⟨fun _ value hvalue ↦ ?_, fun _ legacy value hlegacy ↦ ?_⟩
    · cases hvalue
      exact .inr ⟨rfl, rfl⟩
    · exact absurd (Except.ok.inj hlegacy) (by simp)
  refine fills_reused (twoCalls (.int 5)) (fun _ ↦ none) ⟨⟨?_, hkeeps _ _⟩, ⟨?_, hkeeps _ _⟩, trivial⟩
  · exact ⟨le_rfl, le_rfl, le_rfl⟩
  · exact ⟨by decide, le_rfl, le_rfl⟩

/-- A negative result with a lifetime of a minute is computed again after a second. -/
theorem negative_result_not_reused :
    Along (CacheRun.apply plainCacheEnv) NonOverlapping (twoCalls .null) { redis := fun _ ↦ none } ∧
      ¬ Along (CacheRun.apply plainCacheEnv) (Reuses plainCacheEnv) (twoCalls .null) { redis := fun _ ↦ none } := by
  refine ⟨⟨⟨le_rfl, le_rfl, le_rfl⟩, ⟨by decide, le_rfl, le_rfl⟩, trivial⟩, ?_⟩
  rintro ⟨-, hreuses, -⟩
  have hfree : MarkerFree .null := by
    intro fields hinside
    cases hinside
  have hfills : (CacheRun.apply plainCacheEnv { redis := fun _ ↦ none } (minuteCall 0 .null)).fills =
      [{ key := "cg:test:global:identity:user", value := .null, expiresAt := 60000000 }] := by decide +kernel
  have hinvoked : ((minuteCall 1000000 .null).getOrSet plainCacheEnv
      (CacheRun.apply plainCacheEnv { redis := fun _ ↦ none } (minuteCall 0 .null)).redis).invoked = true := by
    decide +kernel
  have hreused := (hreuses _ (hfills ▸ mem_singleton_self _) hfree rfl (by decide)).2
  rw [hinvoked] at hreused
  exact absurd hreused.symm Bool.false_ne_true

end ContentGenerator.Core

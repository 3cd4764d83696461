import ContentGenerator.Core.TenantCache
import ContentGenerator.Lib.JsonInside

/-!
# Values in the cache

What `TenantCache` writes to Redis and what it reads back: the envelopes of `cache_support`, the guard against
credentials, `get_json`, `set_json`, and a call of `get_or_set` from its first read to its end. A string in Redis
is represented by what `json.loads` makes of it (`Wire`), so that `encode` and `decode` are the two directions of
the codec on values of JSON.

Redis has the keys with the times they expire at; `SET NX` and the script that releases a lock are the operations
of `cache_singleflight`. Time is in microseconds.
-/

namespace ContentGenerator.Core

open Lib Function

/-! ### Redis -/

/-- A string in Redis: JSON, or a text that `json.loads` refuses. -/
inductive Wire
  | json (value : Json)
  | broken (text : String)
deriving DecidableEq

def encode (value : Json) : Wire := .json value

/-- `decode`; `none` is `CODEC_MISS`. -/
def decode : Option Wire → Option Json
  | some (.json value) => some value
  | _ => none

/-- A key with its value and the time it expires at. -/
structure RedisEntry where
  wire : Wire
  expiresAt : Option ℕ := none

abbrev Redis := String → Option RedisEntry

namespace Redis

def get (redis : Redis) (now : ℕ) (key : String) : Option Wire :=
  ((redis key).filter fun entry ↦ entry.expiresAt.all (now < ·)).map RedisEntry.wire

def setex (redis : Redis) (now : ℕ) (key : String) (seconds : ℕ) (wire : Wire) : Redis :=
  update redis key (some { wire, expiresAt := some (now + seconds * 1000000) })

def del (redis : Redis) (key : String) : Redis := update redis key none

/-- `SET` with `NX` and `PX`: the store, and whether the key has been set. -/
def setNx (redis : Redis) (now : ℕ) (key : String) (milliseconds : ℕ) (wire : Wire) : Redis × Bool :=
  if (redis.get now key).isSome then (redis, false)
  else (update redis key (some { wire, expiresAt := some (now + milliseconds * 1000) }), true)

/-- The script `_RELEASE_LUA`. -/
def releaseIfEqual (redis : Redis) (now : ℕ) (key : String) (wire : Wire) : Redis :=
  if redis.get now key = some wire then redis.del key else redis

end Redis

/-! ### Envelopes -/

/-- The rest of `CachePolicy`. -/
structure FillPolicy extends CachePolicy where
  owner : String
  ttlSeconds : ℤ
  negativeTtlSeconds : ℤ := 0
  forbidCredentials : Bool := true
  swrSeconds : ℤ := 0
  ttlJitterSeconds : ℤ := 0

/-- The settings, and what `float` makes of a text: whether the time is past it, `none` when it raises. -/
structure CacheEnv where
  defaultTtlJitterSeconds : ℤ
  singleflightLockMs : ℤ
  floatIsPast : String → ℕ → Option Bool

/-- The exceptions of `unwrap_payload`. -/
inductive UnwrapError
  | attributeError | floatError
deriving DecidableEq

/-- `_CREDENTIAL_MARKERS`. -/
def credentialMarkers : List String :=
  ["password", "password_hash", "mfa_secret", "access_token", "refresh_token", "secret", "api_key", "private_key"]

/-- The loop of `assert_no_credentials` over the markers. -/
def checkMarkers (value : JsonObject) : Except String Unit :=
  match credentialMarkers.find? fun marker ↦
    value.any (fun field ↦ pyLower field.1 = marker) && (JsonObject.getTruthy value marker).isSome with
  | some marker => .error s!"refusing to cache credential field '{marker}'"
  | none => .ok ()

def assertNoCredentials (value : Json) : Except String Unit := Json.visit checkMarkers value

/-- `effective_ttl`; `draw` is the draw of `random.randint`. -/
def effectiveTtl (env : CacheEnv) (ttlSeconds jitterSeconds : ℤ) (draw : ℕ) : ℕ :=
  let jitter := if jitterSeconds ≠ 0 then jitterSeconds else env.defaultTtlJitterSeconds
  let base := if 0 < jitter then ttlSeconds + (draw % (jitter.toNat + 1) : ℕ) else ttlSeconds
  (max base 1).toNat

/-- `time.time()`. -/
def timeSeconds (now : ℕ) : ℚ := now / 1000000

def wrapPayload (now : ℕ) (value : Json) (softTtl : ℕ) (swrSeconds : ℤ) : Json :=
  if swrSeconds ≤ 0 then value
  else .obj [("_cg_meta", .obj [("soft_exp", .float (timeSeconds now + softTtl)), ("hard_extra", .int swrSeconds)]),
    ("data", value)]

/-- `time.time() > float(value)`. -/
def isPast (env : CacheEnv) (now : ℕ) : Json → Except UnwrapError Bool
  | .int value => .ok (decide ((value : ℚ) < timeSeconds now))
  | .float value => .ok (decide (value < timeSeconds now))
  | .bool value => .ok (decide ((if value then 1 else 0) < timeSeconds now))
  | .str value =>
    match env.floatIsPast value now with
    | some past => .ok past
    | none => .error .floatError
  | _ => .error .floatError

def unwrapPayload (env : CacheEnv) (now : ℕ) (payload : Json) : Except UnwrapError (Json × Bool) :=
  match payload with
  | .obj fields =>
    match JsonObject.get fields "_cg_meta", JsonObject.get fields "data" with
    | some (.obj info), some data =>
      match isPast env now ((JsonObject.get info "soft_exp").getD (.int 0)) with
      | .ok stale => .ok (data, stale)
      | .error exc => .error exc
    | some _, some _ => .error .attributeError
    | _, _ => .ok (payload, false)
  | _ => .ok (payload, false)

def isNegativePayload : Json → Bool
  | .obj fields => JsonObject.get fields "__cg_negative__" = some (.bool true)
  | _ => false

def negativePayload (now : ℕ) : Json := .obj [("__cg_negative__", .bool true), ("at", .float (timeSeconds now))]

/-! ### Reads and writes -/

/-- `get_json`; `.null` is `None`. -/
def getJson (env : CacheEnv) (redis : Redis) (now : ℕ) (key : String) : Except UnwrapError Json :=
  match decode (redis.get now key) with
  | none => .ok .null
  | some decoded =>
    if isNegativePayload decoded then .ok .null
    else (unwrapPayload env now decoded).map Prod.fst

/-- `set_json`: the store, and whether the value has been stored. -/
def setJson (env : CacheEnv) (redis : Redis) (now draw : ℕ) (key : String) (value : Json) (policy : FillPolicy)
    (ttlSeconds : Option ℤ) : Redis × Bool :=
  if policy.forbidCredentials ∧ assertNoCredentials value ≠ .ok () then (redis, false)
  else
    let softTtl := effectiveTtl env (ttlSeconds.getD policy.ttlSeconds) policy.ttlJitterSeconds draw
    let hardTtl := softTtl + (max policy.swrSeconds 0).toNat
    (redis.setex now key hardTtl (encode (wrapPayload now value softTtl policy.swrSeconds)), true)

def setNegative (env : CacheEnv) (redis : Redis) (now draw : ℕ) (key : String) (policy : FillPolicy) : Redis × Bool :=
  if policy.negativeTtlSeconds ≤ 0 then (redis, false)
  else
    setJson env redis now draw key (negativePayload now)
      { owner := policy.owner
        ttlSeconds := policy.negativeTtlSeconds
        failMode := policy.failMode
        forbidCredentials := false
        singleflight := false }
      (some policy.negativeTtlSeconds)

/-! ### A call of `get_or_set` -/

def lockKeyFor (cacheKey : String) : String := cacheKey ++ ":sf_lock"

/-- A call of `get_or_set`, with what it meets: what the factory does if it is invoked, the times of its first
reads, of the read after `wait_for_fill` and of the end of the factory, the draw of the jitter and the token of
the lock. No other call is under way, so `_inflight` is empty. -/
structure FillCall (E : Type) where
  key : String
  policy : FillPolicy
  legacyKeys : List String := []
  factory : Except E Json
  startedAt : ℕ
  recheckedAt : ℕ
  filledAt : ℕ
  draw : ℕ := 0
  token : Wire

inductive FillError (E : Type)
  | unwrap (exc : UnwrapError)
  | factory (exc : E)

/-- How a call ends: what it returns or raises, whether it has invoked its factory, and the store. -/
structure FillResult (E : Type) where
  outcome : Except (FillError E) Json
  invoked : Bool
  redis : Redis

namespace FillCall

variable {E : Type}

def fill (env : CacheEnv) (c : FillCall E) (redis : Redis) : FillResult E :=
  match c.factory with
  | .error exc => { outcome := .error (.factory exc), invoked := true, redis }
  | .ok .null =>
    { outcome := .ok .null
      invoked := true
      redis := (setNegative env redis c.filledAt c.draw c.key c.policy).1 }
  | .ok value =>
    { outcome := .ok value
      invoked := true
      redis := (setJson env redis c.filledAt c.draw c.key value c.policy none).1 }

def distributedFill (env : CacheEnv) (c : FillCall E) (redis : Redis) : FillResult E :=
  match redis.setNx c.startedAt (lockKeyFor c.key) (max env.singleflightLockMs 1).toNat c.token with
  | (locked, true) =>
    let filled := c.fill env locked
    { filled with redis := filled.redis.releaseIfEqual c.filledAt (lockKeyFor c.key) c.token }
  | (_, false) =>
    match getJson env redis c.recheckedAt c.key with
    | .error exc => { outcome := .error (.unwrap exc), invoked := false, redis }
    | .ok .null => c.fill env redis
    | .ok cached => { outcome := .ok cached, invoked := false, redis }

/-- The loop over the legacy keys: the first one with a value, if no read before it raises. -/
def findLegacy (env : CacheEnv) (redis : Redis) (now : ℕ) :
    List String → Except UnwrapError (Option (String × Json))
  | [] => .ok none
  | legacy :: rest =>
    match getJson env redis now legacy with
    | .error exc => .error exc
    | .ok .null => findLegacy env redis now rest
    | .ok value => .ok (some (legacy, value))

def getOrSet (env : CacheEnv) (c : FillCall E) (redis : Redis) : FillResult E :=
  match getJson env redis c.startedAt c.key with
  | .error exc => { outcome := .error (.unwrap exc), invoked := false, redis }
  | .ok .null =>
    match findLegacy env redis c.startedAt c.legacyKeys with
    | .error exc => { outcome := .error (.unwrap exc), invoked := false, redis }
    | .ok (some (legacy, value)) =>
      { outcome := .ok value
        invoked := false
        redis := (setJson env redis c.startedAt c.draw c.key value c.policy none).1.del legacy }
    | .ok none => if c.policy.singleflight then c.distributedFill env redis else c.fill env redis
  | .ok cached => { outcome := .ok cached, invoked := false, redis }

end FillCall

end ContentGenerator.Core

import ContentGenerator.Core.CacheStore
import ContentGenerator.IdentityAccess.Models
import ContentGenerator.Lib.Base64

/-!
# MFA enrolment

`mfa_enable` keeps the generated secret in the cache, `mfa_verify_enable` moves it to the row of the user when a
code for it is accepted: it encrypts the secret, deletes the entry of the cache and commits.

The column holds 64 characters and the shortest Fernet token has 100, so the commit is always refused, after the
entry has been deleted. `enrolmentSound_iff` says when the call still leaves everything as it was: when Redis
does not execute the deletion.
-/

namespace ContentGenerator.IdentityAccess

open Lib List Function ContentGenerator.Core Base64

/-! ### Secrets -/

/-- `Fernet` under the key of the settings: the bytes of the token that one call of `encrypt` makes, and what
`decrypt` accepts. -/
structure Fernet where
  encrypt : List UInt8 → List UInt8
  decrypt : List UInt8 → Option (List UInt8)
  length_encrypt : ∀ data, (encrypt data).length = 57 + 16 * (data.length / 16 + 1)
  decrypt_encrypt : ∀ data, decrypt (encrypt data) = some data

def encryptSecret (fernet : Fernet) (raw : String) : String :=
  String.ofList (urlsafeB64encode (fernet.encrypt raw.toUTF8.data.toList))

/-- `decrypt_secret`; `none` is its `ValueError`. -/
def decryptSecret (fernet : Fernet) (encrypted : String) : Option String := do
  let token ← urlsafeB64decode encrypted.toList
  let raw ← fernet.decrypt token
  String.fromUTF8? ⟨raw.toArray⟩

/-- A token has at least 100 characters. -/
theorem lt_length_encryptSecret (fernet : Fernet) (raw : String) : 64 < (encryptSecret fernet raw).length := by
  rw [encryptSecret, String.length_ofList, length_urlsafeB64encode, fernet.length_encrypt]
  omega

/-! ### The calls -/

/-- What the calls take from outside: the name of the environment, Fernet, and `pyotp` at the time of the call. -/
structure MfaEnv where
  cacheEnv : String
  fernet : Fernet
  verify : String → String → Bool
  provisioningUri : String → String

/-- The columns of `users` that the calls write. -/
structure MfaColumns where
  mfaEnabled : Bool := false
  mfaSecret : Option String := none
  deriving DecidableEq

/-- The cache and the committed row of the user. -/
structure MfaState where
  redis : Core.Redis
  user : MfaColumns := {}

/-- `build_cache_key` for the pending secret. -/
def pendingKey (env : MfaEnv) (userId : String) : String :=
  s!"cg:{env.cacheEnv}:global:auth_token:mfa_pending:{userId}"

/-- `mfa_enable`; `reached` says whether Redis executes the command, an exception of it is swallowed. -/
def mfaEnable (env : MfaEnv) (userId secret : String) (now : ℕ) (reached : Bool) (s : MfaState) :
    (String × String) × MfaState :=
  ((secret, env.provisioningUri secret),
    { s with
      redis := if reached then s.redis.setex now (pendingKey env userId) 600 (encode (.str secret))
        else s.redis })

/-- The database refuses a value that is longer than its column, `String(64)`. -/
def MfaColumns.commit (user : MfaColumns) : Option MfaColumns :=
  if user.mfaSecret.all (·.length ≤ 64) then some user else none

def mfaVerifyEnable (env : MfaEnv) (userId code : String) (now : ℕ) (getReached delReached : Bool)
    (s : MfaState) : Except Refusal Unit × MfaState :=
  match if getReached then decode (s.redis.get now (pendingKey env userId)) else none with
  | some (.str secret) =>
    if secret = "" then (.error (.http 400 "MFA setup session expired"), s)
    else if ¬ env.verify secret code then (.error (.http 400 "Invalid TOTP code"), s)
    else
      let redis := if delReached then s.redis.del (pendingKey env userId) else s.redis
      match MfaColumns.commit
          { s.user with mfaSecret := some (encryptSecret env.fernet secret), mfaEnabled := true } with
      | some user => (.ok (), { redis, user })
      | none => (.error (.unhandled "DataError"), { s with redis })
  | some value =>
    if value.truthy then (.error (.unhandled "TypeError"), s)
    else (.error (.http 400 "MFA setup session expired"), s)
  | none => (.error (.http 400 "MFA setup session expired"), s)

/-! ### What a call leaves -/

variable {env : MfaEnv} {userId code secret : String} {now : ℕ} {delReached : Bool} {s : MfaState}

/-- The secret waits for a code. -/
def Enrolled (env : MfaEnv) (userId secret : String) (now : ℕ) (s : MfaState) : Prop :=
  decode (s.redis.get now (pendingKey env userId)) = some (.str secret) ∧ secret ≠ ""

/-- The call has committed the secret and removed the pending key. -/
def Completed (env : MfaEnv) (userId secret : String) (now : ℕ) (after : Except Refusal Unit × MfaState) : Prop :=
  after.1 = .ok () ∧ (∃ stored, after.2.user.mfaSecret = some stored ∧ decryptSecret env.fernet stored = some secret) ∧
    after.2.redis.get now (pendingKey env userId) = none

/-- The call completes or changes nothing, and it completes for a secret as `random_base32` makes it. -/
def EnrolmentSound (env : MfaEnv) (userId secret : String) (now : ℕ) (s : MfaState)
    (after : Except Refusal Unit × MfaState) : Prop :=
  (Completed env userId secret now after ∨ after.2 = s) ∧
    (secret.length = 32 → Completed env userId secret now after)

/-- The commit is refused, whatever the secret is, and the pending key is gone if Redis has executed the
deletion. -/
theorem mfaVerifyEnable_of_verify (henrolled : Enrolled env userId secret now s) (hcode : env.verify secret code) :
    mfaVerifyEnable env userId code now true delReached s = (.error (.unhandled "DataError"),
      { s with redis := if delReached then s.redis.del (pendingKey env userId) else s.redis }) := by
  have hrefused : MfaColumns.commit
      { s.user with mfaSecret := some (encryptSecret env.fernet secret), mfaEnabled := true } = none := by
    have hlong := lt_length_encryptSecret env.fernet secret
    exact if_neg (by simpa using hlong)
  unfold mfaVerifyEnable
  rw [if_pos rfl, henrolled.1]
  dsimp only
  rw [if_neg henrolled.2, if_neg (not_not.mpr hcode), hrefused]

theorem del_ne (henrolled : Enrolled env userId secret now s) : s.redis.del (pendingKey env userId) ≠ s.redis := by
  intro hsame
  have hnone : s.redis (pendingKey env userId) = none := by
    rw [← hsame]
    exact update_self ..
  have hdecoded := henrolled.1
  rw [Core.Redis.get, hnone] at hdecoded
  cases hdecoded

/-- The call changes nothing exactly when the deletion does not reach Redis, and it never completes. -/
theorem enrolmentSound_iff (henrolled : Enrolled env userId secret now s) (hcode : env.verify secret code) :
    EnrolmentSound env userId secret now s (mfaVerifyEnable env userId code now true delReached s) ↔
      delReached = false ∧ secret.length ≠ 32 := by
  rw [mfaVerifyEnable_of_verify henrolled hcode]
  have hfails : ∀ after : MfaState,
      ¬ Completed env userId secret now (.error (.unhandled "DataError"), after) := by
    rintro after ⟨hok, -⟩
    cases hok
  constructor
  · rintro ⟨hatomic, hgenerated⟩
    refine ⟨Bool.eq_false_iff.mpr fun hreached ↦ ?_, fun hlength ↦ hfails _ (hgenerated hlength)⟩
    subst hreached
    exact del_ne henrolled (congrArg MfaState.redis (hatomic.resolve_left (hfails _)))
  · rintro ⟨rfl, hlength⟩
    exact ⟨.inr rfl, fun hgenerated ↦ absurd hgenerated hlength⟩

/-! ### An enrolment -/

/-- Tokens of the length of those of Fernet: zeros, a mark and the plain text. -/
def plainFernet : Fernet where
  encrypt := fun data ↦ replicate (56 + 16 * (data.length / 16 + 1) - data.length) 0 ++ 1 :: data
  decrypt := fun token ↦ some (token.dropWhile (· = 0)).tail
  length_encrypt := fun data ↦ by
    rw [length_append, length_replicate, length_cons]
    omega
  decrypt_encrypt := fun data ↦ by
    rw [dropWhile_append_of_pos (by simp), dropWhile_cons_of_neg (by decide), tail_cons]

def plainEnv : MfaEnv where
  cacheEnv := "development"
  fernet := plainFernet
  verify := fun _ code ↦ code = "123456"
  provisioningUri := fun secret ↦ "otpauth://totp/" ++ secret

/-- After `mfa_enable`. -/
def enrolling (secret : String) : MfaState := (mfaEnable plainEnv "7" secret 0 true { redis := fun _ ↦ none }).2

theorem enrolled_enrolling {secret : String} (h : secret ≠ "") : Enrolled plainEnv "7" secret 1 (enrolling secret) := by
  refine ⟨?_, h⟩
  change decode (Core.Redis.get (update _ _ _) 1 (pendingKey plainEnv "7")) = _
  rw [Core.Redis.get, update_self]
  rfl

/-- A short secret stays pending when Redis does not execute the deletion. -/
theorem short_secret_stays_pending :
    EnrolmentSound plainEnv "7" "JBSWY3DPEHPK3PXP" 1 (enrolling "JBSWY3DPEHPK3PXP")
      (mfaVerifyEnable plainEnv "7" "123456" 1 true false (enrolling "JBSWY3DPEHPK3PXP")) :=
  (enrolmentSound_iff (enrolled_enrolling (by decide)) rfl).mpr ⟨rfl, by decide⟩

/-- A generated secret is lost: the row has none and the pending key is gone. -/
theorem generated_secret_lost :
    ¬ EnrolmentSound plainEnv "7" "JBSWY3DPEHPK3PXPJBSWY3DPEHPK3PXP" 1
      (enrolling "JBSWY3DPEHPK3PXPJBSWY3DPEHPK3PXP")
      (mfaVerifyEnable plainEnv "7" "123456" 1 true true (enrolling "JBSWY3DPEHPK3PXPJBSWY3DPEHPK3PXP")) := by
  rw [mfaVerifyEnable_of_verify (enrolled_enrolling (by decide)) rfl]
  rintro ⟨-, hgenerated⟩
  cases (hgenerated (by decide)).1

end ContentGenerator.IdentityAccess

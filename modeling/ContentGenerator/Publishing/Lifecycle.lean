import Mathlib.Algebra.Group.Nat.Defs
import ContentGenerator.Publishing.Models

/-!
# What the code writes to one job and its attempt

The functions of the publishing services on the rows they change. `PublishingJob.flush` and
`PublishingAttempt.flush` are what a session writes of a row it has changed: the columns that differ
from what it has loaded, by primary key.
-/

namespace ContentGenerator.Publishing

open Lib

variable {job new : PublishingJob}

/-! ### Errors of a provider -/

/-- What a provider call raises, by the classes the code tells apart, with `str(exc)`. -/
inductive PublishException
  | timeout (text : String)
  | httpStatus (statusCode : ℕ) (text : String)
  | transport (text : String)
  | http (statusCode : ℕ) (text : String)
  | other (text : String)

/-- `str(exc)`. -/
def PublishException.text : PublishException → String
  | .timeout text | .httpStatus _ text | .transport text | .http _ text | .other text => text

/-- `_TRANSIENT_STATUS`. -/
def transientStatus : List ℕ := [408, 425, 429, 500, 502, 503, 504]

def classifyPublishError : PublishException → PublishErrorClass
  | .timeout _ => .ambiguous
  | .httpStatus statusCode _ =>
    if statusCode ∈ transientStatus then .transient
    else if 400 ≤ statusCode ∧ statusCode < 500 then .permanent
    else .transient
  | .transport _ => .transient
  | .http statusCode _ =>
    if statusCode ∈ transientStatus ∨ 500 ≤ statusCode then .transient
    else if 400 ≤ statusCode ∧ statusCode < 500 then .permanent
    else .transient
  | .other text =>
    let message := pyLower text
    if pyIn "timeout" message ∨ pyIn "timed out" message then .ambiguous else .transient

def buildRecoveryActions (platform : String) (failureReason : Option String) : List String :=
  ["retry_publish", "open_manual_publish_runbook", "reauthorize_account"] ++
    (match failureReason.filter (· ≠ "") with
      | some reason => ["review_failure:" ++ pyTake 80 reason]
      | none => []) ++
    if platform = "x" ∨ platform = "bluesky" then ["manual_delete_if_duplicate"] else []

/-- `",".join(items)`. -/
def joinComma (items : List String) : String := ",".intercalate items

/-! ### Claims -/

/-- The conditions of the query of `claim_due_jobs`. -/
def PublishingJob.isDue (now : Time) (job : PublishingJob) : Bool :=
  job.status.isDue ∧ (∀ t ∈ job.scheduledFor, t ≤ now) ∧
    (job.claimedAt = none ∨ ∀ t ∈ job.claimExpiresAt, t ≤ now)

/-- The bulk update of `claim_due_jobs`. The version column is not part of it. -/
def PublishingJob.claim (env : PublishingEnv) (now : Time) (workerId : String) (job : PublishingJob) :
    PublishingJob :=
  { job with
    status := .claimed
    claimedAt := some now
    claimExpiresAt := some (now + env.claimLease)
    workerId := some workerId }

/-- The conditions of the query of `_recover_stale_claims`: the lease has run out. -/
def PublishingJob.isStale (now : Time) (job : PublishingJob) : Bool :=
  job.status.isActive ∧ job.claimExpiresAt.any (· ≤ now)

/-- The claim is taken off the job. -/
def PublishingJob.release (job : PublishingJob) : PublishingJob :=
  { job with claimedAt := none, claimExpiresAt := none, workerId := none }

/-- The body of the loop of `_recover_stale_claims`. -/
def PublishingJob.recover (env : PublishingEnv) (now : Time) (latest : Option PublishingAttempt)
    (job : PublishingJob) : PublishingJob :=
  match latest.map PublishingAttempt.status with
  | some .succeeded =>
    { job.release with
      status := .manualRequired
      failureReason := some "stale_claim_after_provider_success"
      providerPayload := job.providerPayload.update (textPayload
        [("recovery_actions", "reconcile_provider_post,manual_finalize"),
          ("stale_claim_recovery", "manual_required_after_success")])
      version := job.version + 1 }
  | some .ambiguous =>
    { job.release with
      status := .manualRequired
      failureReason :=
        some (((latest.bind PublishingAttempt.errorMessage).filter (· ≠ "")).getD
          "stale_claim_ambiguous_attempt")
      providerPayload := job.providerPayload.update (textPayload
        [("recovery_actions", "reconcile_provider_post,manual_delete_if_duplicate,retry_publish"),
          ("stale_claim_recovery", "manual_required_ambiguous")])
      version := job.version + 1 }
  | _ =>
    { job.release with
      status := .scheduled
      scheduledFor := some now
      providerPayload := job.providerPayload.update (textPayload
        [("stale_claim_recovery", "requeued"), ("recovered_at", env.isoFormat now)])
      version := job.version + 1 }

/-! ### Attempts -/

/-- `_maybe_defer_rate_limit`, when the quota of the account is used up. -/
def PublishingJob.deferRateLimit (env : PublishingEnv) (now : Time) (retryAfterSeconds : ℕ)
    (job : PublishingJob) : PublishingJob :=
  { job.release with
    status := .scheduled
    scheduledFor := some (now + retryAfterSeconds * 1000000)
    providerPayload := job.providerPayload.update (textPayload
      [("account_rate_limited", "true"), ("social_account_id", job.socialAccountId.getD ""),
        ("retry_after_seconds", toString retryAfterSeconds),
        ("next_retry_at", env.isoFormat (now + retryAfterSeconds * 1000000))]) }

/-- The attempt of `prepare_attempt`: a new one, or the one that is there under the key. -/
def prepareAttempt (now : Time) (workerId : Option String) (jobId : ℕ) (job : PublishingJob) :
    Option PublishingAttempt → PublishingAttempt
  | some attempt =>
    { attempt with
      status := .prepared
      workerId := workerId
      startedAt := now
      finishedAt := none
      errorClass := none
      errorMessage := none }
  | none =>
    { publishingJobId := jobId
      attemptNumber := job.retryCount + 1
      attemptKey := buildAttemptKey job (job.retryCount + 1)
      status := .prepared
      workerId := workerId
      startedAt := now }

/-- What `prepare_attempt` writes to the job. -/
def PublishingJob.begin (env : PublishingEnv) (now : Time) (workerId : Option String)
    (attempt : PublishingAttempt) (job : PublishingJob) : PublishingJob :=
  { job with
    status := .running
    currentAttemptKey := some attempt.attemptKey
    claimedAt := some (job.claimedAt.getD now)
    claimExpiresAt := some (now + env.claimLease)
    workerId := (workerId.filter (· ≠ "")).or job.workerId }

/-- `PublishResult` with what else `finalize_success` is called with: the texts of draft and account,
and the platform of the provider. -/
structure PublishResult where
  status : String
  externalPostId : Option String := none
  externalPostUrl : Option String := none
  payload : JsonObject := []
  manualRequired : Bool := false
  draftPreview : String := ""
  draftStatus : String := ""
  authStatus : String := ""
  postType : String := "text"
  providerPlatform : String

/-- What `finalize_success` writes to the job. -/
def PublishingJob.finalizeSuccess (now : Time) (result : PublishResult) (attempt : PublishingAttempt)
    (job : PublishingJob) : PublishingJob :=
  { job.release with
    status :=
      if result.manualRequired then .manualRequired
      else if result.status = PublishingJobStatus.succeededDryRun.value then .succeededDryRun
      else .succeeded
    publishedAt := some now
    externalPostId := result.externalPostId
    externalPostUrl := result.externalPostUrl
    failureReason := none
    provider := result.providerPlatform
    providerPayload := result.payload.update (textPayload
      [("draft_preview", result.draftPreview), ("draft_status", result.draftStatus),
        ("publish_attempt_key", attempt.attemptKey), ("auth_status", result.authStatus),
        ("recovery_actions", joinComma (buildRecoveryActions job.platform none))]) }

/-- What `finalize_success` writes to the attempt. -/
def PublishingAttempt.finalizeSuccess (now : Time) (result : PublishResult)
    (attempt : PublishingAttempt) : PublishingAttempt :=
  { attempt with
    status := .succeeded
    finishedAt := some now
    externalPostId := result.externalPostId
    externalPostUrl := result.externalPostUrl
    providerPayload := result.payload }

/-- The post `finalize_success` creates when the job has none. -/
def createPublishedPost (now : Time) (result : PublishResult) (jobId : ℕ) (job : PublishingJob) :
    PublishedPost where
  publishingJobId := jobId
  platform := job.platform
  postType := result.postType
  externalPostId := result.externalPostId
  externalUrl := result.externalPostUrl
  status := if result.manualRequired then .manual else .live
  publishedAt := some now
  rawPayload := result.payload

/-- What becomes of an attempt that has failed: the job is taken out for a person, given up, or
scheduled again. -/
inductive Verdict
  | ambiguous | dead | again
  deriving DecidableEq

/-- The branches of `finalize_failure`. -/
def failureVerdict (env : PublishingEnv) (errorClass : PublishErrorClass) (attemptNumber : ℕ) : Verdict :=
  if errorClass = .ambiguous then .ambiguous
  else if errorClass = .permanent ∨ env.maxAttempts ≤ attemptNumber then .dead
  else .again

/-- What `finalize_failure` writes to the job. -/
def PublishingJob.finalizeFailure (env : PublishingEnv) (now : Time) (exc : String)
    (errorClass : PublishErrorClass) (attempt : PublishingAttempt) (job : PublishingJob) :
    PublishingJob :=
  let message := pyTake 500 exc
  let failed : PublishingJob :=
    { job.release with
      failureReason := some message
      retryCount := max job.retryCount attempt.attemptNumber }
  let actions := buildRecoveryActions job.platform (some message)
  match failureVerdict env errorClass attempt.attemptNumber with
  | .ambiguous =>
    { failed with
      status := .manualRequired
      providerPayload := job.providerPayload.update (textPayload
        [("recovery_actions", joinComma (actions ++ ["reconcile_provider_post"])),
          ("error_class", errorClass.value), ("attempt_key", attempt.attemptKey)]) }
  | .dead =>
    { failed with
      status := .dead
      deadLetteredAt := some now
      deadLetterReason := some message
      providerPayload := job.providerPayload.update (textPayload
        [("recovery_actions", joinComma actions), ("dead_letter", "true"),
          ("error_class", errorClass.value), ("attempt_key", attempt.attemptKey)]) }
  | .again =>
    let backoffMinutes := 2 ^ attempt.attemptNumber
    { failed with
      status := .scheduled
      scheduledFor := some (now + backoffMinutes * 60 * 1000000)
      providerPayload := job.providerPayload.update (textPayload
        [("recovery_actions", joinComma actions),
          ("next_retry_at", env.isoFormat (now + backoffMinutes * 60 * 1000000)),
          ("backoff_minutes", toString backoffMinutes), ("error_class", errorClass.value),
          ("attempt_key", attempt.attemptKey)]) }

/-- What `finalize_failure` writes to the attempt. -/
def PublishingAttempt.finalizeFailure (now : Time) (exc : String) (errorClass : PublishErrorClass)
    (attempt : PublishingAttempt) : PublishingAttempt :=
  { attempt with
    status :=
      match errorClass with
      | .ambiguous => .ambiguous
      | .permanent => .failedPermanent
      | .transient => .failedTransient
    finishedAt := some now
    errorClass := some errorClass
    errorMessage := some (pyTake 500 exc) }

/-! ### Refusals -/

/-- `HTTPException`. -/
structure HttpError where
  statusCode : ℕ
  detail : String

/-- The first check of `prepare_attempt`. -/
def checkPost : Option PublishedPost → Except HttpError Unit
  | some _ => .error ⟨409, "Publishing job already has a published post"⟩
  | none => .ok ()

/-- The check of `prepare_attempt` on the attempt under the key. -/
def checkAttempt (existing : Option PublishingAttempt) : Except HttpError Unit :=
  match existing.map PublishingAttempt.status with
  | some .succeeded => .error ⟨409, "Publish attempt already succeeded"⟩
  | some .ambiguous =>
    .error ⟨409, "Previous attempt is ambiguous; reconcile before retrying"⟩
  | _ => .ok ()

/-! ### Operator actions -/

/-- What `cancel_scheduled_job` writes. -/
def PublishingJob.cancel (job : PublishingJob) : PublishingJob :=
  { job.release with
    status := .cancelled
    failureReason := some "cancelled_by_operator"
    scheduledFor := none
    providerPayload :=
      job.providerPayload.update (textPayload [("recovery_actions", "retry_publish")]) }

/-- `cancel_scheduled_job` on the job it has loaded. -/
def cancelScheduledJob : Option PublishingJob → Except HttpError PublishingJob
  | none => .error ⟨404, "Publishing job not found"⟩
  | some job =>
    if job.status.isCancellable then .ok job.cancel
    else .error ⟨409, "Only pending or scheduled jobs can be cancelled"⟩

theorem cancelScheduledJob_eq_ok_iff :
    cancelScheduledJob (some job) = .ok new ↔ job.status.isCancellable ∧ new = job.cancel := by
  unfold cancelScheduledJob
  dsimp only
  split_ifs with hcancellable <;> simp [hcancellable, eq_comm]

/-- The first checks of `retry_job`. -/
def checkRetry : Option PublishingJob → Except HttpError PublishingJob
  | none => .error ⟨404, "Publishing job not found"⟩
  | some job =>
    if job.status.isRetryable then .ok job
    else .error ⟨409, "Only failed, dead-lettered, cancelled, or manual jobs can be retried"⟩

theorem checkRetry_eq_ok_iff :
    checkRetry (some job) = .ok new ↔ job.status.isRetryable ∧ new = job := by
  unfold checkRetry
  dsimp only
  split_ifs with hretryable <;> simp [hretryable, eq_comm]

/-- The checks of `retry_job` on the latest attempt and on the quota of the account; the number is the
time in seconds after which the quota allows the next retry. -/
def checkLatest (latest : Option PublishingAttempt) (quota : Option ℕ) : Except HttpError Unit :=
  if latest.map PublishingAttempt.status = some .ambiguous then
    .error ⟨409, "Ambiguous attempt requires provider reconciliation before retry"⟩
  else
    match quota with
    | some seconds =>
      .error
        ⟨429, "Account retry budget exhausted. Try again in " ++ toString seconds ++ " seconds."⟩
    | none => .ok ()

/-- An ambiguous attempt is not retried. -/
theorem checkLatest_of_ambiguous {latest : Option PublishingAttempt} (quota : Option ℕ)
    (h : latest.map PublishingAttempt.status = some .ambiguous) :
    checkLatest latest quota =
      .error ⟨409, "Ambiguous attempt requires provider reconciliation before retry"⟩ := by
  unfold checkLatest
  rw [if_pos h]

/-- What `retry_job` writes. -/
def PublishingJob.retry (job : PublishingJob) : PublishingJob :=
  { job.release with
    status := .pending
    failureReason := none
    deadLetterReason := none
    deadLetteredAt := none
    scheduledFor := none
    providerPayload := job.providerPayload.update (textPayload [("retried_by_operator", "true")]) }

/-! ### What a session writes -/

/-- The stored job after a session that loaded `base` has written what it changed. -/
def PublishingJob.flush (base new stored : PublishingJob) : PublishingJob where
  contentJobId := stored.contentJobId
  socialAccountId := stored.socialAccountId
  platform := stored.platform
  status := flushColumn base.status new.status stored.status
  provider := flushColumn base.provider new.provider stored.provider
  idempotencyKey := stored.idempotencyKey
  dryRun := stored.dryRun
  scheduledFor := flushColumn base.scheduledFor new.scheduledFor stored.scheduledFor
  publishedAt := flushColumn base.publishedAt new.publishedAt stored.publishedAt
  claimedAt := flushColumn base.claimedAt new.claimedAt stored.claimedAt
  claimExpiresAt := flushColumn base.claimExpiresAt new.claimExpiresAt stored.claimExpiresAt
  workerId := flushColumn base.workerId new.workerId stored.workerId
  retryCount := flushColumn base.retryCount new.retryCount stored.retryCount
  deadLetteredAt := flushColumn base.deadLetteredAt new.deadLetteredAt stored.deadLetteredAt
  deadLetterReason := flushColumn base.deadLetterReason new.deadLetterReason stored.deadLetterReason
  failureReason := flushColumn base.failureReason new.failureReason stored.failureReason
  providerPayload := flushColumn base.providerPayload new.providerPayload stored.providerPayload
  externalPostId := flushColumn base.externalPostId new.externalPostId stored.externalPostId
  externalPostUrl := flushColumn base.externalPostUrl new.externalPostUrl stored.externalPostUrl
  currentAttemptKey := flushColumn base.currentAttemptKey new.currentAttemptKey stored.currentAttemptKey
  version := stored.version + 1

/-- The stored attempt after a session that loaded `base` has written what it changed. -/
def PublishingAttempt.flush (base new stored : PublishingAttempt) : PublishingAttempt where
  publishingJobId := stored.publishingJobId
  attemptNumber := stored.attemptNumber
  attemptKey := stored.attemptKey
  status := flushColumn base.status new.status stored.status
  workerId := flushColumn base.workerId new.workerId stored.workerId
  errorClass := flushColumn base.errorClass new.errorClass stored.errorClass
  errorMessage := flushColumn base.errorMessage new.errorMessage stored.errorMessage
  externalPostId := flushColumn base.externalPostId new.externalPostId stored.externalPostId
  externalPostUrl := flushColumn base.externalPostUrl new.externalPostUrl stored.externalPostUrl
  providerPayload := flushColumn base.providerPayload new.providerPayload stored.providerPayload
  startedAt := flushColumn base.startedAt new.startedAt stored.startedAt
  finishedAt := flushColumn base.finishedAt new.finishedAt stored.finishedAt

end ContentGenerator.Publishing

import Mathlib.Algebra.Order.Floor.Ring
import Mathlib.Data.Rat.Floor
import ContentGenerator.Workflows.RunModels

/-!
# Retry classification and backoff

`node_retry.py` and `engine_failure.py`: the class of a failure, whether it is retried, when, and
what a failure leaves on the row. The draw of `random.uniform(-1, 1)` is an argument. Floats are the
rational numbers they denote, so backoffs are computed exactly; `timedelta` rounds to microseconds,
half to even.

`persistFailure_status` says what a failure can do to a row: it is `FAILED`, or `READY` with a due
time, the latter only when the policy retries the class and attempts are left.
-/

namespace ContentGenerator.Workflows

open Lib

inductive ErrorClass
  | transient | rateLimited | timeout | providerUnavailable
  | validation | permanent | authentication | policy
  deriving DecidableEq

namespace ErrorClass

def value : ErrorClass → String
  | .transient => "transient"
  | .rateLimited => "rate_limited"
  | .timeout => "timeout"
  | .providerUnavailable => "provider_unavailable"
  | .validation => "validation"
  | .permanent => "permanent"
  | .authentication => "authentication"
  | .policy => "policy"

def all : List ErrorClass :=
  [.transient, .rateLimited, .timeout, .providerUnavailable, .validation, .permanent,
    .authentication, .policy]

/-- `ErrorClass(text)`. -/
def ofValue? (text : String) : Option ErrorClass := all.find? fun error ↦ error.value = text

end ErrorClass

/-- `NON_RETRYABLE_BY_DEFAULT`. -/
def nonRetryableByDefault : List String :=
  [ErrorClass.validation.value, ErrorClass.permanent.value, ErrorClass.authentication.value,
    ErrorClass.policy.value]

/-- `_DEFAULT_RETRY_ON`. -/
def defaultRetryOn : List String :=
  [ErrorClass.transient.value, ErrorClass.rateLimited.value, ErrorClass.timeout.value,
    ErrorClass.providerUnavailable.value]

/-! ### Backoff -/

/-- `compute_backoff_seconds` with the default jitter ratio; `draw` is `random.uniform(-1, 1)`. -/
def computeBackoffSeconds (attempt : ℕ) (policy : RetryPolicyDefaults) (draw : ℚ) : ℚ :=
  let maxBackoff := if policy.maxBackoffSeconds = 0 then 300 else policy.maxBackoffSeconds
  let raw := min maxBackoff (policy.backoffSeconds * 2 ^ (max 1 attempt - 1))
  if raw ≤ 0 then 0 else max 0 (raw + raw * (1 / 5) * draw)

/-- The nearest natural number, half to even, of a number that is not negative. -/
def roundHalfEven (x : ℚ) : ℕ :=
  let low := x.floor.toNat
  let rest := x - low
  if rest < 1 / 2 then low
  else if 1 / 2 < rest then low + 1
  else if low % 2 = 0 then low else low + 1

/-- `timedelta(seconds=delay)` in microseconds. -/
def microseconds (delay : ℚ) : Time := roundHalfEven (delay * 1000000)

/-- `next_attempt_at_for`, outside the inline mode. -/
def nextAttemptAtFor (attempt : ℕ) (policy : RetryPolicyDefaults) (draw : ℚ) (now : Time) : Time :=
  now + microseconds (computeBackoffSeconds attempt policy draw)

/-- The countdown of `schedule_run_advance`, in seconds. -/
def advanceCountdown (delaySeconds : ℚ) : ℕ :=
  if 0 < delaySeconds then max 1 delaySeconds.ceil.toNat else 0

def shouldRetry (errorClass : String) (attempt : ℕ) (policy : RetryPolicyDefaults) : Bool :=
  let retryOn := (if policy.retryOn.isEmpty then defaultRetryOn else policy.retryOn).map pyLower
  let normalized := pyLower (if errorClass = "" then ErrorClass.permanent.value else errorClass)
  if policy.maxAttempts ≤ attempt then false
  else if normalized ∈ nonRetryableByDefault ∧ normalized ∉ retryOn then false
  else normalized ∈ retryOn

/-! ### Classification -/

def classifyException (exc : PyException) : ErrorClass :=
  let name := pyLower exc.className
  let message := pyLower exc.message
  let mentions (tokens : List String) : Bool := tokens.any fun token ↦ pyIn token message
  if exc.isTimeoutError then .timeout
  else if pyIn "timeout" name ∨ pyIn "timeout" message then .timeout
  else if pyIn "rate" message ∧ pyIn "limit" message then .rateLimited
  else if pyIn "429" message then .rateLimited
  else if mentions ["401", "403", "unauthorized", "forbidden", "auth"] then .authentication
  else if mentions ["validation", "invalid", "schema", "422"] then .validation
  else if mentions ["policy", "blocked", "denied"] then .policy
  else if ["connection", "unavailable", "connect", "dns", "network"].any
      fun token ↦ pyIn token name ∨ pyIn token message then .providerUnavailable
  else if exc.isOsError then .providerUnavailable
  else .transient

/-- `_CODE_MAP`. -/
def codeMap : List (String × ErrorClass) :=
  [("transient", .transient), ("timeout", .timeout), ("rate_limited", .rateLimited),
    ("rate_limit", .rateLimited), ("provider_unavailable", .providerUnavailable),
    ("unavailable", .providerUnavailable), ("validation", .validation), ("invalid", .validation),
    ("invalid_node_output", .permanent), ("authentication", .authentication),
    ("auth", .authentication), ("policy", .policy), ("permanent", .permanent),
    ("missing_db", .permanent), ("missing_graph_node", .permanent),
    ("execute_error", .transient), ("node_failed", .transient),
    ("claim_lease_expired", .transient)]

/-- `str(a or b or …)` over the fields of an error, with a fallback. -/
def firstTruthyText (render : Json → String) (error : JsonObject) (fields : List String)
    (fallback : String) : String :=
  match fields.findSome? (error.getTruthy) with
  | some value => value.text render
  | none => fallback

def classifyErrorPayload (render : Json → String) (error : JsonObject) : ErrorClass :=
  if error.isEmpty then .permanent
  else
    let code := pyLower (firstTruthyText render error ["code", "error_class"] "")
    match codeMap.find? fun entry ↦ entry.1 = code with
    | some entry => entry.2
    | none =>
      let named := (error.get "error_class").bind fun value ↦
        ErrorClass.ofValue? (pyLower (value.text render))
      named.getD (classifyException
        { className := "RuntimeError", message := firstTruthyText render error ["message"] "" })

/-- `error_message` with its default fallback. -/
def errorMessage (render : Json → String) (error : JsonObject) : String :=
  if error.isEmpty then "node failed"
  else pyTake 2000 (firstTruthyText render error ["message", "code"] "node failed")

/-! ### Failure on a row -/

def persistFailure (render : Json → String) (now : Time) (draw : ℚ) (policy : RetryPolicyDefaults)
    (error : JsonObject) (errorClass : String) (row : NodeRun) : NodeRun :=
  let failed :=
    { row with
      lastError := some (errorMessage render error)
      errorClass := some errorClass
      errorJson := some (error.set "error_class" (.str errorClass)) }
  if shouldRetry errorClass row.attempt policy then
    { failed with
      status := .ready
      nextAttemptAt := some (nextAttemptAtFor row.attempt policy draw now)
      finishedAt := none }
  else { failed with status := .failed, finishedAt := some now, nextAttemptAt := none }

theorem attempt_lt_of_shouldRetry {errorClass : String} {attempt : ℕ}
    {policy : RetryPolicyDefaults} (h : shouldRetry errorClass attempt policy) :
    attempt < policy.maxAttempts := by
  by_contra hge
  unfold shouldRetry at h
  rw [if_pos (not_lt.mp hge)] at h
  exact absurd h Bool.false_ne_true

/-- What a failure leaves: a retry with a due time, only when the policy grants one, or `FAILED`. -/
theorem persistFailure_status (render : Json → String) (now : Time) (draw : ℚ)
    (policy : RetryPolicyDefaults) (error : JsonObject) (errorClass : String) (row : NodeRun) :
    let failed := persistFailure render now draw policy error errorClass row
    (failed.status = .failed ∧ failed.nextAttemptAt = none) ∨
      (failed.status = .ready ∧ shouldRetry errorClass row.attempt policy ∧
        failed.nextAttemptAt = some (nextAttemptAtFor row.attempt policy draw now)) := by
  unfold persistFailure
  split_ifs with hretry
  · exact .inr ⟨rfl, hretry, rfl⟩
  · exact .inl ⟨rfl, rfl⟩

/-- A failure touches the outcome columns of the row only. -/
theorem persistFailure_frame (render : Json → String) (now : Time) (draw : ℚ)
    (policy : RetryPolicyDefaults) (error : JsonObject) (errorClass : String) (row : NodeRun) :
    let failed := persistFailure render now draw policy error errorClass row
    failed.nodeType = row.nodeType ∧ failed.attempt = row.attempt ∧
      failed.waitingReason = row.waitingReason ∧ failed.outputJson = row.outputJson := by
  unfold persistFailure
  split_ifs <;> exact ⟨rfl, rfl, rfl, rfl⟩

/-- A failure touches neither the claim of the row nor its resume token. -/
theorem persistFailure_tokens (render : Json → String) (now : Time) (draw : ℚ)
    (policy : RetryPolicyDefaults) (error : JsonObject) (errorClass : String) (row : NodeRun) :
    let failed := persistFailure render now draw policy error errorClass row
    failed.nodeVersion = row.nodeVersion ∧ failed.claimToken = row.claimToken ∧
      failed.resumeToken = row.resumeToken := by
  unfold persistFailure
  split_ifs <;> exact ⟨rfl, rfl, rfl⟩

theorem persistFailure_cancellation (render : Json → String) (now : Time) (draw : ℚ)
    (policy : RetryPolicyDefaults) (error : JsonObject) (errorClass : String) (row : NodeRun) :
    (persistFailure render now draw policy error errorClass row).cancellationRequested =
      row.cancellationRequested := by
  unfold persistFailure
  split_ifs <;> rfl

end ContentGenerator.Workflows

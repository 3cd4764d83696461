import ContentGenerator.Lib.KeyedTable
import ContentGenerator.Lib.Overlap
import ContentGenerator.Lib.PyValue

/-!
# Publishing jobs, attempts and posts

The three tables of the publishing module, and what the code does to one row of them: the claim of a
due job, the recovery of a stale one, the boundaries of an attempt (`prepare_attempt`,
`finalize_success`, `finalize_failure`), the deferral for a rate limit, and the two operator actions.
Which rows a session may write, and when, is the subject of `Publishing.Sessions`.

Main result: attempt keys do not collide (`attemptKey_inj`).
-/

namespace ContentGenerator.Publishing

open Lib List Nat

abbrev Time := ℕ

inductive PublishingJobStatus
  | pending | scheduled | claimed | running | succeeded | succeededDryRun | failed | cancelled | dead
  | manualRequired
  deriving DecidableEq

namespace PublishingJobStatus

def value : PublishingJobStatus → String
  | .pending => "pending"
  | .scheduled => "scheduled"
  | .claimed => "claimed"
  | .running => "running"
  | .succeeded => "succeeded"
  | .succeededDryRun => "succeeded_dry_run"
  | .failed => "failed"
  | .cancelled => "cancelled"
  | .dead => "dead"
  | .manualRequired => "manual_required"

/-- `due_status`: a worker may claim the job. -/
def isDue (status : PublishingJobStatus) : Bool := status = .pending ∨ status = .scheduled

def isActive (status : PublishingJobStatus) : Bool := status = .claimed ∨ status = .running

/-- `cancel_scheduled_job` accepts the job. -/
def isCancellable (status : PublishingJobStatus) : Bool :=
  status = .scheduled ∨ status = .pending ∨ status = .failed

/-- `retry_job` accepts the job. -/
def isRetryable (status : PublishingJobStatus) : Bool :=
  status = .failed ∨ status = .dead ∨ status = .cancelled ∨ status = .manualRequired

end PublishingJobStatus

inductive PublishingAttemptStatus
  | prepared | succeeded | failedTransient | failedPermanent | ambiguous
  deriving DecidableEq

def PublishingAttemptStatus.isFailed (status : PublishingAttemptStatus) : Bool :=
  status = .failedTransient ∨ status = .failedPermanent

inductive PublishErrorClass
  | transient | permanent | ambiguous
  deriving DecidableEq

def PublishErrorClass.value : PublishErrorClass → String
  | .transient => "transient"
  | .permanent => "permanent"
  | .ambiguous => "ambiguous"

/-- `PublishedPostStatus`, in the values a finished attempt writes. -/
inductive PublishedPostStatus
  | live | manual
  deriving DecidableEq

structure PublishingJob where
  contentJobId : String
  socialAccountId : Option String
  platform : String
  status : PublishingJobStatus := .pending
  provider : String := "stub"
  idempotencyKey : String
  dryRun : Bool := true
  scheduledFor : Option Time := none
  publishedAt : Option Time := none
  claimedAt : Option Time := none
  claimExpiresAt : Option Time := none
  workerId : Option String := none
  retryCount : ℕ := 0
  deadLetteredAt : Option Time := none
  deadLetterReason : Option String := none
  failureReason : Option String := none
  providerPayload : JsonObject := []
  externalPostId : Option String := none
  externalPostUrl : Option String := none
  currentAttemptKey : Option String := none
  version : ℕ := 1

structure PublishingAttempt where
  publishingJobId : ℕ
  attemptNumber : ℕ
  attemptKey : String
  status : PublishingAttemptStatus := .prepared
  workerId : Option String := none
  errorClass : Option PublishErrorClass := none
  errorMessage : Option String := none
  externalPostId : Option String := none
  externalPostUrl : Option String := none
  providerPayload : JsonObject := []
  startedAt : Time
  finishedAt : Option Time := none

structure PublishedPost where
  publishingJobId : ℕ
  platform : String
  postType : String
  externalPostId : Option String
  externalUrl : Option String
  status : PublishedPostStatus
  publishedAt : Option Time
  rawPayload : JsonObject

/-- The settings, and the parts of the platform the code calls: `datetime.isoformat`. -/
structure PublishingEnv where
  claimLease : Time := 900 * 1000000
  maxAttempts : ℕ := 3
  isoFormat : Time → String

/-- A `dict[str, str]`. -/
def textPayload (fields : List (String × String)) : JsonObject :=
  fields.map fun field ↦ (field.1, Json.str field.2)

/-! ### Attempt keys -/

def buildAttemptKey (job : PublishingJob) (attemptNumber : ℕ) : String :=
  job.idempotencyKey ++ ":attempt:" ++ toString attemptNumber

theorem colon_not_mem_toDigits (n : ℕ) : ':' ∉ toDigits 10 n := by
  intro hmem
  have hdigit : (':').isDigit := isDigit_of_mem_toDigits (by decide) (by decide) hmem
  exact absurd hdigit (by decide)

theorem dropWhile_digits (prior : List Char) (n : ℕ) :
    (prior ++ ':' :: toDigits 10 n).reverse.takeWhile (· ≠ ':') = (toDigits 10 n).reverse ∧
      (prior ++ ':' :: toDigits 10 n).reverse.dropWhile (· ≠ ':') = ':' :: prior.reverse := by
  have hdigits : ∀ c ∈ (toDigits 10 n).reverse, decide (c ≠ ':') := by
    intro c hc
    rw [mem_reverse] at hc
    refine decide_eq_true fun hcolon ↦ colon_not_mem_toDigits n (hcolon ▸ hc)
  rw [reverse_append, reverse_cons, append_assoc]
  refine ⟨?_, ?_⟩
  · rw [takeWhile_append_of_pos hdigits]
    simp
  · rw [dropWhile_append_of_pos hdigits]
    simp

/-- The key determines the job and the number of the attempt. -/
theorem attemptKey_inj {job job' : PublishingJob} {n n' : ℕ}
    (h : buildAttemptKey job n = buildAttemptKey job' n') :
    job.idempotencyKey = job'.idempotencyKey ∧ n = n' := by
  have hlist : (job.idempotencyKey.toList ++ ":attempt".toList) ++ ':' :: toDigits 10 n =
      (job'.idempotencyKey.toList ++ ":attempt".toList) ++ ':' :: toDigits 10 n' := by
    have hkeys := congrArg String.toList h
    simpa [buildAttemptKey, toList_repr] using hkeys
  have hdigits := (dropWhile_digits (job.idempotencyKey.toList ++ ":attempt".toList) n).1
  have hprior := (dropWhile_digits (job.idempotencyKey.toList ++ ":attempt".toList) n).2
  rw [hlist, (dropWhile_digits (job'.idempotencyKey.toList ++ ":attempt".toList) n').1] at hdigits
  rw [hlist, (dropWhile_digits (job'.idempotencyKey.toList ++ ":attempt".toList) n').2] at hprior
  refine ⟨?_, ?_⟩
  · have hsame := reverse_injective (cons.inj hprior).2
    exact (String.toList_injective (append_cancel_right hsame)).symm
  · have hsame := congrArg (fun digits ↦ ofDigitChars 10 digits 0) (reverse_injective hdigits)
    simpa only [ofDigitChars_ten_toDigits] using hsame.symm

end ContentGenerator.Publishing

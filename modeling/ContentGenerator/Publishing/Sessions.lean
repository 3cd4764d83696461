import Mathlib.Data.List.MinMax
import ContentGenerator.Lib.OptimisticLock
import ContentGenerator.Lib.Play
import ContentGenerator.Publishing.Lifecycle

/-!
# Sessions of the publishing services

The committed tables, the open session of each worker, and the steps of `publish_now`,
`execute_due_jobs`, `cancel_scheduled_job` and `retry_job`, one statement or transaction at a time. A
session works on the rows it has loaded. It writes a job under the condition that the version is still
the loaded one (`writeJob`), and what else it writes in the transaction is lost when that fails. The
bulk update of `claim_due_jobs` has no such condition and leaves the version alone.

A flush and the commit behind it are one step: from the flush on, the session holds the locks of the
rows it has written. In every call that writes a job the status is among the changed columns.
-/

namespace ContentGenerator.Publishing

open Lib PublishingAttempt
open Function (update)

/-! ### Sessions -/

/-- An account `publish_now` creates a job for: the new id, the columns of the job, and what the
provider answers when it is told the schedule. -/
structure JobRequest where
  id : ℕ
  contentJobId : String
  socialAccountId : Option String
  platform : String
  provider : String
  idempotencyKey : String
  dryRun : Bool
  providerPayload : JsonObject := []
  schedulePayload : JsonObject := []

/-- The job of `publish_now`. A scheduled job is written twice. -/
def JobRequest.create (scheduledFor : Option Time) (request : JobRequest) : PublishingJob where
  contentJobId := request.contentJobId
  socialAccountId := request.socialAccountId
  platform := request.platform
  status := if scheduledFor.isSome then .scheduled else .pending
  provider := request.provider
  idempotencyKey := request.idempotencyKey
  dryRun := request.dryRun
  scheduledFor := scheduledFor
  providerPayload :=
    if scheduledFor.isSome then request.providerPayload.update request.schedulePayload
    else request.providerPayload
  version := if scheduledFor.isSome then 2 else 1

/-- How far `publish_job` has come: it has not begun; the job has no post; the attempt under the key has
been looked up; the attempt is committed, and the provider has been called or not. -/
inductive Phase
  | ready
  | looked (id : ℕ) (job : PublishingJob)
  | preparing (id : ℕ) (job : PublishingJob) (existing : Option PublishingAttempt)
  | attempting (id : ℕ) (job : PublishingJob) (attempt : PublishingAttempt) (sent : Bool)

/-- A session of `publish_now` or, under the name of a worker, of `execute_due_jobs`: the accounts that
have no job yet, the jobs it has inserted and not committed, and those it still has to publish. -/
structure Publisher where
  workerId : Option String := none
  scheduledFor : Option Time := none
  accounts : List JobRequest := []
  created : List (ℕ × PublishingJob) := []
  todo : List (ℕ × PublishingJob) := []
  phase : Phase := .ready

/-- An open session. A retry has looked up the latest attempt or not. -/
inductive Session
  | publisher (publisher : Publisher)
  | canceller (id : ℕ) (job : PublishingJob)
  | retrier (id : ℕ) (job : PublishingJob) (checked : Bool)

/-- What has been committed about a job. -/
inductive Event
  | prepared (id : ℕ)
  | finalized (id : ℕ)
  | cancelled (id : ℕ)
  | retried (id : ℕ)
  deriving DecidableEq

/-- The committed tables, the open sessions, the attempt keys under which the provider has been called,
and what has been committed, the latest first. -/
structure PublishingState where
  jobs : KeyedTable ℕ PublishingJob := ⟨[], List.nodup_nil⟩
  attempts : KeyedTable String PublishingAttempt := ⟨[], List.nodup_nil⟩
  posts : List PublishedPost := []
  session : ℕ → Option Session := fun _ ↦ none
  calls : List String := []
  events : List Event := []

/-! ### Queries and writes -/

def hasIdempotencyKey (jobs : List (ℕ × PublishingJob)) (key : String) : Bool :=
  jobs.any fun entry ↦ entry.2.idempotencyKey = key

/-- Insert new jobs; both the id and the idempotency key are unique. -/
def insertJobs : List (ℕ × PublishingJob) → KeyedTable ℕ PublishingJob →
    Option (KeyedTable ℕ PublishingJob)
  | [], jobs => some jobs
  | (id, job) :: rest, jobs =>
    if (jobs.find id).isSome ∨ hasIdempotencyKey jobs.entries job.idempotencyKey then none
    else insertJobs rest (jobs.insertNew id job)

/-- Write a job that was loaded as `base`, if its version is still the loaded one. -/
def writeJob (id : ℕ) (base new : PublishingJob) (jobs : KeyedTable ℕ PublishingJob) :
    Option (KeyedTable ℕ PublishingJob) :=
  if (jobs.find id).any fun stored ↦ stored.version = base.version then
    some (jobs.modify id (PublishingJob.flush base new))
  else none

/-- Write the attempt of `prepare_attempt`: change the one that was found, or insert a new one, whose
key is unique. -/
def writeAttempt (existing : Option PublishingAttempt) (new : PublishingAttempt)
    (attempts : KeyedTable String PublishingAttempt) : Option (KeyedTable String PublishingAttempt) :=
  match existing with
  | some base => some (attempts.modify base.attemptKey (flush base new))
  | none =>
    if (attempts.find new.attemptKey).isSome then none
    else some (attempts.insertNew new.attemptKey new)

/-- The session's copy of a job it has just written. -/
def PublishingJob.saved (job : PublishingJob) : PublishingJob := { job with version := job.version + 1 }

namespace PublishingState

/-- `get_published_post_for_job`. -/
def publishedPost (s : PublishingState) (id : ℕ) : Option PublishedPost :=
  s.posts.find? fun post ↦ post.publishingJobId = id

def attemptsOf (s : PublishingState) (id : ℕ) : List PublishingAttempt :=
  (s.attempts.entries.map Prod.snd).filter fun attempt ↦ attempt.publishingJobId = id

/-- `get_latest_attempt`. -/
def latestAttempt (s : PublishingState) (id : ℕ) : Option PublishingAttempt :=
  (s.attemptsOf id).argmax attemptNumber

/-- The session of a worker is over. -/
def close (s : PublishingState) (who : ℕ) : PublishingState :=
  { s with session := update s.session who none }

/-- The session of a publisher has come further. -/
def proceed (s : PublishingState) (who : ℕ) (publisher : Publisher) : PublishingState :=
  { s with session := update s.session who (some (.publisher publisher)) }

/-- `publish_job` has raised: a worker goes on with its next job, a request is over. -/
def raised (s : PublishingState) (who : ℕ) (publisher : Publisher) : PublishingState :=
  if publisher.workerId.isSome then s.proceed who { publisher with phase := .ready } else s.close who

/-! ### The steps of `publish_now` and `execute_due_jobs` -/

/-- `publish_now` looks up the job of the next account, and creates it when there is none. -/
def resolveAccount (s : PublishingState) (who : ℕ) (p : Publisher) : PublishingState :=
  match p.accounts with
  | [] => s
  | account :: rest =>
    if hasIdempotencyKey (s.jobs.entries ++ p.created) account.idempotencyKey then
      s.proceed who { p with accounts := rest }
    else
      let entry := (account.id, account.create p.scheduledFor)
      s.proceed who
        { p with
          accounts := rest
          created := p.created ++ [entry]
          todo := if p.scheduledFor.isNone then p.todo ++ [entry] else p.todo }

/-- `_recover_stale_claims` on a job, when the query returns it. -/
def recoverRow (env : PublishingEnv) (now : Time) (s : PublishingState) (stale : List ℕ)
    (id : ℕ) (job : PublishingJob) : PublishingJob :=
  if id ∈ stale ∧ job.isStale now then job.recover env now (s.latestAttempt id) else job

/-- The bulk update of `claim_due_jobs` on a job, when the query returns it. -/
def claimRow (env : PublishingEnv) (now : Time) (workerId : String) (due : List ℕ) (id : ℕ)
    (job : PublishingJob) : PublishingJob :=
  if id ∈ due ∧ job.isDue now then job.claim env now workerId else job

/-- `claim_due_jobs` and the commit behind it. Which of the stale and of the due jobs the two queries
return depends on their order, the batch size and the locks of other sessions: the step names them. -/
def executeDueJobs (env : PublishingEnv) (now : Time) (s : PublishingState) (who : ℕ)
    (workerId : String) (stale due : List ℕ) : PublishingState :=
  let recovered := s.jobs.mapValues (recoverRow env now s stale)
  let claimed := recovered.entries.filter fun entry ↦ entry.1 ∈ due ∧ entry.2.isDue now
  let todo := claimed.map fun entry ↦ (entry.1, entry.2.claim env now workerId)
  { s with jobs := recovered.mapValues (claimRow env now workerId due) }.proceed who
    { workerId := some workerId, todo := todo }

/-- The end of `publish_now` or `execute_due_jobs`: the commit of the entry point. -/
def endRequest (s : PublishingState) (who : ℕ) (p : Publisher) : PublishingState :=
  match insertJobs p.created s.jobs with
  | some jobs => { s with jobs := jobs }.close who
  | none => s.close who

/-- `_maybe_defer_rate_limit` defers the next job and commits. -/
def deferNext (env : PublishingEnv) (now : Time) (retryAfterSeconds : ℕ) (s : PublishingState)
    (who : ℕ) (p : Publisher) : PublishingState :=
  match p.todo with
  | [] => s
  | (id, job) :: rest =>
    match (insertJobs p.created s.jobs).bind
      (writeJob id job (job.deferRateLimit env now retryAfterSeconds)) with
    | some jobs => { s with jobs := jobs }.proceed who { p with created := [], todo := rest }
    | none => s.close who

/-- `prepare_attempt` looks up the post of the next job. -/
def lookUpPost (s : PublishingState) (who : ℕ) (p : Publisher) : PublishingState :=
  match p.todo with
  | [] => s
  | (id, job) :: rest =>
    match checkPost (s.publishedPost id) with
    | .ok () => s.proceed who { p with todo := rest, phase := .looked id job }
    | .error _ => s.raised who { p with todo := rest }

/-- `prepare_attempt` looks up the attempt under the next key. -/
def lookUpAttempt (s : PublishingState) (who : ℕ) (p : Publisher) (id : ℕ) (job : PublishingJob) :
    PublishingState :=
  let existing := s.attempts.find (buildAttemptKey job (job.retryCount + 1))
  match checkAttempt existing with
  | .ok () => s.proceed who { p with phase := .preparing id job existing }
  | .error _ => s.raised who p

/-- `prepare_attempt` writes attempt and job, and `publish_job` commits. -/
def prepare (env : PublishingEnv) (now : Time) (s : PublishingState) (who : ℕ) (p : Publisher) (id : ℕ)
    (job : PublishingJob) (existing : Option PublishingAttempt) : PublishingState :=
  let attempt := prepareAttempt now p.workerId id job existing
  let begun := job.begin env now p.workerId attempt
  match (insertJobs p.created s.jobs).bind (writeJob id job begun),
    writeAttempt existing attempt s.attempts with
  | some jobs, some attempts =>
    { s with jobs := jobs, attempts := attempts, events := .prepared id :: s.events }.proceed who
      { p with created := [], phase := .attempting id begun.saved attempt false }
  | _, _ => s.close who

/-- `_run_provider_publish` calls `publish_now` of the provider. -/
def callProvider (s : PublishingState) (who : ℕ) (p : Publisher) (id : ℕ) (job : PublishingJob)
    (attempt : PublishingAttempt) : PublishingState :=
  { s with calls := attempt.attemptKey :: s.calls }.proceed who
    { p with phase := .attempting id job attempt true }

/-- How an attempt ends: the provider has published, something has raised, or `_fail_and_raise` has
refused before the provider was asked. -/
inductive Outcome
  | published (result : PublishResult)
  | raised (exc : PublishException)
  | refused (text : String)

/-- What `finalize_success` or `finalize_failure` writes, with the post it creates. -/
def finalized (env : PublishingEnv) (now : Time) (s : PublishingState) (id : ℕ) (job : PublishingJob)
    (attempt : PublishingAttempt) : Outcome → PublishingJob × PublishingAttempt × List PublishedPost
  | .published result =>
    (job.finalizeSuccess now result attempt, attempt.finalizeSuccess now result,
      if (s.publishedPost id).isSome then [] else [createPublishedPost now result id job])
  | .raised exc =>
    (job.finalizeFailure env now exc.text (classifyPublishError exc) attempt,
      attempt.finalizeFailure now exc.text (classifyPublishError exc), [])
  | .refused text =>
    (job.finalizeFailure env now text .permanent attempt,
      attempt.finalizeFailure now text .permanent, [])

/-- The end of the attempt, and the commit of `publish_job`. A failure is raised after the commit. -/
def finish (env : PublishingEnv) (now : Time) (s : PublishingState) (who : ℕ) (p : Publisher) (id : ℕ)
    (job : PublishingJob) (attempt : PublishingAttempt) (outcome : Outcome) : PublishingState :=
  let (newJob, newAttempt, newPosts) := finalized env now s id job attempt outcome
  match writeJob id job newJob s.jobs with
  | some jobs =>
    let done : PublishingState :=
      { s with
        jobs := jobs
        attempts := s.attempts.modify attempt.attemptKey (flush attempt newAttempt)
        posts := s.posts ++ newPosts
        events := .finalized id :: s.events }
    match outcome with
    | .published _ => done.proceed who { p with phase := .ready }
    | _ => done.raised who p
  | none => s.close who

/-- The outcomes of an attempt before and after the call of the provider. -/
def Outcome.possible (sent : Bool) : Outcome → Bool
  | .published _ => sent
  | .raised _ => true
  | .refused _ => !sent

/-! ### Operations -/

/-- A step of a session. The number names the worker or the request. -/
inductive PublishingOp
  | publishNow (who : ℕ) (accounts : List JobRequest) (scheduledFor : Option Time)
  | resolveAccount (who : ℕ)
  | executeDueJobs (who : ℕ) (workerId : String) (stale due : List ℕ)
  | endRequest (who : ℕ)
  | deferNext (who : ℕ) (retryAfterSeconds : ℕ)
  | lookUpPost (who : ℕ)
  | lookUpAttempt (who : ℕ)
  | prepare (who : ℕ)
  | callProvider (who : ℕ)
  | finish (who : ℕ) (outcome : Outcome)
  | raise (who : ℕ)
  | crash (who : ℕ)
  | cancelScheduledJob (who id : ℕ)
  | retryJob (who id : ℕ)
  | checkLatest (who : ℕ) (quota : Option ℕ)
  | commitAction (who : ℕ)

/-- The step, at the time `now`. A step the session is not ready for does nothing. -/
def apply (env : PublishingEnv) (s : PublishingState) : Time × PublishingOp → PublishingState
  | (_, .publishNow who accounts scheduledFor) =>
    match s.session who with
    | none => s.proceed who { accounts := accounts, scheduledFor := scheduledFor }
    | some _ => s
  | (_, .resolveAccount who) =>
    match s.session who with
    | some (.publisher p) => s.resolveAccount who p
    | _ => s
  | (now, .executeDueJobs who workerId stale due) =>
    match s.session who with
    | none => s.executeDueJobs env now who workerId stale due
    | some _ => s
  | (_, .endRequest who) =>
    match s.session who with
    | some (.publisher p) =>
      match p.accounts, p.todo, p.phase with
      | [], [], .ready => s.endRequest who p
      | _, _, _ => s
    | _ => s
  | (now, .deferNext who retryAfterSeconds) =>
    match s.session who with
    | some (.publisher p) =>
      match p.accounts, p.phase with
      | [], .ready => s.deferNext env now retryAfterSeconds who p
      | _, _ => s
    | _ => s
  | (_, .lookUpPost who) =>
    match s.session who with
    | some (.publisher p) =>
      match p.accounts, p.phase with
      | [], .ready => s.lookUpPost who p
      | _, _ => s
    | _ => s
  | (_, .lookUpAttempt who) =>
    match s.session who with
    | some (.publisher p) =>
      match p.phase with
      | .looked id job => s.lookUpAttempt who p id job
      | _ => s
    | _ => s
  | (now, .prepare who) =>
    match s.session who with
    | some (.publisher p) =>
      match p.phase with
      | .preparing id job existing => s.prepare env now who p id job existing
      | _ => s
    | _ => s
  | (_, .callProvider who) =>
    match s.session who with
    | some (.publisher p) =>
      match p.phase with
      | .attempting id job attempt false => s.callProvider who p id job attempt
      | _ => s
    | _ => s
  | (now, .finish who outcome) =>
    match s.session who with
    | some (.publisher p) =>
      match p.phase with
      | .attempting id job attempt sent =>
        if outcome.possible sent then s.finish env now who p id job attempt outcome else s
      | _ => s
    | _ => s
  | (_, .raise who) =>
    match s.session who with
    | some (.publisher p) =>
      match p.phase with
      | .ready => s
      | _ => s.raised who p
    | _ => s
  | (_, .crash who) => s.close who
  | (_, .cancelScheduledJob who id) =>
    match s.session who, s.jobs.find id with
    | none, some job =>
      match Publishing.cancelScheduledJob (some job) with
      | .ok _ => { s with session := update s.session who (some (.canceller id job)) }
      | .error _ => s
    | _, _ => s
  | (_, .retryJob who id) =>
    match s.session who, s.jobs.find id with
    | none, some job =>
      match checkRetry (some job) with
      | .ok _ => { s with session := update s.session who (some (.retrier id job false)) }
      | .error _ => s
    | _, _ => s
  | (_, .checkLatest who quota) =>
    match s.session who with
    | some (.retrier id job false) =>
      match Publishing.checkLatest (s.latestAttempt id) quota with
      | .ok () => { s with session := update s.session who (some (.retrier id job true)) }
      | .error _ => s.close who
    | _ => s
  | (_, .commitAction who) =>
    match s.session who with
    | some (.canceller id job) =>
      match Publishing.cancelScheduledJob (some job) with
      | .ok cancelled =>
        match writeJob id job cancelled s.jobs with
        | some jobs => { s with jobs := jobs, events := .cancelled id :: s.events }.close who
        | none => s.close who
      | .error _ => s.close who
    | some (.retrier id job true) =>
      match writeJob id job job.retry s.jobs with
      | some jobs => { s with jobs := jobs, events := .retried id :: s.events }.close who
      | none => s.close who
    | _ => s

end PublishingState

end ContentGenerator.Publishing

import ContentGenerator.Approvals.Operations
import ContentGenerator.Publishing.Steps
import ContentGenerator.Workflows.FirstResume

/-!
# The database behind the approval channels

What a decision reaches outside of the approvals module: the workflow runs, the publishing tables and the
content jobs of all tenants. `databasePlatform` is the platform on it: a decision resumes a run with
`resume_waiting_node` of the engine, publishes in a session of the publishing services, and regenerates
content as a new content job.

How `publish_now` resolves its accounts and what the providers answer are inputs of its session
(`PublishScript`), as in the publishing modules; of a generation there is the job it creates and what it
commits.
-/

namespace ContentGenerator.Approvals

open Lib Workflows
open Publishing.PublishingState (PublishingOp Outcome)

variable {τ : Type}

/-! ### Tables -/

/-- A run of a tenant. Its tokens and waits are as in every reachable state. -/
structure TenantRun where
  tenantId : String
  env : EngineEnv
  state : EngineState
  waitTokens : WaitTokens env state

/-- The runs, the tenant of each content job, the publishing tables with the tenant of each publishing job,
and what else the services write. -/
structure Database (τ : Type) where
  runs : KeyedTable ℕ TenantRun := ⟨[], List.nodup_nil⟩
  contentJobs : KeyedTable ℕ String := ⟨[], List.nodup_nil⟩
  publishing : Publishing.PublishingState := {}
  jobTenant : ℕ → String := fun _ ↦ ""
  others : τ

/-! ### Publishing -/

/-- A step of the session of `publish_now`. -/
inductive PublishStep
  | resolveAccount
  | deferNext (retryAfterSeconds : ℕ)
  | lookUpPost
  | lookUpAttempt
  | prepare
  | callProvider
  | finish (outcome : Outcome)
  | raise

def PublishStep.op : PublishStep → PublishingOp
  | .resolveAccount => .resolveAccount 0
  | .deferNext retryAfterSeconds => .deferNext 0 retryAfterSeconds
  | .lookUpPost => .lookUpPost 0
  | .lookUpAttempt => .lookUpAttempt 0
  | .prepare => .prepare 0
  | .callProvider => .callProvider 0
  | .finish outcome => .finish 0 outcome
  | .raise => .raise 0

/-- How many jobs the session has still to publish. -/
def openJobs (tables : Publishing.PublishingState) : ℕ :=
  match tables.session 0 with
  | some (.publisher publisher) => publisher.todo.length
  | _ => 0

def PublishStep.commits (before after : Publishing.PublishingState) : PublishStep → Bool
  | .deferNext _ => (after.session 0).isSome ∧ openJobs after < openJobs before
  | .prepare | .finish _ => before.events.length < after.events.length
  | _ => false

/-- A call of `publish_now`: the accounts it has resolved, the schedule, the steps it takes and the
exception it ends with. -/
structure PublishScript where
  accounts : List Publishing.JobRequest
  scheduledFor : Option Time
  steps : List (Time × PublishStep)
  error : Option PyException

/-- The session of the call on the tables: what it sees at the end, and the tables at its last commit. -/
def PublishScript.run (env : Publishing.PublishingEnv) (script : PublishScript)
    (tables : Publishing.PublishingState) :
    Publishing.PublishingState × Option Publishing.PublishingState :=
  let opened : Publishing.PublishingState := { tables with session := fun _ ↦ none }
  script.steps.foldl
    (fun acc step ↦
      let after := acc.1.apply env (step.1, step.2.op)
      (after, if step.2.commits acc.1 after then some after else acc.2))
    (opened.apply env (0, .publishNow 0 script.accounts script.scheduledFor), none)

def flushCreated (tables : Publishing.PublishingState) : Publishing.PublishingState :=
  match tables.session 0 with
  | some (.publisher publisher) =>
    { tables with jobs := (Publishing.insertJobs publisher.created tables.jobs).getD tables.jobs }
  | _ => tables

/-- The publishing tables after a call for a tenant, who owns the new jobs. -/
def Database.publish (db : Database τ) (tenantId : String) (tables : Publishing.PublishingState) :
    Database τ :=
  { db with
    publishing := tables
    jobTenant := fun id ↦ if (db.publishing.jobs.find id).isSome then db.jobTenant id else tenantId }

/-! ### The services -/

/-- `generate`: refused before the content job is created; or the job is committed, and the generation
ends with an exception or without one. -/
inductive Generation (τ : Type)
  | refused (exc : PyException) (others : τ)
  | prepared (committed : τ) (error : Option PyException) (others : τ)

/-- What the database cannot answer: the run and the token a text stands for, the settings, the language
models and the providers. -/
structure Services (τ : Type) where
  readToken : String → Option (ℕ × ℕ)
  publishingEnv : Publishing.PublishingEnv
  recordPreference : String → ℕ → String → Database τ → τ
  markJobClusterState : String → ℕ → String → Database τ → τ
  setCandidateStatus : String → String → String → Database τ → τ
  generate : String → ℕ → String → String → Database τ → Generation τ
  publishScript : String → PublishNowRequest → Database τ → Except PyException PublishScript

variable (services : Services τ)

def publishNow (tenantId : String) (request : PublishNowRequest) (db : Database τ) :
    Reply (Database τ) Unit :=
  match services.publishScript tenantId request db with
  | .error exc => { result := .error exc, rest := db }
  | .ok script =>
    let tables := script.run services.publishingEnv db.publishing
    { result := (script.error.map Except.error).getD (.ok ())
      rest := db.publish tenantId (flushCreated tables.1)
      committed := tables.2.map (db.publish tenantId) }

def Database.nextContentJob (db : Database τ) : ℕ := (db.contentJobs.entries.map Prod.fst).foldr max 0 + 1

def regenerateWithFeedback (tenantId : String) (job : ℕ) (feedback channel : String) (db : Database τ) :
    Reply (Database τ) ℕ :=
  if db.contentJobs.find job = some tenantId then
    match services.generate tenantId job feedback channel db with
    | .refused exc others => { result := .error exc, rest := { db with others := others } }
    | .prepared committed error others =>
      let contentJobs := db.contentJobs.insertNew db.nextContentJob tenantId
      { result := (error.map Except.error).getD (.ok db.nextContentJob)
        rest := { db with contentJobs := contentJobs, others := others }
        committed := some { db with contentJobs := contentJobs, others := committed } }
  else { result := .error (httpException 404 "Content job not found"), rest := db }

/-! ### Resuming a run -/

/-- `get_by_resume_token`: the run of the tenant the text of a token belongs to. -/
def Database.runOfToken (db : Database τ) (tenantId text : String) : Option (ℕ × ℕ × TenantRun) :=
  (services.readToken text).bind fun node ↦
    ((db.runs.find node.1).filter fun run ↦ run.tenantId = tenantId).map fun run ↦ (node.1, node.2, run)

/-- `resume_waiting_node` on the run. -/
def TenantRun.resume (now : Time) (token : ℕ) (outcome : String) (decision : JsonObject)
    (run : TenantRun) : Except PyException TenantRun :=
  match h : Workflows.resumeWaitingNode run.env now token outcome decision true run.state with
  | .error exc => .error exc
  | .ok state => .ok { run with state := state, waitTokens := run.waitTokens.of_resume h }

def resumeWaitingNode (now : Time) (tenantId text outcome : String) (decision : JsonObject)
    (db : Database τ) : Reply (Database τ) Unit :=
  match db.runOfToken services tenantId text with
  | none =>
    { result := .error (httpException 404 "Waiting node not found for resume token"), rest := db }
  | some (runId, token, run) =>
    match run.resume now token outcome decision with
    | .error exc => { result := .error exc, rest := db }
    | .ok resumed =>
      { result := .ok (), rest := { db with runs := db.runs.modify runId fun _ ↦ resumed } }

/-! ### The platform -/

/-- The platform on the database at a time. What only reads is taken from `base`. -/
def databasePlatform (base : Platform (Database τ)) (now : Time) : Platform (Database τ) :=
  { base with
    recordPreference := fun tenantId job outcome db ↦
      { db with others := services.recordPreference tenantId job outcome db }
    markJobClusterState := fun tenantId job state db ↦
      { db with others := services.markJobClusterState tenantId job state db }
    setCandidateStatus := fun tenantId candidate status db ↦
      { db with others := services.setCandidateStatus tenantId candidate status db }
    regenerateWithFeedback := regenerateWithFeedback services
    publishNow := publishNow services
    resumeWaitingNode := resumeWaitingNode services now }

theorem databasePlatform_resume (base : Platform (Database τ)) (now : Time) :
    (databasePlatform services base now).resumeWaitingNode = resumeWaitingNode services now := rfl

theorem databasePlatform_publishNow (base : Platform (Database τ)) (now : Time) :
    (databasePlatform services base now).publishNow = publishNow services := rfl

theorem databasePlatform_regenerate (base : Platform (Database τ)) (now : Time) :
    (databasePlatform services base now).regenerateWithFeedback = regenerateWithFeedback services := rfl

theorem databasePlatform_recordPreference (base : Platform (Database τ)) (now : Time) :
    (databasePlatform services base now).recordPreference = fun tenantId job outcome db ↦
      { db with others := services.recordPreference tenantId job outcome db } := rfl

theorem databasePlatform_markJobClusterState (base : Platform (Database τ)) (now : Time) :
    (databasePlatform services base now).markJobClusterState = fun tenantId job state db ↦
      { db with others := services.markJobClusterState tenantId job state db } := rfl

variable {now : Time} {token : ℕ} {outcome : String} {decision : JsonObject} {run : TenantRun}

/-- A run that was resumed keeps its tenant and its environment. -/
theorem TenantRun.resume_eq_ok {run' : TenantRun} (h : run.resume now token outcome decision = .ok run') :
    Workflows.resumeWaitingNode run.env now token outcome decision true run.state = .ok run'.state ∧
      run'.tenantId = run.tenantId ∧ run'.env = run.env := by
  unfold TenantRun.resume at h
  split at h
  · exact absurd h nofun
  · rename_i state hstate
    cases h
    exact ⟨hstate, rfl, rfl⟩

/-- A call on the run returns what `resume_waiting_node` returns. -/
theorem TenantRun.resume_of_ok {state : EngineState}
    (h : Workflows.resumeWaitingNode run.env now token outcome decision true run.state = .ok state) :
    ∃ run', run.resume now token outcome decision = .ok run' ∧ run'.state = state := by
  unfold TenantRun.resume
  split
  · rename_i exc hexc
    exact absurd (hexc.symm.trans h) nofun
  · rename_i state' hstate'
    exact ⟨_, rfl, Except.ok.inj (hstate'.symm.trans h)⟩

/-- A call on the run raises what `resume_waiting_node` raises. -/
theorem TenantRun.resume_of_error {exc : PyException}
    (h : Workflows.resumeWaitingNode run.env now token outcome decision true run.state = .error exc) :
    run.resume now token outcome decision = .error exc := by
  unfold TenantRun.resume
  split
  · rename_i exc' hexc'
    exact congrArg Except.error (Except.error.inj (hexc'.symm.trans h))
  · rename_i state hstate
    exact absurd (hstate.symm.trans h) nofun

/-! ### Providers at rest -/

/-- One run with the token 3, whose text is `token`; nothing can be published or generated. -/
def idleServices : Services Unit where
  readToken text := if text = "token" then some (7, 3) else none
  publishingEnv := { isoFormat := fun _ ↦ "" }
  recordPreference _ _ _ db := db.others
  markJobClusterState _ _ _ db := db.others
  setCandidateStatus _ _ _ db := db.others
  generate _ _ _ _ db := .refused (httpException 503 "No provider") db.others
  publishScript _ _ _ := .error (httpException 400 "No target social accounts")

end ContentGenerator.Approvals

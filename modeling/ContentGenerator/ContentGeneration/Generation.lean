import ContentGenerator.Lib.Action
import ContentGenerator.Lib.PyValue

/-!
# The generation of content

`generate_content` (`workflow.py`, `asset_persistence.py`, `workflow_finalize.py`) with its four stages: prepare,
the language model, the assets, and the end. The job is committed as RUNNING before the first call leaves the
process, and again with its texts; it is closed when all stages have gone through. `finished` is what one of the
two callers leaves behind: the task that opens a session of its own (`task_defs/generation.py`), or the node of
a workflow, in the session of the engine (`canonical_content.py`).

What other systems answer is part of a run: the `GenerationScript`.
-/

namespace ContentGenerator.ContentGeneration

open Lib Lib.Action

/-! ### The rows -/

inductive ContentJobStatus where
  | queued | running | completed | failed | cancelled
  deriving DecidableEq

inductive VideoStage where
  | queued | researching | scripting | planning | collectingAssets | generatingVoice | captioning | rendering
  | packaging | failed | completed
  deriving DecidableEq

inductive GeneratedAssetGroupStatus where
  | created | reviewed | approved | rejected | regenerated | published
  deriving DecidableEq

/-- A row of `content_jobs`. -/
structure ContentJob where
  jobType : String
  status : ContentJobStatus := .queued
  stage : VideoStage := .queued
  progress : ℕ := 0
  feedback : Option String := none
  groundingBundle : JsonObject := []
  providerMetadata : JsonObject := []
  errorMessage : Option String := none
  targetSocialAccountIds : List String := []

/-- What one generation writes: its job and the asset group. -/
structure GenerationRows where
  job : ContentJob
  assetGroup : GeneratedAssetGroupStatus := .created

/-! ### What is read -/

structure ContentPlan where
  decision : String
  contentFormat : String := "text"

structure StoryCluster where
  headline : String
  summary : String := ""
  primaryTopic : String := ""
  riskLevel : Option String := none

structure EditorialBrief where
  status : String

/-- `OrchestrationResult`, as far as the job is concerned: the verdict of the reviewer, and the trace. -/
structure OrchestrationResult where
  reviewerPassed : Bool
  reviewerIssues : List String := []
  revisedDraft : Option String := none
  inferenceTrace : JsonObject := []

/-! ### Reviews -/

structure PlatformReview where
  platform : String
  label : String := "low"
  blocked : Bool := false
  issues : List String := []

/-- What `review_generated_package` has found in the texts. -/
structure PackageFindings where
  reviewerIssues : List String := []
  topicReasons : List String := []
  topicCategories : List String := []
  riskLevel : String := "safe"
  failClosed : Bool := false
  unsupportedClaims : ℕ := 0
  contradictions : List Json := []
  harmfulFraming : List Json := []
  platformPolicy : List PlatformReview := []
  factChecklistTopic : Json := .null

namespace PackageFindings

def warnings (f : PackageFindings) : List String :=
  f.reviewerIssues ++
    (if f.unsupportedClaims = 0 then [] else [toString f.unsupportedClaims ++ " unsupported claims detected"]) ++
    (if f.contradictions = [] then [] else ["Generated copy contradicts extracted claims"]) ++
    (if f.harmfulFraming = [] then [] else ["Harmful framing markers detected"]) ++
    ((f.platformPolicy.filter fun review ↦ review.issues ≠ []).map fun review ↦
      review.platform ++ " platform policy review flagged content") ++
    f.topicReasons

def blocked (f : PackageFindings) : Bool :=
  f.failClosed ∨ f.contradictions ≠ [] ∨ f.harmfulFraming ≠ [] ∨ f.platformPolicy.any PlatformReview.blocked

def label (f : PackageFindings) : String :=
  if f.blocked then "blocked"
  else if f.unsupportedClaims ≠ 0 ∨ f.platformPolicy.any (fun review ↦ review.issues ≠ []) then "high"
  else if f.warnings ≠ [] then "medium"
  else "low"

/-- `policy_flags`: the content of the asset that the risk review of the job is read from. -/
def policyFlags (f : PackageFindings) : JsonObject :=
  [("label", .str f.label), ("blocked", .bool f.blocked), ("warnings", .arr (f.warnings.map .str)),
    ("risk_level", .str f.riskLevel), ("topic_categories", .arr (f.topicCategories.map .str)),
    ("fail_closed", .bool f.failClosed), ("unsupported_claims", .int f.unsupportedClaims),
    ("contradictions", .arr f.contradictions), ("harmful_framing", .arr f.harmfulFraming),
    ("platform_policy", .arr (f.platformPolicy.map fun review ↦
      .obj [("platform", .str review.platform), ("label", .str review.label), ("blocked", .bool review.blocked),
        ("issues", .arr (review.issues.map .str))])),
    ("fact_checklist_topic", f.factChecklistTopic)]

end PackageFindings

def similarityLabel (score : ℚ) : String :=
  if score ≥ 93 / 100 then "blocked" else if score ≥ 85 / 100 then "high" else "low"

/-- What the texts of a generation are judged by: the policy findings, and the similarity to the sources. -/
structure GeneratedPackage where
  findings : PackageFindings := {}
  maxSourceSimilarity : ℚ := 0

/-- `originality_report["blocked"]`. -/
def GeneratedPackage.originalityBlocked (package : GeneratedPackage) : Bool :=
  similarityLabel package.maxSourceSimilarity = "blocked"

/-! ### Sessions -/

/-- What a call raises: an `HTTPException`, a database error, which leaves the session unusable until it is
rolled back, or something else. -/
inductive Failure where
  | http (statusCode : ℕ) (detail : String)
  | database (error : String)
  | other (error : String)
  deriving DecidableEq

/-- The failure leaves the session unusable. -/
def Failure.isDatabase : Failure → Bool
  | .database _ => true
  | _ => false

/-- A session: the rows as it holds them, the rows it has committed, the latest last, and whether it can only
be rolled back. -/
structure GenerationSession where
  rows : Option GenerationRows := none
  commits : List GenerationRows := []
  broken : Bool := false

def call (outcome : Option Failure) : Action GenerationSession Failure Unit :=
  match outcome with
  | none => pure ()
  | some failure => do
    modify fun s ↦ { s with broken := s.broken || failure.isDatabase }
    raise failure

/-- A call that returns a value, or raises. -/
def answer {α : Type} (outcome : Except Failure α) : Action GenerationSession Failure α :=
  match outcome with
  | .ok value => pure value
  | .error failure => do
    call (some failure)
    raise failure

def statement (error : Option String) : Action GenerationSession Failure Unit := do
  let broken ← read GenerationSession.broken
  if broken then raise (.database "PendingRollbackError") else call (error.map Failure.database)

def commit (error : Option String) : Action GenerationSession Failure Unit := do
  statement error
  modify fun s ↦ { s with commits := s.commits ++ s.rows.toList }

def ignoring (outcome : Option Failure) : Action GenerationSession Failure Unit :=
  tryCatch (call outcome) fun _ ↦ pure ()

/-- `if not condition: raise`. -/
def ensure (condition : Prop) [Decidable condition] (failure : Failure) :
    Action GenerationSession Failure Unit :=
  if condition then pure () else raise failure

def GenerationSession.mapJob (f : ContentJob → ContentJob) (s : GenerationSession) : GenerationSession :=
  { s with rows := s.rows.map fun rows ↦ { rows with job := f rows.job } }

def modifyJob (f : ContentJob → ContentJob) : Action GenerationSession Failure Unit :=
  modify (GenerationSession.mapJob f)

/-! ### The stages -/

/-- The arguments and the answers of one generation. A statement answers with an error or goes through. -/
structure GenerationScript where
  jobId : String
  plan : Option ContentPlan
  cluster : Option StoryCluster
  brief : Option EditorialBrief
  accounts : Except Failure (List String) := .ok []
  variantFingerprints : JsonObject := []
  feedback : Option String := none
  createRows : Option String := none
  prepareCommit : Option String := none
  sourceArticles : Option String := none
  bestTone : Option Failure := none
  brandProfile : Option Failure := none
  llmFlush : Option String := none
  orchestrator : Except Failure OrchestrationResult
  rejectionFlush : Option String := none
  package : Except Failure GeneratedPackage
  createAssets : Option String := none
  persistCommit : Option String := none
  imageTask : Option Failure := none
  ttsTask : Option Failure := none
  videoPipeline : Option Failure := none
  auditRecord : Option String := none
  finalizeFlush : Option String := none

/-- `{**provider_metadata, "pipeline_stage": ..., "stage_idempotency_key": ...}`. -/
def stageMetadata (jobId stage : String) (metadata : JsonObject) (key : String) : JsonObject :=
  (metadata.set "pipeline_stage" (.str stage)).set "stage_idempotency_key"
    (.str ("content-job:" ++ jobId ++ ":" ++ key))

def found {α : Type} (row : Option α) (detail : String) : Except Failure α :=
  match row with
  | some value => .ok value
  | none => .error (.http 404 detail)

def briefRequired : String :=
  "An approved editorial brief is required before generating content. " ++
    "Create and approve a brief for this story cluster first."

/-- The rows of a new generation, as the prepare stage leaves them. -/
def GenerationScript.prepared (script : GenerationScript) (plan : ContentPlan) (cluster : StoryCluster)
    (accountIds : List String) : GenerationRows where
  job :=
    { jobType := if script.feedback.any (· ≠ "") then "revision" else plan.contentFormat
      status := .running
      stage := .scripting
      progress := 15
      feedback := script.feedback
      groundingBundle :=
        [("headline", .str cluster.headline), ("summary", .str cluster.summary), ("topic", .str cluster.primaryTopic),
          ("variant_fingerprints", .obj script.variantFingerprints),
          ("target_social_account_ids", .arr (accountIds.map .str))]
      providerMetadata := stageMetadata script.jobId "prepare" [] "prepare"
      targetSocialAccountIds := accountIds }

/-- `generate_content` up to the commit of the prepare stage. -/
def prepare (script : GenerationScript) : Action GenerationSession Failure (ContentPlan × StoryCluster) := do
  let plan ← answer (found script.plan "Content plan not found")
  ensure (plan.decision = "generate") (.http 400 "Content plan is not approved for generation")
  let cluster ← answer (found script.cluster "Story cluster not found")
  ensure (script.brief.any fun brief ↦ brief.status = "approved") (.http 422 briefRequired)
  let accountIds ← answer script.accounts
  statement script.createRows
  modify fun s ↦ { s with rows := some (script.prepared plan cluster accountIds) }
  commit script.prepareCommit
  pure (plan, cluster)

/-- The reviewer has rejected the draft of a risky story and offers no other. -/
def rejects (cluster : StoryCluster) (result : OrchestrationResult) : Bool :=
  ((cluster.riskLevel.filter (· ≠ "")).getD "safe" = "risky" ∨
      (cluster.riskLevel.filter (· ≠ "")).getD "safe" = "high_risk") ∧
    ¬ result.reviewerPassed ∧ ¬ result.revisedDraft.any (· ≠ "")

/-- `job.error_message` of a rejected draft. -/
def rejectionMessage (result : OrchestrationResult) : String :=
  "Content reviewer rejected draft for high-risk story: " ++ "; ".intercalate result.reviewerIssues

def runLlmGenerationStage (script : GenerationScript) (cluster : StoryCluster) :
    Action GenerationSession Failure OrchestrationResult := do
  statement script.sourceArticles
  ignoring script.bestTone
  ignoring script.brandProfile
  modifyJob fun job ↦
    { job with
      providerMetadata := stageMetadata script.jobId "llm_generation" job.providerMetadata "llm_generation" }
  statement script.llmFlush
  let result ← answer script.orchestrator
  if rejects cluster result then do
    modifyJob fun job ↦ { job with status := .failed, errorMessage := some (rejectionMessage result) }
    statement script.rejectionFlush
    raise (.http 422 (rejectionMessage result))
  else pure result

def reviewedGrounding (package : GeneratedPackage) (result : OrchestrationResult) (grounding : JsonObject) :
    JsonObject :=
  ((grounding.set "risk_review" (.obj package.findings.policyFlags)).set "risk_label"
    (.str package.findings.label)).set "inference_trace" (.obj result.inferenceTrace)

def persistOrchestratedAssets (script : GenerationScript) (result : OrchestrationResult) :
    Action GenerationSession Failure GeneratedPackage := do
  let package ← answer script.package
  statement script.createAssets
  modifyJob fun job ↦
    { job with
      groundingBundle := reviewedGrounding package result job.groundingBundle
      providerMetadata := stageMetadata script.jobId "asset_persist" job.providerMetadata "asset_persist" }
  commit script.persistCommit
  pure package

def ContentPlan.makesVideo (plan : ContentPlan) : Bool :=
  plan.contentFormat = "video" ∨ plan.contentFormat = "both"

def closingStatus (package : GeneratedPackage) : GeneratedAssetGroupStatus :=
  if package.originalityBlocked ∨ package.findings.blocked then .rejected else .reviewed

def makeVideo (script : GenerationScript) (plan : ContentPlan) : Action GenerationSession Failure Unit :=
  if plan.makesVideo then do
    modifyJob fun job ↦ { job with stage := .researching, progress := 35 }
    call script.videoPipeline
  else pure ()

def finalizeGeneration (script : GenerationScript) (plan : ContentPlan) (package : GeneratedPackage) :
    Action GenerationSession Failure Unit := do
  call script.imageTask
  call script.ttsTask
  modifyJob fun job ↦
    { job with
      stage := .collectingAssets
      progress := 70
      providerMetadata := stageMetadata script.jobId "image_tts_enqueued" job.providerMetadata "image_tts" }
  makeVideo script plan
  modifyJob fun job ↦ { job with status := .completed, stage := .completed, progress := 100 }
  modify fun s ↦ { s with rows := s.rows.map fun rows ↦ { rows with assetGroup := closingStatus package } }
  statement script.auditRecord
  statement script.finalizeFlush

def generateContent (script : GenerationScript) : Action GenerationSession Failure Unit := do
  let (plan, cluster) ← prepare script
  let result ← runLlmGenerationStage script cluster
  let package ← persistOrchestratedAssets script result
  finalizeGeneration script plan package

/-! ### The callers -/

/-- Who calls, with the answers of the calls it makes itself: the task under its Celery id, or the node, which
reads the canonical text, stamps it and reads the asset group before the engine commits. -/
inductive Entry where
  | task (celeryTaskId : String) (commitError : Option String)
  | node (canonicalText : Except Failure String) (stampFlush assetGroup : Option String)
      (commitError : Option String)

/-- `generate_content_task` after `generate_content` has returned. -/
def taskTail (celeryTaskId : String) (commitError : Option String) : Action GenerationSession Failure Unit := do
  modifyJob fun job ↦
    if celeryTaskId = "" then job
    else
      { job with
        providerMetadata := (job.providerMetadata.set "celery_task_id" (.str celeryTaskId)).set "correlation_id"
          (.str celeryTaskId) }
  commit commitError

/-- The node stamps the canonical text on the job. -/
def stampText (text : String) (stampFlush : Option String) : Action GenerationSession Failure Unit :=
  if text = "" then pure ()
  else do
    modifyJob fun job ↦ { job with groundingBundle := job.groundingBundle.set "canonical_text" (.str text) }
    statement stampFlush

/-- `GenerateCanonicalContentNode.execute` after `generate_content` has returned. -/
def nodeTail (canonicalText : Except Failure String) (stampFlush assetGroup : Option String) :
    Action GenerationSession Failure Unit := do
  let text ← answer canonicalText
  stampText text stampFlush
  statement assetGroup

/-- What a caller leaves behind: how the call has ended, and what has been committed. The node has recorded its
result when the engine's commit goes through. -/
def finished (script : GenerationScript) : Entry → Option (Except Failure Unit × List GenerationRows)
  | .task celeryTaskId commitError =>
    let (result, s) := (generateContent script >>= fun _ ↦ taskTail celeryTaskId commitError) {}
    some (result, s.commits)
  | .node canonicalText stampFlush assetGroup commitError =>
    let (result, s) := (generateContent script >>= fun _ ↦ nodeTail canonicalText stampFlush assetGroup) {}
    match commit commitError s with
    | (.ok (), s') => some (result, s'.commits)
    | (.error _, _) => none

end ContentGenerator.ContentGeneration

import ContentGenerator.Lib.Action
import ContentGenerator.Lib.KeyedTable
import ContentGenerator.Workflows.Nodes
import Mathlib.Data.List.MinMax

/-!
# Chess video jobs

The jobs of the video service with the object storage they write to. A job is created queued, or completed
with the outputs of a completed job of the same render fingerprint; a worker renders a queued job and uploads
two objects under keys of its own; deleting a job hands back what is to be cleaned up after the commit.

Every stage of a render is committed before the next one begins, so a state here is what is committed.
-/

namespace ContentGenerator.ChessVideo

open Lib Lib.Action Workflows

/-! ### Rows -/

abbrev Time := ℕ

inductive ChessVideoJobStatus
  | queued | validating | preparing | rendering | encoding | uploading | completed | failed | cancelled
  deriving DecidableEq

/-- The fields of `ParsedChessGame` that a job takes over. -/
structure ParsedChessGame where
  inputFormat : String
  normalizedPgn : String
  whitePlayer : Option String := none
  blackPlayer : Option String := none
  event : Option String := none
  date : Option String := none
  result : Option String := none
  startingFen : String
  moveCount : ℕ

structure RenderOptions where
  orientation : String := "white"
  renderPreset : String := "economy_vertical"
  boardTheme : String := "classic_wood"
  secondsPerMove : ℚ := 1
  includeCoordinates : Bool := true
  includeMoveText : Bool := true
  title : Option String := none
  subtitle : Option String := none

/-- The columns of a job that say where its video is and what it is like. -/
structure VideoOutputs where
  videoStorageKey : Option String := none
  videoPublicUrl : Option String := none
  thumbnailStorageKey : Option String := none
  thumbnailPublicUrl : Option String := none
  durationSeconds : Option ℚ := none
  width : Option ℕ := none
  height : Option ℕ := none
  fileSizeBytes : Option ℕ := none
  rendererVersion : Option String := none

structure ChessVideoJob where
  tenantId : String
  createdByUserId : Option String := none
  status : ChessVideoJobStatus := .queued
  stage : ChessVideoJobStatus := .queued
  progress : ℚ := 0
  sourceText : String
  chessGameId : Option ℕ := none
  game : ParsedChessGame
  options : RenderOptions
  renderFingerprint : Option String
  outputs : VideoOutputs
  errorMessage : Option String := none
  startedAt : Option Time := none
  completedAt : Option Time := none

/-- What `delete` hands to `cleanup_storage`. -/
structure Cleanup where
  tenantId : String
  jobId : ℕ
  videoKey : Option String
  thumbKey : Option String

/-- The committed jobs, the objects in storage, and the cleanups of deleted jobs that are still to be done.
Ids are handed out in order and not again after a deletion. -/
structure VideoState where
  jobs : KeyedTable ℕ ChessVideoJob := ⟨[], List.nodup_nil⟩
  nextJobId : ℕ := 0
  objects : KeyedTable String String := ⟨[], List.nodup_nil⟩
  cleanups : List Cleanup := []

abbrev Video (α : Type) := Action VideoState PyException α

structure Platform where
  parseChessInput : String → String → Except PyException ParsedChessGame
  getPreset : String → Except PyException Unit
  getBoardTheme : String → Except PyException Unit
  computeRenderFingerprint : ParsedChessGame → RenderOptions → String
  publicUrlFor : String → String
  rendererVersion : String

/-! ### Object storage -/

def uploadFile (p : Platform) (objectKey content : String) : Video String := do
  .modify fun s ↦ { s with objects := s.objects.put objectKey content }
  pure (p.publicUrlFor objectKey)

/-- The prefix that `cleanup_storage` deletes. -/
def Cleanup.prefixKey (cleanup : Cleanup) : String :=
  "tenants/" ++ cleanup.tenantId ++ "/chess-videos/" ++ toString cleanup.jobId

/-- The objects that `cleanup_storage` deletes: the two of the job and everything below its prefix. -/
def Cleanup.removes (cleanup : Cleanup) (objectKey : String) : Bool :=
  cleanup.videoKey = some objectKey || cleanup.thumbKey = some objectKey ||
    (cleanup.prefixKey ++ "/").toList.isPrefixOf objectKey.toList

def cleanupStorage (cleanup : Cleanup) : Video Unit :=
  .modify fun s ↦ { s with objects := s.objects.filter fun objectKey _ ↦ !cleanup.removes objectKey }

/-! ### The repository -/

def VideoState.getForTenant (s : VideoState) (tenantId : String) (jobId : ℕ) : Option ChessVideoJob :=
  (s.jobs.find jobId).filter fun job ↦ job.tenantId = tenantId

/-- `find_reusable_completed`: the latest completed job of the fingerprint that has a video URL. -/
def VideoState.findReusableCompleted (s : VideoState) (tenantId renderFingerprint : String) :
    Option (ℕ × ChessVideoJob) :=
  (s.jobs.entries.filter fun entry ↦
    entry.2.tenantId = tenantId ∧ entry.2.renderFingerprint = some renderFingerprint ∧
      entry.2.status = .completed ∧ entry.2.outputs.videoPublicUrl.isSome).argmax
    fun entry ↦ entry.2.completedAt.getD 0

def updateJob (jobId : ℕ) (f : ChessVideoJob → ChessVideoJob) : Video Unit :=
  .modify fun s ↦ { s with jobs := s.jobs.modify jobId f }

def ChessVideoJob.hasVideo (job : ChessVideoJob) : Bool :=
  (job.outputs.videoPublicUrl.filter (· ≠ "")).isSome

def copyCachedOutputs (p : Platform) (now : Time) (cached job : ChessVideoJob) : ChessVideoJob :=
  { job with
    status := .completed
    stage := .completed
    progress := 1
    outputs := { cached.outputs with
      rendererVersion := (cached.outputs.rendererVersion.filter (· ≠ "")).or (some p.rendererVersion) }
    completedAt := some now
    startedAt := job.startedAt.or (some now)
    errorMessage := none }

/-! ### Creating a job -/

/-- The fields of a catalog game that a request for it takes over. -/
structure CatalogGame where
  normalizedPgn : String
  famousTitle : Option String := none
  whitePlayer : Option String := none
  blackPlayer : Option String := none

structure ChessVideoCreateRequest where
  sourceText : Option String := none
  chessGameId : Option ℕ := none
  inputFormat : String := "auto"
  options : RenderOptions := {}

/-- `resolve_create_payload`, with the catalog's answer: the text, its format and the options. -/
def resolveCreatePayload (payload : ChessVideoCreateRequest) (catalogGame : Option CatalogGame) :
    Except PyException (String × String × RenderOptions) :=
  match payload.chessGameId with
  | none =>
    match payload.sourceText.filter (· ≠ "") with
    | none => .error (httpException 400 "Provide source_text or chess_game_id")
    | some text => .ok (text, payload.inputFormat, payload.options)
  | some _ =>
    match catalogGame with
    | none => .error (httpException 404 "Game not found")
    | some game =>
      let player (name : Option String) : String := (name.filter (· ≠ "")).getD "?"
      .ok (game.normalizedPgn, "pgn",
        { payload.options with
          title := payload.options.title.or game.famousTitle
          subtitle := payload.options.subtitle.or
            (some (player game.whitePlayer ++ " vs " ++ player game.blackPlayer)) })

/-- The checks of `create_video_job`: the game that is parsed. -/
def validateRequest (p : Platform) (text inputFormat : String) (options : RenderOptions) :
    Except PyException ParsedChessGame :=
  match p.parseChessInput text inputFormat with
  | .error exc => .error (httpException 400 exc.message)
  | .ok game =>
    match p.getPreset options.renderPreset, p.getBoardTheme options.boardTheme with
    | .error exc, _ => .error (httpException 400 exc.message)
    | _, .error exc => .error (httpException 400 exc.message)
    | .ok _, .ok _ => .ok game

/-- `create_video_job`: the id of the new job. -/
def createVideoJob (p : Platform) (tenantId : String) (userId : Option String)
    (payload : ChessVideoCreateRequest) (catalogGame : Option CatalogGame) (now : Time) : Video ℕ := do
  let (text, inputFormat, options) ← .readOr fun _ ↦ resolveCreatePayload payload catalogGame
  let game ← .readOr fun _ ↦ validateRequest p text inputFormat options
  let fingerprint := p.computeRenderFingerprint game options
  let cached ← .read fun s : VideoState ↦ s.findReusableCompleted tenantId fingerprint
  let jobId ← .read VideoState.nextJobId
  let job : ChessVideoJob :=
    { tenantId
      createdByUserId := userId
      sourceText := text
      chessGameId := payload.chessGameId
      game
      options
      renderFingerprint := some fingerprint
      outputs := { rendererVersion := some p.rendererVersion } }
  .modify fun s ↦
    { s with
      nextJobId := s.nextJobId + 1
      jobs := s.jobs.insertNew jobId <|
        match cached.filter fun entry ↦ entry.2.hasVideo with
        | some entry => copyCachedOutputs p now entry.2 job
        | none => job }
  pure jobId

/-! ### Rendering a job -/

/-- `EncodedVideo`, with the contents of the two files. -/
structure EncodedVideo where
  video : String
  thumbnail : String
  durationSeconds : ℚ
  width : ℕ
  height : ℕ
  fileSizeBytes : ℕ

/-- How a render goes: the clock, the renderer, and the exceptions of the two uploads. -/
structure RenderAnswers where
  startedAt : Time
  completedAt : Time
  render : Except PyException EncodedVideo
  videoUpload : Option PyException := none
  thumbnailUpload : Option PyException := none

def setProgress (jobId : ℕ) (stage : ChessVideoJobStatus) (progress : ℚ) : Video Unit :=
  updateJob jobId fun job ↦ { job with status := stage, stage, progress }

def videoKey (tenantId : String) (jobId : ℕ) : String :=
  "tenants/" ++ tenantId ++ "/chess-videos/" ++ toString jobId ++ "/video.mp4"

def thumbKey (tenantId : String) (jobId : ℕ) : String :=
  "tenants/" ++ tenantId ++ "/chess-videos/" ++ toString jobId ++ "/thumbnail.png"

def ChessVideoJob.complete (p : Platform) (tenantId : String) (jobId : ℕ) (encoded : EncodedVideo)
    (videoUrl thumbUrl : String) (now : Time) (job : ChessVideoJob) : ChessVideoJob :=
  { job with
    outputs :=
      { videoStorageKey := some (videoKey tenantId jobId)
        videoPublicUrl := some videoUrl
        thumbnailStorageKey := some (thumbKey tenantId jobId)
        thumbnailPublicUrl := some thumbUrl
        durationSeconds := some encoded.durationSeconds
        width := some encoded.width
        height := some encoded.height
        fileSizeBytes := some encoded.fileSizeBytes
        rendererVersion := some p.rendererVersion }
    status := .completed
    stage := .completed
    progress := 1
    completedAt := some now
    errorMessage := none }

def tryUpload (p : Platform) (failure : Option PyException) (objectKey content : String) : Video String :=
  match failure with
  | some exc => .raise exc
  | none => uploadFile p objectKey content

/-- The `try` block of `process_job`. -/
def renderAndUpload (p : Platform) (tenantId : String) (jobId : ℕ) (job : ChessVideoJob)
    (answers : RenderAnswers) : Video Unit := do
  updateJob jobId fun job ↦ { job with startedAt := job.startedAt.or (some answers.startedAt) }
  setProgress jobId .validating (1 / 10)
  let game ← .readOr fun _ ↦ p.parseChessInput job.sourceText job.game.inputFormat
  updateJob jobId fun job ↦ { job with game }
  setProgress jobId .preparing (1 / 5)
  setProgress jobId .rendering (2 / 5)
  let encoded ← .readOr fun _ ↦ answers.render
  setProgress jobId .encoding (17 / 20)
  setProgress jobId .uploading (23 / 25)
  let videoUrl ← tryUpload p answers.videoUpload (videoKey tenantId jobId) encoded.video
  let thumbUrl ← tryUpload p answers.thumbnailUpload (thumbKey tenantId jobId) encoded.thumbnail
  updateJob jobId (ChessVideoJob.complete p tenantId jobId encoded videoUrl thumbUrl answers.completedAt)

/-- The `except` block of `process_job`. -/
def failJob (jobId : ℕ) (exc : PyException) : Video Unit := do
  updateJob jobId fun job ↦
    { job with
      status := .failed
      stage := .failed
      errorMessage := some (pyTake 2000 exc.message) }
  .raise exc

/-- The completed job whose outputs `process_job` takes over instead of rendering. -/
def VideoState.reusableFor (s : VideoState) (tenantId : String) (jobId : ℕ) (job : ChessVideoJob) :
    Option (ℕ × ChessVideoJob) :=
  (job.renderFingerprint.filter (· ≠ "")).bind fun fingerprint ↦
    (s.findReusableCompleted tenantId fingerprint).filter fun entry ↦ entry.1 ≠ jobId ∧ entry.2.hasVideo

def processJob (p : Platform) (tenantId : String) (jobId : ℕ) (answers : RenderAnswers) : Video Unit := do
  let job ← .readOr fun s : VideoState ↦
    ((s.getForTenant tenantId jobId).map Except.ok).getD
      (.error { className := "ValueError", message := "Chess video job not found for tenant" })
  if job.status = .completed ∧ job.hasVideo then pure ()
  else do
    match ← .read fun s : VideoState ↦ s.reusableFor tenantId jobId job with
    | some entry => updateJob jobId (copyCachedOutputs p answers.startedAt entry.2)
    | none => .tryCatch (renderAndUpload p tenantId jobId job answers) (failJob jobId)

/-! ### Retrying and deleting a job -/

/-- `get`. -/
def getJob (tenantId : String) (jobId : ℕ) : Video ChessVideoJob :=
  .readOr fun s ↦
    ((s.getForTenant tenantId jobId).map Except.ok).getD
      (.error (httpException 404 "Chess video job not found"))

/-- `retry`. -/
def retryJob (tenantId : String) (jobId : ℕ) : Video Unit := do
  let job ← getJob tenantId jobId
  if job.status = .failed ∨ job.status = .cancelled then
    updateJob jobId fun job ↦
      { job with
        status := .queued
        stage := .queued
        progress := 0
        errorMessage := none
        startedAt := none
        completedAt := none }
  else .raise (httpException 409 "Only failed or cancelled jobs can be retried")

/-- `delete`, with the commit of its route: the cleanup is left to be done. -/
def deleteJob (tenantId : String) (jobId : ℕ) : Video Unit := do
  let job ← getJob tenantId jobId
  .modify fun s ↦
    { s with
      jobs := s.jobs.filter fun id _ ↦ id ≠ jobId
      cleanups := s.cleanups ++
        [{ tenantId, jobId, videoKey := job.outputs.videoStorageKey,
           thumbKey := job.outputs.thumbnailStorageKey }] }

/-! ### Operations -/

/-- What can happen: the four operations on a job, and the cleanup that is at an index of those to be done. -/
inductive VideoOp
  | create (tenantId : String) (userId : Option String) (payload : ChessVideoCreateRequest)
      (catalogGame : Option CatalogGame) (now : Time)
  | process (tenantId : String) (jobId : ℕ) (answers : RenderAnswers)
  | retry (tenantId : String) (jobId : ℕ)
  | delete (tenantId : String) (jobId : ℕ)
  | cleanup (index : ℕ)

def VideoOp.apply (p : Platform) (s : VideoState) : VideoOp → VideoState
  | .create tenantId userId payload catalogGame now =>
    (createVideoJob p tenantId userId payload catalogGame now).final s
  | .process tenantId jobId answers => (processJob p tenantId jobId answers).final s
  | .retry tenantId jobId => (retryJob tenantId jobId).final s
  | .delete tenantId jobId => (deleteJob tenantId jobId).final s
  | .cleanup index =>
    match s.cleanups[index]? with
    | none => s
    | some pending =>
      { (cleanupStorage pending).final s with cleanups := s.cleanups.eraseIdx index }

end ContentGenerator.ChessVideo

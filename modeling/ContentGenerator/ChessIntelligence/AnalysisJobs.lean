import ContentGenerator.ChessIntelligence.Dedupe

/-!
# Analysis jobs

`enqueue` and `process_job` of `ChessAnalysisService` over the table of jobs, its partial unique index and the
rows of analysed positions. Both run in one transaction: what it has read stays as it was read, its writes are
checked and applied against the table as it is then, and an `IntegrityError` that nobody catches undoes all of
them. Transactions that write a row or an entry of the index wait for one another.

A caller of `enqueue` commits and then sends a message when it is told to, which can be delivered at any time
and any number of times. Ids stand for UUIDs, the settings and their fingerprint for text, and the rows of
moments, tactics and scores are left out: they have no unique key.
-/

namespace ContentGenerator.ChessIntelligence

open Lib

/-! ### Rows and constraints -/

inductive ChessAnalysisJobStatus
  | queued | running | completed | failed | cancelled
  deriving DecidableEq

/-- `_ACTIVE_STATUSES`, and the condition of the partial unique index. -/
def activeStatuses : List ChessAnalysisJobStatus := [.queued, .running, .completed]

structure ChessAnalysisJob where
  tenantId : String
  chessGameId : ℕ
  status : ChessAnalysisJobStatus := .queued
  errorMessage : Option String := none
  analysisFingerprint : String
  plyCount : ℕ := 0
  deriving DecidableEq

/-- Two rows have the same key in the index `uq_chess_analysis_jobs_tenant_fingerprint_active`. -/
def ChessAnalysisJob.SameKey (job other : ChessAnalysisJob) : Prop :=
  job.tenantId = other.tenantId ∧ job.analysisFingerprint = other.analysisFingerprint

instance (job other : ChessAnalysisJob) : Decidable (job.SameKey other) :=
  inferInstanceAs (Decidable (_ ∧ _))

/-- The jobs, and the `(analysis_job_id, ply)` pairs of the rows of `ChessPositionAnalysis`. -/
structure AnalysisDb where
  jobs : KeyedTable ℕ ChessAnalysisJob := ⟨[], List.nodup_nil⟩
  positions : List (ℕ × ℕ) := []

namespace AnalysisDb

/-- Another active row has the key that the row is to have. -/
def Conflicts (db : AnalysisDb) (id : ℕ) (job : ChessAnalysisJob) : Prop :=
  ∃ entry ∈ db.jobs.entries, entry.1 ≠ id ∧ entry.2.status ∈ activeStatuses ∧ entry.2.SameKey job

instance (db : AnalysisDb) (id : ℕ) (job : ChessAnalysisJob) : Decidable (db.Conflicts id job) :=
  inferInstanceAs (Decidable (∃ entry ∈ db.jobs.entries, _))

/-- `UPDATE` of one job; `none` is an error of the database. -/
def updateJob (db : AnalysisDb) (id : ℕ) (assign : ChessAnalysisJob → ChessAnalysisJob) : Option AnalysisDb :=
  match db.jobs.find id with
  | none => none
  | some job =>
    if (assign job).status ∈ activeStatuses ∧ db.Conflicts id (assign job) then none
    else some { db with jobs := db.jobs.modify id assign }

/-- `INSERT` of a job under the next id. -/
def insertJob (db : AnalysisDb) (job : ChessAnalysisJob) : Option AnalysisDb :=
  if job.status ∈ activeStatuses ∧ db.Conflicts db.jobs.nextKey job then none
  else some { db with jobs := db.jobs.insertNew db.jobs.nextKey job }

/-- `INSERT` of one row for each ply, under `uq_chess_position_analyses_job_ply`. -/
def insertPositions (db : AnalysisDb) (jobId moves : ℕ) : Option AnalysisDb :=
  if ∃ ply ∈ List.range' 1 moves, (jobId, ply) ∈ db.positions then none
  else some { db with positions := db.positions ++ (List.range' 1 moves).map fun ply ↦ (jobId, ply) }

/-- `_find_matching_job`; the jobs stand in the order of their creation. -/
def findMatchingJob (db : AnalysisDb) (tenantId analysisFingerprint : String) : Option (ℕ × ChessAnalysisJob) :=
  let identity := db.jobs.entries.filter fun entry ↦
    entry.2.tenantId = tenantId ∧ entry.2.analysisFingerprint = analysisFingerprint
  match (identity.filter fun entry ↦ entry.2.status ∈ activeStatuses).getLast? with
  | some hit => some hit
  | none => (identity.filter fun entry ↦ entry.2.status = .failed).getLast?

end AnalysisDb

/-! ### Enqueueing -/

/-- The games by id (no column that is read here changes), `parse_chess_input` with the number of moves or the
text of its error, `compute_analysis_fingerprint` of the fingerprint of a game and of the settings, and whether
an engine is configured. -/
structure AnalysisEnv where
  games : ℕ → Option ChessGame
  parseChessInput : String → Except String ℕ
  computeAnalysisFingerprint : String → String → String
  engineConfigured : Bool

/-- `ChessCatalogQuery.get_game`; `deleted` is whether `deleted_at` is set when it reads. -/
def AnalysisEnv.getGame (env : AnalysisEnv) (tenantId : String) (gameId : ℕ) (deleted : Bool) : Option ChessGame :=
  (env.games gameId).filter fun game ↦ game.tenantId = tenantId ∧ ¬ deleted

/-- `HTTPException`. -/
structure AnalysisHttpError where
  statusCode : ℕ
  detail : String

/-- The ways a call of `enqueue` raises. -/
inductive EnqueueError
  | http (error : AnalysisHttpError)
  | integrity

/-- The arguments of `enqueue`, with what `get_game` sees of `deleted_at`. -/
structure EnqueueRequest where
  tenantId : String
  gameId : ℕ
  settings : String := ""
  force : Bool := false
  gameDeleted : Bool := false

structure AnalysisEnqueueOutcome where
  jobId : ℕ
  reused : Bool
  shouldDispatch : Bool
  deriving DecidableEq

/-- `enqueue` up to the job that it finds. -/
def enqueueFinds (env : AnalysisEnv) (db : AnalysisDb) (request : EnqueueRequest) :
    Except AnalysisHttpError (ChessGame × Option (ℕ × ChessAnalysisJob)) :=
  match env.getGame request.tenantId request.gameId request.gameDeleted with
  | none => .error ⟨404, "Game not found"⟩
  | some game =>
    if env.engineConfigured then
      .ok (game, db.findMatchingJob request.tenantId
        (env.computeAnalysisFingerprint game.gameFingerprint request.settings))
    else .error ⟨503, "Stockfish is not configured (set STOCKFISH_PATH)"⟩

def reclaimFailedJob (db : AnalysisDb) (id : ℕ) (tenantId analysisFingerprint : String) :
    Except EnqueueError (AnalysisEnqueueOutcome × AnalysisDb) :=
  if (db.jobs.find id).any fun job ↦ job.status = .failed then
    match db.updateJob id fun job ↦ { job with status := .queued, errorMessage := none } with
    | some db' => .ok (⟨id, true, true⟩, db')
    | none => .error .integrity
  else
    match db.findMatchingJob tenantId analysisFingerprint with
    | some raced => .ok (⟨raced.1, true, false⟩, db)
    | none => .error (.http ⟨409, "Analysis reclaim race lost"⟩)

def insertQueuedJob (db : AnalysisDb) (job : ChessAnalysisJob) :
    Except EnqueueError (AnalysisEnqueueOutcome × AnalysisDb) :=
  match db.insertJob job with
  | some db' => .ok (⟨db.jobs.nextKey, false, true⟩, db')
  | none =>
    match db.findMatchingJob job.tenantId job.analysisFingerprint with
    | some raced => .ok (⟨raced.1, true, false⟩, db)
    | none => .error .integrity

/-- The row that `_insert_queued_job` inserts. -/
def queuedJob (env : AnalysisEnv) (request : EnqueueRequest) (game : ChessGame) : ChessAnalysisJob where
  tenantId := request.tenantId
  chessGameId := request.gameId
  status := .queued
  analysisFingerprint := env.computeAnalysisFingerprint game.gameFingerprint request.settings
  plyCount := game.moveCount

/-- `enqueue` from the job that it has found. -/
def enqueueWrites (env : AnalysisEnv) (db : AnalysisDb) (request : EnqueueRequest) (game : ChessGame)
    (existing : Option (ℕ × ChessAnalysisJob)) : Except EnqueueError (AnalysisEnqueueOutcome × AnalysisDb) :=
  let job := queuedJob env request game
  match existing with
  | none => insertQueuedJob db job
  | some (id, found) =>
    if found.status ∈ activeStatuses then
      if request.force then
        match db.updateJob id fun row ↦
          { row with status := .cancelled, errorMessage := some "superseded by force=true reanalysis" } with
        | some db' => insertQueuedJob db' job
        | none => .error .integrity
      else .ok (⟨id, true, false⟩, db)
    else if found.status = .failed ∧ ¬ request.force then
      reclaimFailedJob db id request.tenantId job.analysisFingerprint
    else insertQueuedJob db job

/-! ### Processing -/

/-- How the engine and `persist_analysis_results` go: the engine cannot be opened, something raises before or
after the rows of the positions are added, or nothing does. -/
inductive EngineRun
  | configError (message : String)
  | raises (message : String)
  | persistRaises (message : String)
  | analysed
  deriving DecidableEq

/-- An assignment to a column of a loaded row; it is written only when the loaded value changes. -/
def assign {α : Type} [DecidableEq α] (loaded new current : α) : α := if loaded = new then current else new

/-- `job.status = FAILED` with a message, of a job whose status is RUNNING in the session. -/
def AnalysisDb.failJob (db : AnalysisDb) (jobId : ℕ) (loaded : ChessAnalysisJob) (message : String) :
    Option AnalysisDb :=
  db.updateJob jobId fun row ↦
    { row with status := .failed, errorMessage := assign loaded.errorMessage (some message) row.errorMessage }

/-- `str(exc)[:2000]`. -/
def truncated (message : String) : String := String.ofList (message.toList.take 2000)

/-- `process_job` from the job that it has loaded; `none` is an `IntegrityError`. -/
def processWrites (env : AnalysisEnv) (db : AnalysisDb) (tenantId : String) (jobId : ℕ) (loaded : ChessAnalysisJob)
    (gameDeleted : Bool) (run : EngineRun) : Option AnalysisDb :=
  match env.getGame tenantId loaded.chessGameId gameDeleted with
  | none =>
    db.updateJob jobId fun row ↦
      { row with
        status := assign loaded.status .failed row.status
        errorMessage := assign loaded.errorMessage (some "Game not found") row.errorMessage }
  | some game =>
    (db.updateJob jobId fun row ↦ { row with status := assign loaded.status .running row.status }).bind fun db ↦
      match env.parseChessInput game.normalizedPgn with
      | .error message => db.failJob jobId loaded message
      | .ok moves =>
        match run with
        | .configError message => db.failJob jobId loaded message
        | .raises message => db.failJob jobId loaded (truncated message)
        | .persistRaises message =>
          (db.insertPositions jobId moves).bind fun db ↦ db.failJob jobId loaded (truncated message)
        | .analysed =>
          (db.insertPositions jobId moves).bind fun db ↦ db.updateJob jobId fun row ↦
            { row with
              status := .completed
              errorMessage := assign loaded.errorMessage none row.errorMessage
              plyCount := moves }

/-! ### Transactions beside each other -/

/-- What a transaction under way has read. -/
inductive AnalysisCall
  | enqueuing (request : EnqueueRequest) (game : ChessGame) (existing : Option (ℕ × ChessAnalysisJob))
  | processing (tenantId : String) (jobId : ℕ) (loaded : ChessAnalysisJob)

/-- The committed rows, the transactions under way, and the messages that have been sent, the last one first. -/
structure AnalysisSystem where
  db : AnalysisDb := {}
  call : ℕ → Option AnalysisCall := fun _ ↦ none
  dispatched : List ℕ := []

/-- A call of `enqueue` reads, it writes and commits, a message is delivered and its job loaded, the job is
processed and the transaction committed, or a transaction is rolled back. -/
inductive AnalysisEvent
  | enqueueReads (call : ℕ) (request : EnqueueRequest)
  | enqueueCommits (call : ℕ)
  | delivers (call : ℕ) (tenantId : String) (jobId : ℕ)
  | finishes (call : ℕ) (gameDeleted : Bool) (run : EngineRun)
  | aborts (call : ℕ)

namespace AnalysisSystem

def reads (s : AnalysisSystem) (call : ℕ) (read : AnalysisCall) : AnalysisSystem :=
  { s with call := Function.update s.call call (some read) }

def ends (s : AnalysisSystem) (call : ℕ) : AnalysisSystem :=
  { s with call := Function.update s.call call none }

/-- The end of a call of `enqueue`: the commit, and the message when the caller is told to send it. -/
def enqueued (s : AnalysisSystem) (call : ℕ) (outcome : AnalysisEnqueueOutcome) (db : AnalysisDb) : AnalysisSystem :=
  { s.ends call with
    db := db
    dispatched := if outcome.shouldDispatch then outcome.jobId :: s.dispatched else s.dispatched }

/-- An event; nothing happens when the transaction it is about is not at this point. -/
def step (env : AnalysisEnv) (s : AnalysisSystem) : AnalysisEvent → AnalysisSystem
  | .enqueueReads call request =>
    match enqueueFinds env s.db request with
    | .error _ => s
    | .ok (game, existing) => s.reads call (.enqueuing request game existing)
  | .enqueueCommits call =>
    match s.call call with
    | some (.enqueuing request game existing) =>
      match enqueueWrites env s.db request game existing with
      | .error _ => s.ends call
      | .ok (outcome, db) => s.enqueued call outcome db
    | _ => s
  | .delivers call tenantId jobId =>
    match (s.db.jobs.find jobId).filter fun job ↦ job.tenantId = tenantId with
    | none => s
    | some job => s.reads call (.processing tenantId jobId job)
  | .finishes call gameDeleted run =>
    match s.call call with
    | some (.processing tenantId jobId loaded) =>
      match processWrites env s.db tenantId jobId loaded gameDeleted run with
      | none => s.ends call
      | some db => { s.ends call with db := db }
    | _ => s
  | .aborts call => s.ends call

end AnalysisSystem

end ContentGenerator.ChessIntelligence

import ContentGenerator.Lib.Action
import ContentGenerator.Lib.KeyedTable
import ContentGenerator.Workflows.Nodes

/-!
# Sources, fetch runs and raw articles

The rows of the ingestion module, what a connector hands over, and the answers that one run of the workflow
gets from outside: the clock, the network, the cache and the enrichment that follows. Ids stand for UUIDs,
and a table holds its rows in the order of their creation.

The trust score of a source, audit rows, stage timings and metrics are left out: nothing here reads them.
-/

namespace ContentGenerator.SourceIngestion

open Lib Workflows

/-! ### Rows -/

abbrev Time := ℕ

/-- `timedelta(minutes=count)`. -/
def minutes (count : ℕ) : Time := count * 60000000

inductive CircuitState
  | closed | opened | halfOpen
  deriving DecidableEq

inductive FetchRunStatus
  | queued | running | success | partialFetch | failed
  deriving DecidableEq

def FetchRunStatus.value : FetchRunStatus → String
  | .queued => "queued"
  | .running => "running"
  | .success => "success"
  | .partialFetch => "partial"
  | .failed => "failed"

/-- The statuses `get_open_fetch_run` looks for. -/
def FetchRunStatus.isOpen (status : FetchRunStatus) : Bool := status ∈ [.queued, .running]

structure Source where
  tenantId : String
  name : String
  languageTags : List String := []
  sourceTier : String := "signal"
  contentVertical : String := "general"
  pollingIntervalMinutes : ℤ := 30
  active : Bool := true
  failureCount : ℕ := 0
  successCount : ℕ := 0
  circuitState : CircuitState := .closed
  negativeCacheUntil : Option Time := none
  lastPolledAt : Option Time := none
  nextPollAt : Option Time := none
  lastSuccessAt : Option Time := none
  disabledReason : Option String := none
  lastError : Option String := none
  deletedAt : Option Time := none

structure SourceFetchRun where
  tenantId : String
  sourceId : ℕ
  status : FetchRunStatus := .queued
  startedAt : Option Time := none
  finishedAt : Option Time := none
  articlesFound : ℕ := 0
  newArticles : ℕ := 0
  responseCacheHit : Bool := false
  errorMessage : Option String := none
  fetchMetadata : JsonObject := []

structure RawArticle where
  tenantId : String
  sourceId : ℕ
  fetchRunId : Option ℕ
  url : String
  canonicalUrl : String
  dedupeKey : Option String
  titleNormalized : Option String
  contentHash : String
  title : String
  summary : Option String
  body : Option String
  author : Option String
  language : Option String
  publishedAt : Option Time
  sourceMetadata : JsonObject
  createdAt : Time
  deletedAt : Option Time := none

structure SourceHealthEvent where
  tenantId : String
  sourceId : ℕ
  fetchRunId : ℕ
  status : String
  eventType : String
  message : String
  details : JsonObject

structure Database where
  sources : KeyedTable ℕ Source := ⟨[], List.nodup_nil⟩
  fetchRuns : KeyedTable ℕ SourceFetchRun := ⟨[], List.nodup_nil⟩
  rawArticles : KeyedTable ℕ RawArticle := ⟨[], List.nodup_nil⟩
  healthEvents : List SourceHealthEvent := []

abbrev Ingestion (α : Type) := Action Database PyException α

/-! ### Connectors -/

structure FetchedArticle where
  url : String
  canonicalUrl : String
  title : String
  summary : Option String := none
  body : Option String := none
  author : Option String := none
  publishedAt : Option Time := none
  metadata : JsonObject := []
  language : Option String := none
  categoryTags : List String := []
  regionTags : List String := []
  rawPayload : JsonObject := []
  externalId : Option String := none
  parserDiagnostics : JsonObject := []

/-- What a `BaseSourceAdapter` says without the network. -/
structure SourceAdapter where
  connectorName : String
  rateLimitPolicy : Json
  sourceMetadata : Json
  dedupeKey : FetchedArticle → String

/-- What the workflow calls: the connector of a source, the text functions of the de-duplication, the check
of the database on a row it is given, and the settings. -/
structure Platform where
  getSourceAdapter : ℕ → Source → SourceAdapter
  normalizeTitle : String → String
  contentHash : FetchedArticle → String
  tokenizeForSimilarity : String → List String
  storable : RawArticle → Bool
  disableAfterFailures : ℤ

/-- An exception of a connector; a `RetryError` carries the exception of its last attempt. -/
structure FetchError where
  exc : PyException
  lastAttempt : Option PyException := none

def describeFetchError (error : FetchError) : String := (error.lastAttempt.getD error.exc).message

/-- One call of `run_ingestion_workflow`: its arguments, and what it is told from outside. The cache is asked
when the circuit is open and after a failed fetch. -/
structure IngestionCall where
  tenantId : String
  sourceId : ℕ
  fetchRunId : Option ℕ := none
  celeryTaskId : Option String := none
  correlationId : Option String := none
  preparedAt : Time
  persistedAt : Time
  finishedAt : Time
  openCircuitCache : Except PyException (List FetchedArticle) := .ok []
  fetch : Except FetchError (List FetchedArticle × JsonObject)
  staleCache : Except PyException (List FetchedArticle) := .ok []
  enrich : List ℕ → Except PyException (List ℕ) := fun _ ↦ .ok []

structure IngestionTriggerResponse where
  sourceId : ℕ
  status : String
  rawArticlesIngested : ℕ
  clustersUpdated : ℕ
  fetchRunId : Option ℕ := none
  taskId : Option String := none

structure PreparedIngestion where
  tenantId : String
  sourceId : ℕ
  fetchRunId : ℕ
  source : Source
  celeryTaskId : Option String := none
  correlationId : Option String := none

/-! ### The repository -/

namespace Database

def getSource (db : Database) (tenantId : String) (sourceId : ℕ) : Option Source :=
  (db.sources.find sourceId).filter fun source ↦ source.tenantId = tenantId ∧ source.deletedAt = none

def getFetchRun (db : Database) (tenantId : String) (sourceId fetchRunId : ℕ) : Option SourceFetchRun :=
  (db.fetchRuns.find fetchRunId).filter fun run ↦ run.tenantId = tenantId ∧ run.sourceId = sourceId

/-- `get_open_fetch_run`: the latest queued or running run. -/
def getOpenFetchRun (db : Database) (tenantId : String) (sourceId : ℕ) : Option (ℕ × SourceFetchRun) :=
  db.fetchRuns.entries.reverse.find? fun entry ↦
    entry.2.tenantId = tenantId ∧ entry.2.sourceId = sourceId ∧ entry.2.status.isOpen

def createFetchRun (db : Database) (run : SourceFetchRun) : Database :=
  { db with fetchRuns := db.fetchRuns.insertNew db.fetchRuns.nextKey run }

def updateFetchRun (db : Database) (fetchRunId : ℕ) (f : SourceFetchRun → SourceFetchRun) : Database :=
  { db with fetchRuns := db.fetchRuns.modify fetchRunId f }

def updateSource (db : Database) (sourceId : ℕ) (f : Source → Source) : Database :=
  { db with sources := db.sources.modify sourceId f }

def createHealthEvent (db : Database) (event : SourceHealthEvent) : Database :=
  { db with healthEvents := db.healthEvents ++ [event] }

variable (db : Database) (id : ℕ) (run : SourceFetchRun) (event : SourceHealthEvent)

@[simp] theorem sources_createFetchRun : (db.createFetchRun run).sources = db.sources := rfl

@[simp] theorem sources_updateFetchRun (f : SourceFetchRun → SourceFetchRun) :
    (db.updateFetchRun id f).sources = db.sources := rfl

@[simp] theorem sources_createHealthEvent : (db.createHealthEvent event).sources = db.sources := rfl

@[simp] theorem sources_updateSource (f : Source → Source) :
    (db.updateSource id f).sources = db.sources.modify id f := rfl

@[simp] theorem fetchRuns_updateSource (f : Source → Source) :
    (db.updateSource id f).fetchRuns = db.fetchRuns := rfl

@[simp] theorem fetchRuns_createHealthEvent : (db.createHealthEvent event).fetchRuns = db.fetchRuns := rfl

@[simp] theorem fetchRuns_updateFetchRun (f : SourceFetchRun → SourceFetchRun) :
    (db.updateFetchRun id f).fetchRuns = db.fetchRuns.modify id f := rfl

theorem getFetchRun_eq_some_iff {db : Database} {tenantId : String} {sourceId fetchRunId : ℕ}
    {run : SourceFetchRun} :
    db.getFetchRun tenantId sourceId fetchRunId = some run ↔
      db.fetchRuns.find fetchRunId = some run ∧ run.tenantId = tenantId ∧ run.sourceId = sourceId := by
  simp [getFetchRun, Option.filter_eq_some_iff]

end Database

end ContentGenerator.SourceIngestion

import ContentGenerator.SourceIngestion.Models

/-!
# The ingestion workflow

`run_ingestion_workflow` in its phases: a transaction claims the fetch run, the network is asked without a
transaction, a second transaction stores the articles or the failure, and the enrichment follows after the
commit. `session_scope` is `atomically`: it commits when its block returns and rolls back when it raises.
-/

namespace ContentGenerator.SourceIngestion

open Lib Lib.Action Workflows

/-! ### The trace of a run -/

def given (text : Option String) : Option String := text.filter (· ≠ "")

def metaStr (metadata : JsonObject) (key : String) : Option String :=
  match metadata.get key with
  | some (.str value) => given (some value)
  | _ => none

def stampTaskId (celeryTaskId : Option String) (response : IngestionTriggerResponse) :
    IngestionTriggerResponse :=
  if (given celeryTaskId).isSome ∧ given response.taskId = none then { response with taskId := celeryTaskId }
  else response

def setGiven (metadata : JsonObject) (key : String) (text : Option String) : JsonObject :=
  match given text with
  | some value => metadata.set key (.str value)
  | none => metadata

def mergeTraceMetadata (existing extra : JsonObject) (celeryTaskId correlationId : Option String) :
    JsonObject :=
  setGiven (setGiven (existing.update extra) "celery_task_id" celeryTaskId) "correlation_id"
    correlationId

/-! ### Claiming a run -/

def Source.circuitOpenAt (source : Source) (now : Time) : Bool :=
  decide (source.circuitState = .opened) && source.negativeCacheUntil.any fun pauseEnd ↦ now < pauseEnd

def SourceAdapter.claimMetadata (adapter : SourceAdapter) : JsonObject :=
  [("connector", .str adapter.connectorName), ("rate_limit_policy", adapter.rateLimitPolicy),
    ("source_metadata", adapter.sourceMetadata)]

def createdRun (p : Platform) (call : IngestionCall) (source : Source) : SourceFetchRun :=
  { tenantId := call.tenantId
    sourceId := call.sourceId
    status := .running
    startedAt := some call.preparedAt
    fetchMetadata := mergeTraceMetadata [] ((p.getSourceAdapter call.sourceId source).claimMetadata ++
        [("trigger", .str (if (given call.celeryTaskId).isSome then "scheduler" else "direct"))])
      call.celeryTaskId call.correlationId }

def claimedRun (p : Platform) (call : IngestionCall) (source : Source) (run : SourceFetchRun) :
    SourceFetchRun :=
  { run with
    status := .running
    startedAt := some call.preparedAt
    fetchMetadata := mergeTraceMetadata run.fetchMetadata
      (p.getSourceAdapter call.sourceId source).claimMetadata
      ((given call.celeryTaskId).or (metaStr run.fetchMetadata "celery_task_id"))
      ((given call.correlationId).or (metaStr run.fetchMetadata "correlation_id")) }

/-- The answer to a call whose run is not queued any more. -/
def alreadyResponse (call : IngestionCall) (id : ℕ) (run : SourceFetchRun) : IngestionTriggerResponse :=
  { sourceId := call.sourceId
    status := "already_" ++ run.status.value
    rawArticlesIngested := run.newArticles
    clustersUpdated := 0
    fetchRunId := some id
    taskId := (given call.celeryTaskId).or (metaStr run.fetchMetadata "celery_task_id") }

def openCircuitResponse (call : IngestionCall) (run : Option SourceFetchRun) (cached : List FetchedArticle) :
    IngestionTriggerResponse :=
  { sourceId := call.sourceId
    status := if cached = [] then "circuit_open" else "circuit_open_using_cache"
    rawArticlesIngested := 0
    clustersUpdated := 0
    fetchRunId := run.bind fun _ ↦ call.fetchRunId
    taskId := (given call.celeryTaskId).or (run.bind fun run ↦ metaStr run.fetchMetadata "celery_task_id") }

def claimRun (p : Platform) (call : IngestionCall) (source : Source) (run : Option SourceFetchRun) :
    Ingestion (PreparedIngestion ⊕ IngestionTriggerResponse) := do
  let newId ← .read fun db : Database ↦ db.fetchRuns.nextKey
  let id := (run.bind fun _ ↦ call.fetchRunId).getD newId
  .modify fun db ↦ match run with
    | none => db.createFetchRun (createdRun p call source)
    | some _ => db.updateFetchRun id (claimedRun p call source)
  pure (.inl
    { tenantId := call.tenantId
      sourceId := call.sourceId
      fetchRunId := id
      source
      celeryTaskId := (given call.celeryTaskId).or
        (run.bind fun run ↦ metaStr run.fetchMetadata "celery_task_id")
      correlationId := (given call.correlationId).or
        (run.bind fun run ↦ metaStr run.fetchMetadata "correlation_id") })

/-- `prepare_ingestion` for a source and a run that is queued, if the call has one. -/
def prepareSource (p : Platform) (call : IngestionCall) (source : Source) (run : Option SourceFetchRun) :
    Ingestion (PreparedIngestion ⊕ IngestionTriggerResponse) :=
  if source.circuitOpenAt call.preparedAt then do
    let cached ← .readOr fun _ ↦ call.openCircuitCache
    pure (.inr (openCircuitResponse call run cached))
  else claimRun p call source run

def prepareIngestion (p : Platform) (call : IngestionCall) :
    Ingestion (PreparedIngestion ⊕ IngestionTriggerResponse) :=
  .atomically do
    let source ← .readOr fun db : Database ↦
      ((db.getSource call.tenantId call.sourceId).map Except.ok).getD
        (.error (httpException 404 "Source not found"))
    match call.fetchRunId with
    | none => prepareSource p call source none
    | some id => do
      let run ← .readOr fun db : Database ↦
        ((db.getFetchRun call.tenantId call.sourceId id).map Except.ok).getD
          (.error (httpException 404 "Ingestion run not found"))
      if run.status ≠ .queued then pure (.inr (alreadyResponse call id run))
      else prepareSource p call source (some run)

/-! ### De-duplication -/

structure ArticleDedupeKeys where
  canonicalUrl : String
  contentHash : String
  dedupeKey : String
  titleNormalized : String

def dedupeKeys (p : Platform) (adapter : SourceAdapter) (article : FetchedArticle) : ArticleDedupeKeys :=
  { canonicalUrl := article.canonicalUrl
    contentHash := p.contentHash article
    dedupeKey := adapter.dedupeKey article
    titleNormalized := p.normalizeTitle article.title }

/-- The rows `find_existing_articles_batch` selects: those with a key of one of the candidates. -/
def existingRows (db : Database) (tenantId : String) (candidates : List ArticleDedupeKeys) :
    List RawArticle :=
  (db.rawArticles.entries.map Prod.snd).filter fun row ↦
    row.tenantId = tenantId ∧ row.deletedAt = none ∧ ∃ keys ∈ candidates,
      keys.contentHash ≠ "" ∧ row.contentHash = keys.contentHash ∨
      keys.canonicalUrl ≠ "" ∧ row.canonicalUrl = keys.canonicalUrl ∨
      keys.dedupeKey ≠ "" ∧ row.dedupeKey = some keys.dedupeKey ∨
      keys.titleNormalized ≠ "" ∧ row.titleNormalized = some keys.titleNormalized

/-- `_match_candidates_to_rows` at one candidate: by hash, URL, key and title, in this order. -/
def matchCandidate (rows : List RawArticle) (keys : ArticleDedupeKeys) : Option RawArticle :=
  (rows.find? fun row ↦ row.contentHash = keys.contentHash).or <|
    (rows.find? fun row ↦ row.canonicalUrl = keys.canonicalUrl).or <|
      (if keys.dedupeKey = "" then none
        else rows.find? fun row ↦ row.dedupeKey = some keys.dedupeKey).or
        (if keys.titleNormalized = "" then none
          else rows.find? fun row ↦ row.titleNormalized = some keys.titleNormalized)

/-- `list_recent_raw_articles`. -/
def recentRawArticles (db : Database) (tenantId : String) (now : Time) : List RawArticle :=
  ((db.rawArticles.entries.map Prod.snd).filter fun row ↦
    row.tenantId = tenantId ∧ row.deletedAt = none ∧ now ≤ row.createdAt + minutes 1440).reverse.take 200

def articleTokens (p : Platform) (title : String) (summary : Option String) : List String :=
  (p.tokenizeForSimilarity (title ++ " " ++ summary.getD "")).dedup

/-- `semantic_duplicate`: a recent article that shares 88 of 100 tokens. -/
def semanticDuplicate (p : Platform) (candidate : FetchedArticle) (recent : List RawArticle) :
    Option RawArticle :=
  let tokens := articleTokens p candidate.title candidate.summary
  if tokens = [] then none
  else recent.find? fun row ↦
    let other := articleTokens p row.title row.summary
    let overlap := (tokens.filter (· ∈ other)).length
    let all := (tokens ∪ other).length
    other ≠ [] ∧ 88 * all ≤ 100 * overlap

def rawArticle (p : Platform) (adapter : SourceAdapter) (source : Source) (sourceId fetchRunId : ℕ)
    (now : Time) (article : FetchedArticle) : RawArticle :=
  { tenantId := source.tenantId
    sourceId
    fetchRunId := some fetchRunId
    url := article.url
    canonicalUrl := article.canonicalUrl
    dedupeKey := some (adapter.dedupeKey article)
    titleNormalized := some (p.normalizeTitle article.title)
    contentHash := p.contentHash article
    title := article.title
    summary := article.summary
    body := article.body
    author := article.author
    language := (given article.language).or source.languageTags.head?
    publishedAt := article.publishedAt
    sourceMetadata :=
      let base := setGiven article.metadata "external_id" article.externalId
      JsonObject.update (JsonObject.update base
        [("category_tags", .str (",".intercalate article.categoryTags)),
          ("region_tags", .str (",".intercalate article.regionTags)),
          ("raw_payload_present", .str (if article.rawPayload = [] then "false" else "true"))])
        article.parserDiagnostics
    createdAt := now }

/-- The articles of a batch that no stored one stands for, as rows. -/
def pendingInserts (p : Platform) (source : Source) (sourceId fetchRunId : ℕ) (now : Time)
    (articles : List FetchedArticle) (db : Database) : List RawArticle :=
  let adapter := p.getSourceAdapter sourceId source
  let rows := existingRows db source.tenantId (articles.map (dedupeKeys p adapter))
  let recent := recentRawArticles db source.tenantId now
  (articles.filter fun article ↦
    (matchCandidate rows (dedupeKeys p adapter article)).isNone ∧
      (semanticDuplicate p article recent).isNone).map
    (rawArticle p adapter source sourceId fetchRunId now)

/-- A row under a new id, unless its tenant has its content hash already. -/
def insertConflictSafe (rows : KeyedTable ℕ RawArticle × List ℕ) (row : RawArticle) :
    KeyedTable ℕ RawArticle × List ℕ :=
  if rows.1.entries.any fun entry ↦ entry.2.tenantId = row.tenantId ∧ entry.2.contentHash = row.contentHash
  then rows
  else (rows.1.insertNew rows.1.nextKey row, rows.2 ++ [rows.1.nextKey])

/-- `insert_raw_articles_conflict_safe`: one statement, refused when the database cannot hold a row of it. -/
def insertRawArticlesConflictSafe (p : Platform) (articles : List RawArticle) : Ingestion (List ℕ) :=
  if articles.all p.storable then do
    let inserted ← .read fun db : Database ↦ articles.foldl insertConflictSafe (db.rawArticles, [])
    .modify fun db ↦ { db with rawArticles := inserted.1 }
    pure inserted.2
  else .raise { className := "DataError", message := "the database does not hold such a row" }

/-! ### Storing a result -/

def scheduleAfterPoll (polledAt : Time) (pollingIntervalMinutes : ℤ) : Time :=
  polledAt + minutes (max pollingIntervalMinutes 1).toNat

/-- The run when its articles are stored; the status of a failure stays. -/
def SourceFetchRun.finish (found inserted : ℕ) (now : Time) (run : SourceFetchRun) : SourceFetchRun :=
  { run with
    articlesFound := found
    newArticles := inserted
    finishedAt := some now
    status := if run.status = .running then .success else run.status }

def Source.recordPoll (polledAt : Time) (source : Source) : Source :=
  { source with
    lastPolledAt := some polledAt
    nextPollAt := some (scheduleAfterPoll polledAt source.pollingIntervalMinutes) }

def Source.recordSuccess (now : Time) (source : Source) : Source :=
  { source with
    lastSuccessAt := some now
    successCount := source.successCount + 1
    failureCount := 0
    circuitState := .closed
    negativeCacheUntil := none
    disabledReason := none
    lastError := none }

def persistSuccessBody (p : Platform) (source : Source) (sourceId fetchRunId : ℕ)
    (articles : List FetchedArticle) (liveFetchSucceeded : Bool) (polledAt now : Time) :
    Ingestion (IngestionTriggerResponse × List ℕ) := do
  let pending ← .read (pendingInserts p source sourceId fetchRunId now articles)
  let newIds ← insertRawArticlesConflictSafe p pending
  .modify fun db ↦ db.updateFetchRun fetchRunId (SourceFetchRun.finish articles.length newIds.length now)
  .modify fun db ↦ db.updateSource sourceId (Source.recordPoll polledAt)
  .modify fun db ↦
    if liveFetchSucceeded then
      (db.updateSource sourceId (Source.recordSuccess now)).createHealthEvent
        { tenantId := source.tenantId
          sourceId
          fetchRunId
          status := "healthy"
          eventType := "connector.fetch_succeeded"
          message := "Source polling succeeded"
          details := [("articles_found", .str (toString articles.length)),
            ("new_articles", .str (toString newIds.length))] }
    else db
  let status ← .read fun db : Database ↦
    ((db.fetchRuns.find fetchRunId).map fun run ↦ run.status.value).getD ""
  pure ({ sourceId, status, rawArticlesIngested := newIds.length, clustersUpdated := 0,
          fetchRunId := some fetchRunId }, newIds)

/-- The source and the run that `persist_fetch_success` and `persist_fetch_failure` load again. -/
def loadClaim (prepared : PreparedIngestion) : Ingestion (Source × SourceFetchRun) :=
  .readOr fun db ↦
    match db.getSource prepared.tenantId prepared.sourceId, db.fetchRuns.find prepared.fetchRunId with
    | some source, some run => .ok (source, run)
    | _, _ => .error (httpException 404 "Ingestion claim lost")

def enrichAfterPersist (call : IngestionCall) (response : IngestionTriggerResponse) (newIds : List ℕ) :
    Ingestion IngestionTriggerResponse :=
  if newIds = [] then pure response
  else do
    let clusterIds ← .readOr fun _ ↦ call.enrich newIds
    pure { response with clustersUpdated := clusterIds.dedup.length }

/-! ### A successful fetch -/

def recordHealthcheck (source : Source) (sourceId fetchRunId : ℕ) (health : JsonObject) (db : Database) :
    Database :=
  if health = [] then db
  else
    (db.updateFetchRun fetchRunId fun run ↦
      { run with fetchMetadata := run.fetchMetadata.set "healthcheck" (.obj health) }).createHealthEvent
      { tenantId := source.tenantId
        sourceId
        fetchRunId
        status := "healthy"
        eventType := "connector.healthcheck"
        message := "Connector healthcheck succeeded"
        details := health }

/-- The transaction of `persist_fetch_success`. -/
def storeSuccess (p : Platform) (call : IngestionCall) (prepared : PreparedIngestion)
    (articles : List FetchedArticle) (health : JsonObject) :
    Ingestion (IngestionTriggerResponse × List ℕ) :=
  .atomically do
    let (source, run) ← loadClaim prepared
    .modify (recordHealthcheck source prepared.sourceId prepared.fetchRunId health)
    persistSuccessBody p source prepared.sourceId prepared.fetchRunId articles true
      (run.startedAt.getD call.persistedAt) call.finishedAt

def persistFetchSuccess (p : Platform) (call : IngestionCall) (prepared : PreparedIngestion)
    (articles : List FetchedArticle) (health : JsonObject) : Ingestion IngestionTriggerResponse := do
  let (response, newIds) ← storeSuccess p call prepared articles health
  enrichAfterPersist call response newIds

/-! ### A failed fetch -/

def Source.recordFailure (disableAfterFailures : ℤ) (now : Time) (errorMessage : String) (source : Source) :
    Source :=
  let failureCount := source.failureCount + 1
  { source with
    failureCount
    active := if disableAfterFailures ≤ failureCount then false else source.active
    disabledReason :=
      if disableAfterFailures ≤ failureCount then
        some ("auto_disabled_after_" ++ toString failureCount ++ "_failures")
      else source.disabledReason
    circuitState := if 3 ≤ failureCount then .opened else .halfOpen
    negativeCacheUntil := some (now + minutes 15)
    lastError := some errorMessage }

def SourceFetchRun.fail (errorMessage : String) (run : SourceFetchRun) : SourceFetchRun :=
  { run with
    status := .failed
    errorMessage := some errorMessage
    fetchMetadata := run.fetchMetadata.set "exception" (.str errorMessage) }

def failureEvent (source : Source) (sourceId fetchRunId : ℕ) (errorMessage : String) : SourceHealthEvent :=
  { tenantId := source.tenantId
    sourceId
    fetchRunId
    status := "failed"
    eventType := "connector.fetch_failed"
    message := "Connector fetch failed"
    details := [("error", .str errorMessage)] }

/-- The health event of a failed fetch that the cache stands in for. -/
def fallbackEvent (source : Source) (sourceId fetchRunId : ℕ) (cached : List FetchedArticle) :
    SourceHealthEvent :=
  { tenantId := source.tenantId
    sourceId
    fetchRunId
    status := "partial"
    eventType := "connector.cache_fallback"
    message := "Used stale cache after connector failure"
    details := [("cached_articles", .str (toString cached.length))] }

def recordFetchFailure (p : Platform) (call : IngestionCall) (source : Source) (sourceId fetchRunId : ℕ)
    (errorMessage : String) (db : Database) : Database :=
  ((db.updateSource sourceId
      (Source.recordFailure p.disableAfterFailures call.persistedAt errorMessage)).updateFetchRun fetchRunId
    (SourceFetchRun.fail errorMessage)).createHealthEvent (failureEvent source sourceId fetchRunId errorMessage)

def recordCacheFallback (source : Source) (sourceId fetchRunId : ℕ) (cached : List FetchedArticle)
    (db : Database) : Database :=
  (db.updateFetchRun fetchRunId fun run ↦
    { run with responseCacheHit := true, status := .partialFetch }).createHealthEvent
    (fallbackEvent source sourceId fetchRunId cached)

/-- The cache after a failed fetch: its articles stand in, and without any the failure is raised. -/
def fallBack (p : Platform) (call : IngestionCall) (prepared : PreparedIngestion) (source : Source)
    (errorMessage : String) (cached : List FetchedArticle) :
    Ingestion (IngestionTriggerResponse × List ℕ) :=
  if cached = [] then do
    .modify fun db ↦ db.updateFetchRun prepared.fetchRunId fun run ↦
      { run with finishedAt := some call.finishedAt }
    .raise (httpException 502 ("Source fetch failed: " ++ errorMessage))
  else do
    .modify (recordCacheFallback source prepared.sourceId prepared.fetchRunId cached)
    persistSuccessBody p source prepared.sourceId prepared.fetchRunId cached false call.persistedAt
      call.finishedAt

/-- The transaction of `persist_fetch_failure`. -/
def storeFailure (p : Platform) (call : IngestionCall) (prepared : PreparedIngestion) (errorMessage : String) :
    Ingestion (IngestionTriggerResponse × List ℕ) :=
  .atomically do
    let (source, _) ← loadClaim prepared
    .modify (recordFetchFailure p call source prepared.sourceId prepared.fetchRunId errorMessage)
    let cached ← .readOr fun _ ↦ call.staleCache
    fallBack p call prepared (source.recordFailure p.disableAfterFailures call.persistedAt errorMessage)
      errorMessage cached

def persistFetchFailure (p : Platform) (call : IngestionCall) (prepared : PreparedIngestion)
    (errorMessage : String) : Ingestion IngestionTriggerResponse := do
  let (response, newIds) ← storeFailure p call prepared errorMessage
  enrichAfterPersist call response newIds

/-! ### The workflow -/

def persistFetch (p : Platform) (call : IngestionCall) (prepared : PreparedIngestion) :
    Ingestion IngestionTriggerResponse :=
  match call.fetch with
  | .error error => persistFetchFailure p call prepared (describeFetchError error)
  | .ok (articles, health) => persistFetchSuccess p call prepared articles health

def runIngestionWorkflow (p : Platform) (call : IngestionCall) : Ingestion IngestionTriggerResponse := do
  match ← prepareIngestion p call with
  | .inr response => pure (stampTaskId call.celeryTaskId response)
  | .inl prepared => do
    let response ← persistFetch p call prepared
    pure (stampTaskId ((given prepared.celeryTaskId).or call.celeryTaskId) response)

/-- `queue_ingestion`: the id of the run and whether it is a new one. -/
def queueIngestion (tenantId : String) (sourceId : ℕ) (correlationId : Option String) (celeryTaskId : String) :
    Ingestion (ℕ × Bool) := do
  let _ ← .readOr fun db : Database ↦
    ((db.getSource tenantId sourceId).map Except.ok).getD (.error (httpException 404 "Source not found"))
  match ← .read fun db : Database ↦ db.getOpenFetchRun tenantId sourceId with
  | some (id, _) => pure (id, false)
  | none => do
    let id ← .read fun db : Database ↦ db.fetchRuns.nextKey
    .modify fun db ↦ db.createFetchRun
      { tenantId
        sourceId
        fetchMetadata := setGiven [("trigger", .str "manual"), ("celery_task_id", .str celeryTaskId)]
          "correlation_id" correlationId }
    pure (id, true)

end ContentGenerator.SourceIngestion

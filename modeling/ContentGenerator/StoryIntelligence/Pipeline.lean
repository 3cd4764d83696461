import ContentGenerator.SourceIngestion.Workflow
import ContentGenerator.StoryIntelligence.Scoring

/-!
# Enrichment, rescoring and editorial actions

`persistEnriched` stores the normalized article of a raw article, puts it into a cluster and scores the
cluster; `enrichRawArticles` does so for a list of raw articles, in a transaction each. `rescoreActiveClusters`
scores the clusters of a tenant again, and `syncTrendCandidate` writes the candidate of a scored cluster.
`applyCandidateAction` is what an operator decides, `expireStaleCandidates` what time decides.
-/

namespace ContentGenerator.StoryIntelligence

open Lib Lib.Action Workflows SourceIngestion Prod

/-! ### Candidates -/

/-- The status that `_sync_trend_candidate` gives. -/
def candidateStatus (cluster : StoryCluster) (blocked : Bool) : TrendCandidateStatus :=
  if blocked ∧ cluster.riskLevel = .unsafeContent then .rejectedTopic
  else if cluster.workflowState = .queuedForReview then .queuedForReview
  else .new

/-- `_sync_trend_candidate`: the candidate of the cluster is written, or created. -/
def StoryDb.syncTrendCandidate (db : StoryDb) (clusterId : ℕ) (cluster : StoryCluster) (score : ℚ)
    (blocked : Bool) (now : Time) : StoryDb :=
  match db.getTrendCandidateForCluster cluster.tenantId clusterId with
  | some (id, _) =>
    db.updateCandidate id fun candidate ↦
      { candidate with
        dateBucket := dateOf now
        primaryTopic := cluster.primaryTopic
        finalScore := score
        status := candidateStatus cluster blocked
        expiresAt := some (now + hours 18) }
  | none =>
    { db with
      trendCandidates := db.trendCandidates.insertNew db.trendCandidates.nextKey
        { tenantId := cluster.tenantId
          storyClusterId := clusterId
          dateBucket := dateOf now
          primaryTopic := cluster.primaryTopic
          finalScore := score
          status := candidateStatus cluster blocked
          expiresAt := some (now + hours 18)
          createdAt := now } }

/-- The columns of a scored cluster and its trend score are written. -/
def StoryDb.recordScore (db : StoryDb) (clusterId : ℕ) (scored : StoryCluster) (score : ℚ) (now : Time) :
    StoryDb :=
  { db with
    storyClusters := db.storyClusters.modify clusterId fun _ ↦ scored
    trendScores := db.trendScores ++
      [{ tenantId := scored.tenantId, storyClusterId := clusterId, score, createdAt := now }] }

/-- A cluster is scored on its articles, and its candidate is written. -/
def StoryDb.scoreAndSync (db : StoryDb) (clusterId : ℕ) (weighted : ℚ) (now : Time) : StoryDb :=
  match db.storyClusters.find clusterId with
  | none => db
  | some cluster =>
    let articles := db.listNormalizedForCluster clusterId
    let scored := scoreCluster weighted articles cluster
    (db.recordScore clusterId scored (clippedScore weighted) now).syncTrendCandidate clusterId scored
      (clippedScore weighted) (checkRiskGate cluster articles).1.isSome now

theorem StoryDb.scoreAndSync_of_find {db : StoryDb} {clusterId : ℕ} {cluster : StoryCluster}
    (h : db.storyClusters.find clusterId = some cluster) (weighted : ℚ) (now : Time) :
    db.scoreAndSync clusterId weighted now =
      (db.recordScore clusterId (scoreCluster weighted (db.listNormalizedForCluster clusterId) cluster)
          (clippedScore weighted) now).syncTrendCandidate clusterId
        (scoreCluster weighted (db.listNormalizedForCluster clusterId) cluster) (clippedScore weighted)
        (checkRiskGate cluster (db.listNormalizedForCluster clusterId)).1.isSome now := by
  unfold StoryDb.scoreAndSync
  rw [h]

/-- `expire_stale_candidates` at one candidate. -/
def StoryDb.expireCandidate (tenantId : String) (now : Time) (db : StoryDb) (entry : ℕ × TrendCandidate) :
    StoryDb :=
  if entry.2.status ∈ [.approvedTopic, .rejectedTopic, .expired] then db
  else if entry.2.expiresAt.any (· < now) then
    let expired := db.updateCandidate entry.1 fun candidate ↦ { candidate with status := .expired }
    match db.getCluster tenantId entry.2.storyClusterId with
    | some cluster =>
      if cluster.workflowState ∈ [.published, .rejected] then expired
      else expired.updateCluster entry.2.storyClusterId fun cluster ↦ { cluster with workflowState := .expired }
    | none => expired
  else db

def StoryDb.expireStaleCandidates (db : StoryDb) (tenantId : String) (now : Time) : StoryDb :=
  (db.listTrendCandidates tenantId none 500).foldl (StoryDb.expireCandidate tenantId now) db

def actionStates (action : String) : Option (TrendCandidateStatus × TrendWorkflowState) :=
  if pyLower action = "approve" then some (.approvedTopic, .approvedTopic)
  else if pyLower action = "reject" then some (.rejectedTopic, .rejected)
  else if pyLower action = "hold" then some (.queuedForReview, .queuedForReview)
  else none

/-- `apply_candidate_action`, in the transaction of its request: a refused action leaves no trace. -/
def applyCandidateAction (tenantId : String) (candidateId : ℕ) (action : String) (now : Time) :
    Action StoryDb PyException TrendCandidate :=
  .atomically do
    .modify fun db ↦ db.expireStaleCandidates tenantId now
    let candidate ← .readOr fun db : StoryDb ↦
      ((db.getTrendCandidate tenantId candidateId).map Except.ok).getD
        (.error { className := "ValueError", message := "Trend candidate not found" })
    let states ← .readOr fun _ ↦ ((actionStates action).map Except.ok).getD
      (.error { className := "ValueError", message := "Unsupported candidate action: " ++ action })
    .modify fun db ↦
      let decided := db.updateCandidate candidateId fun candidate ↦ { candidate with status := states.1 }
      if (db.getCluster tenantId candidate.storyClusterId).isSome then
        decided.updateCluster candidate.storyClusterId fun cluster ↦ { cluster with workflowState := states.2 }
      else decided
    pure { candidate with status := states.1 }

/-- `list_trend_candidates`. -/
def listCandidates (tenantId : String) (status : Option TrendCandidateStatus) (limit : ℕ) (now : Time) :
    Action StoryDb PyException (List (ℕ × TrendCandidate)) := do
  .modify fun db ↦ db.expireStaleCandidates tenantId now
  .read fun db ↦ db.listTrendCandidates tenantId status limit

def getTrendCandidateDetail (tenantId : String) (candidateId : ℕ) (now : Time) :
    Action StoryDb PyException (Option TrendCandidate) := do
  .modify fun db ↦ db.expireStaleCandidates tenantId now
  .read fun db ↦ db.getTrendCandidate tenantId candidateId

/-- `rescore_active_clusters` at one cluster, with the weighted score of each cluster given. -/
def StoryDb.rescore (weighted : ℕ → ℚ) (now : Time) (db : StoryDb) (clusterId : ℕ) : StoryDb :=
  if db.listNormalizedForCluster clusterId = [] then db
  else db.scoreAndSync clusterId (weighted clusterId) now

def StoryDb.rescoreActiveClusters (db : StoryDb) (tenantId : String) (weighted : ℕ → ℚ) (now : Time) :
    StoryDb :=
  ((db.listClusters tenantId).map fst).foldl (StoryDb.rescore weighted now) db

/-! ### Storing an enriched article -/

/-- `raw_article.body or raw_article.summary or raw_article.title`. -/
def bodyOf (raw : RawArticle) : String := ((given raw.body).or (given raw.summary)).getD raw.title

/-- The arguments of `_persist_enriched`, the moment of its transaction and the weighted score of the cluster
in it. -/
structure EnrichedArgs where
  tenantId : String
  sourceId : ℕ
  rawId : ℕ
  embedding : List ℚ
  matchedClusterId : Option ℕ
  clusterSummary : Option String
  reuseNormalizedId : Option ℕ
  weighted : ℚ
  now : Time

/-- The row that `normalize_article_from_prepared` creates. -/
def normalizedRow (isdigit : Char → Bool) (args : EnrichedArgs) (source : Source) (raw : RawArticle) :
    NormalizedArticle :=
  let body := bodyOf raw
  let keywords := extractKeywords 8 (raw.title ++ " " ++ body)
  { tenantId := raw.tenantId
    rawArticleId := args.rawId
    title := raw.title
    summary := raw.summary
    body
    sourceName := source.name
    publishedAt := raw.publishedAt
    keywords
    topicTags := keywords.take 4
    embedding := args.embedding
    contentVertical := source.contentVertical
    sourceTier := source.sourceTier
    claims := extractClaims isdigit body raw.title
    createdAt := args.now }

/-- The normalized article that is there already: the one to reuse, or the one of the raw article. -/
def StoryDb.storedArticle (db : StoryDb) (args : EnrichedArgs) : Option (ℕ × NormalizedArticle) :=
  ((args.reuseNormalizedId.bind fun id ↦ (db.getNormalizedById args.tenantId id).map (id, ·))).or
    (db.getNormalizedByRawArticle args.rawId)

/-- The normalized article of a raw article, with its id. -/
def StoryDb.articleFor (db : StoryDb) (isdigit : Char → Bool) (args : EnrichedArgs) (source : Source)
    (raw : RawArticle) : ℕ × NormalizedArticle :=
  (db.storedArticle args).getD (db.normalizedArticles.nextKey, normalizedRow isdigit args source raw)

def StoryDb.matchedCluster (db : StoryDb) (args : EnrichedArgs) : Option ℕ :=
  args.matchedClusterId.filter fun id ↦ (db.getCluster args.tenantId id).isSome

def startedCluster (args : EnrichedArgs) (entry : ℕ × NormalizedArticle) : StoryCluster :=
  { tenantId := args.tenantId
    headline := entry.2.title
    summary := (given args.clusterSummary).getD (pyTake 500 ((given entry.2.summary).getD entry.2.title))
    primaryTopic := entry.2.topicTags.headD "general"
    representativeArticleId := entry.1
    riskLevel := riskLevelOf entry.2.keywords
    contentVertical := entry.2.contentVertical
    embedding := entry.2.embedding
    keywords := entry.2.topicTags
    createdAt := args.now }

def StoryDb.clusterFor (db : StoryDb) (args : EnrichedArgs) : ℕ :=
  (db.matchedCluster args).getD db.storyClusters.nextKey

/-- The row of the article with which a cluster has `articleCount` of them. -/
def membershipRow (clusterId normalizedId articleCount : ℕ) : StoryClusterArticle :=
  { storyClusterId := clusterId
    normalizedArticleId := normalizedId
    rank := articleCount
    isPrimary := articleCount = 1 }

/-- The cluster counts the article and a membership row is written. -/
def StoryDb.join (db : StoryDb) (clusterId normalizedId : ℕ) : StoryDb :=
  match db.storyClusters.find clusterId with
  | none => db
  | some cluster =>
    { db with
      storyClusters := db.storyClusters.modify clusterId fun cluster ↦
        { cluster with articleCount := cluster.articleCount + 1 }
      clusterArticles := db.clusterArticles ++
        [membershipRow clusterId normalizedId (cluster.articleCount + 1)] }

/-- The tables with the article and its cluster, before the membership is written. -/
def StoryDb.prepared (db : StoryDb) (isdigit : Char → Bool) (args : EnrichedArgs) (source : Source)
    (raw : RawArticle) : StoryDb :=
  let entry := db.articleFor isdigit args source raw
  { db with
    normalizedArticles := db.normalizedArticles.insertNew entry.1 entry.2
    storyClusters := db.storyClusters.insertNew (db.clusterFor args) (startedCluster args entry) }

/-- The length that the column `primary_topic` of a cluster has room for. -/
def primaryTopicLength : ℕ := 128

/-- The block of `_persist_enriched`: the cluster, and the tables as it leaves them. -/
def persistBody (isdigit : Char → Bool) (args : EnrichedArgs) (db : StoryDb) :
    Except PyException (ℕ × StoryDb) :=
  match db.ingestion.getSource args.tenantId args.sourceId, db.ingestion.rawArticles.find args.rawId with
  | some source, some raw =>
    let entry := db.articleFor isdigit args source raw
    let clusterId := db.clusterFor args
    if db.matchedCluster args = none ∧ primaryTopicLength < (startedCluster args entry).primaryTopic.length then
      .error { className := "DBAPIError", message := "value too long for type character varying(128)" }
    else if db.isMember clusterId entry.1 then
      .error
        { className := "IntegrityError"
          message := "duplicate key value violates unique constraint \"uq_sca_cluster_article\"" }
    else
      .ok (clusterId,
        ((db.prepared isdigit args source raw).join clusterId entry.1).scoreAndSync clusterId args.weighted
          args.now)
  | _, _ => .error { className := "RuntimeError", message := "enrichment persist lost source/raw article" }

/-- `_persist_enriched`: its block in a unit of work. -/
def persistEnriched (isdigit : Char → Bool) (args : EnrichedArgs) : Action StoryDb PyException ℕ := fun db ↦
  match persistBody isdigit args db with
  | .ok (clusterId, stored) => (.ok clusterId, stored)
  | .error exc => (.error exc, db)

/-! ### Enriching a list of raw articles -/

/-- One raw article of a call, and what the loop is told from outside at it: the embedding, the summary, the
moments of its three transactions, the order in which the database returns clusters and articles that a query
does not order, and the weighted score. -/
structure EnrichItem where
  rawId : ℕ
  loadedAt : Time
  searchedAt : Time
  persistedAt : Time
  clusterOrder : ℕ → ℕ
  articleOrder : ℕ → ℕ
  embedding : List ℚ
  summary : String
  weighted : ℚ

/-- `_load_snap` finds the source, and the raw article as one of the tenant. -/
def StoryDb.loads (db : StoryDb) (tenantId : String) (sourceId rawId : ℕ) : Option RawArticle :=
  (db.ingestion.getSource tenantId sourceId).bind fun _ ↦
    (db.ingestion.rawArticles.find rawId).filter fun raw ↦ raw.tenantId = tenantId

def matchCluster (cosine : List ℚ → List ℚ → ℚ) (topicTags : List String) (embedding : List ℚ)
    (recent : List (ℕ × StoryCluster)) : Option ℕ :=
  (recent.find? fun entry ↦
    2 ≤ (entry.2.keywords.eraseDups.filter (· ∈ topicTags)).length ||
      clusterThreshold ≤ cosineSimilarity cosine embedding entry.2.embedding).map fst

/-- What the loop of `enrich_raw_articles_outside_db` hands to `_persist_enriched` for a raw article that has
been loaded. -/
def StoryDb.enrichedArgs (db : StoryDb) (cosine : List ℚ → List ℚ → ℚ) (tenantId : String) (sourceId : ℕ)
    (item : EnrichItem) (raw : RawArticle) : EnrichedArgs :=
  let reuse := ((db.getNormalizedByRawArticle item.rawId).map fst).or
    ((db.findNearDuplicate cosine tenantId item.embedding item.searchedAt item.articleOrder).map fst)
  let topicTags := extractKeywords 4 (raw.title ++ " " ++ bodyOf raw)
  let matched := matchCluster cosine topicTags item.embedding
    (db.listRecentClusters tenantId item.loadedAt item.clusterOrder)
  { tenantId
    sourceId
    rawId := item.rawId
    embedding := item.embedding
    matchedClusterId := matched
    clusterSummary := if matched = none ∧ reuse = none then some item.summary else none
    reuseNormalizedId := reuse
    weighted := item.weighted
    now := item.persistedAt }

/-- The loop at one raw article: the cluster it is put into, if it is loaded. -/
def enrichRawArticle (isdigit : Char → Bool) (cosine : List ℚ → List ℚ → ℚ) (tenantId : String)
    (sourceId : ℕ) (item : EnrichItem) : Action StoryDb PyException (Option ℕ) := fun db ↦
  match db.loads tenantId sourceId item.rawId with
  | none => (.ok none, db)
  | some raw =>
    match persistEnriched isdigit (db.enrichedArgs cosine tenantId sourceId item raw) db with
    | (.ok clusterId, stored) => (.ok (some clusterId), stored)
    | (.error exc, stored) => (.error exc, stored)

/-- `enrich_raw_articles_outside_db`: the clusters the articles are put into. -/
def enrichRawArticles (isdigit : Char → Bool) (cosine : List ℚ → List ℚ → ℚ) (tenantId : String)
    (sourceId : ℕ) : List EnrichItem → Action StoryDb PyException (List ℕ)
  | [] => pure []
  | item :: rest => do
    let clusterId ← enrichRawArticle isdigit cosine tenantId sourceId item
    let clusterIds ← enrichRawArticles isdigit cosine tenantId sourceId rest
    pure (clusterId.toList ++ clusterIds)

/-! ### Passes and operations -/

/-- What happens to the tables without an operator: the ingestion module writes its own, an article is
stored, a tenant is rescored, candidates expire, are listed or read. -/
inductive Pass
  | ingest (tables : SourceIngestion.Database)
  | persistEnriched (args : EnrichedArgs)
  | rescore (tenantId : String) (weighted : ℕ → ℚ) (now : Time)
  | expire (tenantId : String) (now : Time)
  | list (tenantId : String) (status : Option TrendCandidateStatus) (limit : ℕ) (now : Time)
  | detail (tenantId : String) (candidateId : ℕ) (now : Time)

def Pass.apply (isdigit : Char → Bool) (db : StoryDb) : Pass → StoryDb
  | .ingest tables => { db with ingestion := tables }
  | .persistEnriched args => (StoryIntelligence.persistEnriched isdigit args).final db
  | .rescore tenantId weighted now => db.rescoreActiveClusters tenantId weighted now
  | .expire tenantId now => db.expireStaleCandidates tenantId now
  | .list tenantId status limit now => (listCandidates tenantId status limit now).final db
  | .detail tenantId candidateId now => (getTrendCandidateDetail tenantId candidateId now).final db

/-- A pass, or an action of an operator. -/
inductive StoryOp
  | automatic (pass : Pass)
  | act (tenantId : String) (candidateId : ℕ) (action : String) (now : Time)

def StoryOp.apply (isdigit : Char → Bool) (db : StoryDb) : StoryOp → StoryDb
  | .automatic pass => pass.apply isdigit db
  | .act tenantId candidateId action now => (applyCandidateAction tenantId candidateId action now).final db

end ContentGenerator.StoryIntelligence

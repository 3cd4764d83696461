import ContentGenerator.SourceIngestion.Models
import Mathlib.Data.List.Sort
import Mathlib.Data.List.MinMax
import Mathlib.Data.Prod.Lex
import Mathlib.Algebra.Order.Ring.Rat

/-!
# Normalized articles, story clusters and trend candidates

The tables of story intelligence beside those of ingestion, and the queries of its repository. Ids stand for
UUIDs, and a table holds its rows in the order of their creation. The keywords of a cluster are the words
that its explainability column joins with commas.

Slugs, trend directions, the sub-scores and explanations of a score, the evidence of a candidate and audit
rows are left out: nothing here reads them.
-/

namespace ContentGenerator.StoryIntelligence

open Lib Workflows SourceIngestion

/-! ### Rows -/

/-- `timedelta(hours=count)`. -/
def hours (count : ℕ) : Time := minutes (60 * count)

/-- `date()` of a moment: the days since the epoch. -/
def dateOf (now : Time) : ℕ := now / hours 24

inductive TrendWorkflowState
  | new | queuedForReview | approvedTopic | briefReady | assetGeneration | assetReview | publishReady
  | published | rejected | expired
  deriving DecidableEq

inductive RiskLevel
  | safe | sensitive | risky | unsafeContent
  deriving DecidableEq

inductive ClusterBlockReason
  | unsafeContent | insufficientTier1Confirmation | contradictoryClaims | manualBlock
  deriving DecidableEq

inductive TrendCandidateStatus
  | new | queuedForReview | approvedTopic | rejectedTopic | expired
  deriving DecidableEq

structure NormalizedArticle where
  tenantId : String
  rawArticleId : ℕ
  title : String
  summary : Option String
  body : String
  sourceName : String
  publishedAt : Option Time
  keywords : List String
  topicTags : List String
  embedding : List ℚ
  contentVertical : String
  sourceTier : String
  claims : List String
  createdAt : Time

structure StoryCluster where
  tenantId : String
  headline : String
  summary : String
  primaryTopic : String
  representativeArticleId : ℕ
  articleCount : ℕ := 0
  worthyForContent : Bool := false
  riskLevel : RiskLevel := .safe
  workflowState : TrendWorkflowState := .new
  contentVertical : String := "general"
  tier1SourcesConfirmed : ℕ := 0
  blockReason : Option ClusterBlockReason := none
  awaitingConfirmation : Bool := false
  embedding : List ℚ := []
  keywords : List String := []
  createdAt : Time
  deletedAt : Option Time := none

structure StoryClusterArticle where
  storyClusterId : ℕ
  normalizedArticleId : ℕ
  rank : ℕ
  isPrimary : Bool
  deriving DecidableEq

structure TrendScore where
  tenantId : String
  storyClusterId : ℕ
  score : ℚ
  createdAt : Time

structure TrendCandidate where
  tenantId : String
  storyClusterId : ℕ
  dateBucket : ℕ
  primaryTopic : String
  finalScore : ℚ
  status : TrendCandidateStatus := .new
  expiresAt : Option Time
  createdAt : Time

/-- The tables of the module and of the one it reads from. -/
structure StoryDb where
  ingestion : SourceIngestion.Database := {}
  normalizedArticles : KeyedTable ℕ NormalizedArticle := ⟨[], List.nodup_nil⟩
  storyClusters : KeyedTable ℕ StoryCluster := ⟨[], List.nodup_nil⟩
  clusterArticles : List StoryClusterArticle := []
  trendScores : List TrendScore := []
  trendCandidates : KeyedTable ℕ TrendCandidate := ⟨[], List.nodup_nil⟩

/-! ### The repository -/

namespace StoryDb

def getNormalizedByRawArticle (db : StoryDb) (rawArticleId : ℕ) : Option (ℕ × NormalizedArticle) :=
  db.normalizedArticles.entries.find? fun entry ↦ entry.2.rawArticleId = rawArticleId

def getNormalizedById (db : StoryDb) (tenantId : String) (id : ℕ) : Option NormalizedArticle :=
  (db.normalizedArticles.find id).filter fun article ↦ article.tenantId = tenantId

def getCluster (db : StoryDb) (tenantId : String) (id : ℕ) : Option StoryCluster :=
  (db.storyClusters.find id).filter fun cluster ↦ cluster.tenantId = tenantId ∧ cluster.deletedAt = none

/-- The query gives no order: `order` is the one in which the database returns the rows. -/
def listRecentClusters (db : StoryDb) (tenantId : String) (now : Time) (order : ℕ → ℕ) :
    List (ℕ × StoryCluster) :=
  (db.storyClusters.entries.filter fun entry ↦
    entry.2.tenantId = tenantId ∧ entry.2.deletedAt = none ∧ now - hours 72 ≤ entry.2.createdAt).insertionSort
      fun a b ↦ order a.1 ≤ order b.1

def rowsOf (db : StoryDb) (clusterId : ℕ) : List StoryClusterArticle :=
  db.clusterArticles.filter fun row ↦ row.storyClusterId = clusterId

def isMember (db : StoryDb) (clusterId normalizedId : ℕ) : Bool :=
  db.clusterArticles.any fun row ↦
    row.storyClusterId = clusterId ∧ row.normalizedArticleId = normalizedId

/-- The order of `list_normalized_for_cluster`: by publication, the latest first and the undated last, then by
creation. -/
def publishedBefore (a b : NormalizedArticle) : Bool :=
  match a.publishedAt, b.publishedAt with
  | some x, some y => y < x || (x = y && b.createdAt ≤ a.createdAt)
  | some _, none => true
  | none, some _ => false
  | none, none => b.createdAt ≤ a.createdAt

def listNormalizedForCluster (db : StoryDb) (clusterId : ℕ) : List NormalizedArticle :=
  ((db.rowsOf clusterId).filterMap fun row ↦
    db.normalizedArticles.find row.normalizedArticleId).insertionSort fun a b ↦ publishedBefore a b

def getLatestTrendScore (db : StoryDb) (clusterId : ℕ) : Option TrendScore :=
  (db.trendScores.reverse.filter fun score ↦ score.storyClusterId = clusterId).argmax (·.createdAt)

/-- The order of `list_clusters`: by the latest score, the highest first and the unscored last, then by
creation. -/
def rankedBefore (db : StoryDb) (a b : ℕ × StoryCluster) : Bool :=
  match db.getLatestTrendScore a.1, db.getLatestTrendScore b.1 with
  | some x, some y => y.score < x.score || (x.score = y.score && b.2.createdAt ≤ a.2.createdAt)
  | some _, none => true
  | none, some _ => false
  | none, none => b.2.createdAt ≤ a.2.createdAt

/-- `list_clusters`, the worthy ones and the others, up to its default limit. -/
def listClusters (db : StoryDb) (tenantId : String) : List (ℕ × StoryCluster) :=
  ((db.storyClusters.entries.filter fun entry ↦
    entry.2.tenantId = tenantId ∧ entry.2.deletedAt = none).insertionSort fun a b ↦
      db.rankedBefore a b).take 50

/-- `get_trend_candidate_for_cluster`: the one of the latest day. -/
def getTrendCandidateForCluster (db : StoryDb) (tenantId : String) (clusterId : ℕ) :
    Option (ℕ × TrendCandidate) :=
  (db.trendCandidates.entries.filter fun entry ↦
    entry.2.tenantId = tenantId ∧ entry.2.storyClusterId = clusterId).argmax fun entry ↦
      toLex (entry.2.dateBucket, entry.2.createdAt)

def getTrendCandidate (db : StoryDb) (tenantId : String) (id : ℕ) : Option TrendCandidate :=
  (db.trendCandidates.find id).filter fun candidate ↦ candidate.tenantId = tenantId

/-- The order of `list_trend_candidates`: the highest score first, then the latest. -/
def scoredBefore (a b : ℕ × TrendCandidate) : Bool :=
  b.2.finalScore < a.2.finalScore || (a.2.finalScore = b.2.finalScore && b.2.createdAt ≤ a.2.createdAt)

def listTrendCandidates (db : StoryDb) (tenantId : String) (status : Option TrendCandidateStatus)
    (limit : ℕ) : List (ℕ × TrendCandidate) :=
  ((db.trendCandidates.entries.filter fun entry ↦
    entry.2.tenantId = tenantId ∧ status.all fun status ↦ entry.2.status = status).insertionSort fun a b ↦
      scoredBefore a b).take limit

def updateCluster (db : StoryDb) (id : ℕ) (f : StoryCluster → StoryCluster) : StoryDb :=
  { db with storyClusters := db.storyClusters.modify id f }

def updateCandidate (db : StoryDb) (id : ℕ) (f : TrendCandidate → TrendCandidate) : StoryDb :=
  { db with trendCandidates := db.trendCandidates.modify id f }

end StoryDb

end ContentGenerator.StoryIntelligence

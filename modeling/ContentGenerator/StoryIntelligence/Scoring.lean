import ContentGenerator.StoryIntelligence.Models

/-!
# Keywords, risk and the gate

What the scorer reads off texts: the keywords of an article, its claims, the risk level of its keywords, the
topics of a cluster and the contradictions between claims. `checkRiskGate` decides from these whether a
cluster is kept from becoming content. The weighted score itself is an argument of `scoreCluster`.
-/

namespace ContentGenerator.StoryIntelligence

open Lib Workflows SourceIngestion List String

/-! ### Keywords -/

def stopwords : List String :=
  ["the", "and", "for", "with", "that", "from", "this", "have", "will", "into", "after", "about", "latest"]

/-- A character of `[a-zA-Z0-9_-]`. -/
def wordChar (c : Char) : Bool := c.isAlphanum || c = '_' || c = '-'

/-- `re.findall(r"[a-zA-Z][a-zA-Z0-9_-]{2,}", text.lower())`: in every longest run of word characters the
part from its first letter on, if it has three characters. -/
def findTokens (text : String) : List String :=
  ((((pyLower text).toList.splitOnP fun c ↦ !wordChar c).map fun run ↦ run.dropWhile fun c ↦ !c.isAlpha).filter
    fun run ↦ 3 ≤ run.length).map ofList

/-- `Counter(words).most_common(limit)` without the counts: the most frequent words, words of one frequency
in the order they are met. -/
def mostCommon (limit : ℕ) (words : List String) : List String :=
  (words.eraseDups.insertionSort fun a b ↦ words.count b ≤ words.count a).take limit

def extractKeywords (limit : ℕ) (text : String) : List String :=
  mostCommon limit ((findTokens text).filter (· ∉ stopwords))

/-! ### Claims -/

/-- A list cut before the characters at which a break is made; such a character is dropped. -/
def splitBreaks (breaks : Option Char → Char → Bool) : Option Char → List Char → List (List Char)
  | _, [] => [[]]
  | previous, c :: rest =>
    if breaks previous c then [] :: splitBreaks breaks (some c) rest
    else match splitBreaks breaks (some c) rest with
      | [] => [[c]]
      | piece :: pieces => (c :: piece) :: pieces

def endsSentence (previous : Option Char) (c : Char) : Bool :=
  pySpace c && previous.any fun p ↦ p = '.' || p = '!' || p = '?'

/-- The stripped parts of a text that are not empty. Blanks that follow a break are stripped with the part
they start. -/
def strippedParts (breaks : Option Char → Char → Bool) (text : String) : List String :=
  ((splitBreaks breaks none text.toList).map fun part ↦ pyStrip (ofList part)).filter (· ≠ "")

def claimWords : List String := ["said", "announced", "confirmed", "reported", "will", "has", "have"]

/-- `_extract_claims`, with `str.isdigit` on one character given. -/
def extractClaims (isdigit : Char → Bool) (body title : String) : List String :=
  (((strippedParts endsSentence (title ++ ". " ++ body)).filter fun cleaned ↦
    30 ≤ cleaned.length &&
      (cleaned.toList.any isdigit || claimWords.any fun word ↦ pyIn word (pyLower cleaned))).map
    (pyTake 280)).take 5

/-! ### Risk levels and topics -/

/-- `_risk_level`. -/
def riskLevelOf (keywords : List String) : RiskLevel :=
  if keywords.any (· ∈ ["graphic", "extremist"]) then .unsafeContent
  else if keywords.any (· ∈ ["war", "attack", "death", "lawsuit", "crisis", "ban"]) then .risky
  else if keywords.any (· ∈ ["election", "vote", "market", "stocks", "health", "disease"]) then .sensitive
  else .safe

/-- `TOPIC_KEYWORDS`. -/
def topicKeywords : List (String × List String) :=
  [("politics", ["politic", "government", "minister", "president", "congress", "parliament", "campaign"]),
    ("conflicts", ["war", "conflict", "military", "missile", "strike", "battle", "invasion"]),
    ("elections", ["election", "vote", "ballot", "polling", "voter", "referendum"]),
    ("markets", ["market", "stocks", "shares", "crypto", "trading", "nasdaq", "dow", "s&p"]),
    ("health", ["health", "medical", "disease", "vaccine", "drug", "treatment", "patient", "hospital"])]

/-- `FAIL_CLOSED_CATEGORIES`. -/
def failClosedCategories : List String := ["politics", "conflicts", "elections", "markets", "health"]

/-- `HIGH_RISK_VERTICALS`. -/
def highRiskVerticals : List String := ["politics", "conflicts", "economy"]

/-- `classify_topic_categories`, in the order they are detected. -/
def classifyTopicCategories (contentVertical headline summary : String) (claims keywords : List String) :
    List String :=
  let haystack := pyLower (" ".intercalate ([headline, summary] ++ claims ++ keywords))
  (if contentVertical ∈ ["politics", "conflicts"] then [contentVertical] else []) ++
    (if contentVertical = "economy" then ["markets"] else []) ++
    (topicKeywords.filter fun topic ↦ topic.2.any fun phrase ↦ pyIn phrase haystack).map Prod.fst

def shouldFailClosed (categories : List String) : Bool := categories.any (· ∈ failClosedCategories)

def leadingClaims (articles : List NormalizedArticle) : List String := articles.flatMap (·.claims.take 3)

def isHighRiskTopic (cluster : StoryCluster) (articles : List NormalizedArticle) : Bool :=
  let vertical := if cluster.contentVertical = "" then "general" else cluster.contentVertical
  vertical ∈ highRiskVerticals ||
    shouldFailClosed (classifyTopicCategories vertical cluster.headline cluster.summary (leadingClaims articles)
      (articles.flatMap (·.keywords)))

/-! ### Contradictions -/

/-- `NEGATION_TOKENS`. -/
def negationTokens : List String := ["not", "no", "never", "denied", "deny", "false", "without"]

/-- `_tokenize`: the longest runs of `[a-z0-9]` of the lower case. -/
def tokenize (text : String) : List String :=
  (((pyLower text).toList.splitOnP fun c ↦ !(c.isLower || c.isDigit)).filter (· ≠ [])).map ofList

def containsNegation (text : String) : Bool := (tokenize text).any (· ∈ negationTokens)

/-- `_core_overlap`, without repetitions. -/
def coreOverlap (left right : String) : List String :=
  let ignored := negationTokens ++ ["the", "and", "for", "with", "that", "this", "from", "into", "about"]
  ((tokenize left).filter fun token ↦
    2 < token.length && token ∉ ignored && token ∈ tokenize right).eraseDups

def sentenceSplit (text : String) : List String :=
  strippedParts (fun previous c ↦ endsSentence previous c || c = '\n') text

/-- `detect_claim_contradictions` finds something. -/
def detectClaimContradictions (extractedClaims generatedTexts : List String) : Bool :=
  generatedTexts.any fun text ↦ (sentenceSplit text).any fun sentence ↦
    (extractedClaims.take 8).any fun claim ↦
      2 ≤ (coreOverlap sentence claim).length && containsNegation sentence != containsNegation claim

def hasContradiction (articles : List NormalizedArticle) : Bool :=
  detectClaimContradictions (leadingClaims articles) (leadingClaims articles)

/-! ### The gate -/

/-- The names of the authoritative sources of the articles. -/
def tier1Count (articles : List NormalizedArticle) : ℕ :=
  ((articles.filter fun article ↦ article.sourceTier = "authoritative").map (·.sourceName)).eraseDups.length

/-- `_check_risk_gate`: the reason of a block, if there is one, and the cluster with what the gate records. -/
def checkRiskGate (cluster : StoryCluster) (articles : List NormalizedArticle) :
    Option ClusterBlockReason × StoryCluster :=
  if cluster.riskLevel = .unsafeContent then
    (some .unsafeContent, { cluster with blockReason := some .unsafeContent, awaitingConfirmation := false })
  else if cluster.riskLevel = .risky ∨ isHighRiskTopic cluster articles then
    let counted := { cluster with tier1SourcesConfirmed := tier1Count articles }
    if tier1Count articles < 2 then
      (some .insufficientTier1Confirmation,
        { counted with blockReason := some .insufficientTier1Confirmation, awaitingConfirmation := true })
    else if hasContradiction articles then
      (some .contradictoryClaims,
        { counted with blockReason := some .contradictoryClaims, awaitingConfirmation := false })
    else (none, { counted with blockReason := none, awaitingConfirmation := false })
  else (none, cluster)

/-- The score from which on `_score_cluster` decides to generate. -/
def scoreThreshold (cluster : StoryCluster) (articles : List NormalizedArticle) : ℚ :=
  if isHighRiskTopic cluster articles then 62 / 100
  else if cluster.riskLevel = .sensitive then 52 / 100
  else 40 / 100

/-- The score of `_score_cluster` for a weighted sum. -/
def clippedScore (weighted : ℚ) : ℚ := max 0 (min 1 weighted)

def scoreCluster (weighted : ℚ) (articles : List NormalizedArticle) (cluster : StoryCluster) : StoryCluster :=
  let gate := checkRiskGate cluster articles
  let worthy := decide (scoreThreshold cluster articles ≤ clippedScore weighted) && gate.1.isNone
  { gate.2 with
    worthyForContent := worthy
    workflowState := if worthy then .queuedForReview else .new }

/-- The columns that no gate and no score touch. -/
theorem scoreCluster_columns (weighted : ℚ) (articles : List NormalizedArticle) (cluster : StoryCluster) :
    (scoreCluster weighted articles cluster).tenantId = cluster.tenantId ∧
      (scoreCluster weighted articles cluster).articleCount = cluster.articleCount ∧
      (scoreCluster weighted articles cluster).riskLevel = cluster.riskLevel ∧
      (scoreCluster weighted articles cluster).deletedAt = cluster.deletedAt := by
  unfold scoreCluster checkRiskGate
  dsimp only
  split_ifs <;> exact ⟨rfl, rfl, rfl, rfl⟩

theorem workflowState_scoreCluster (weighted : ℚ) (articles : List NormalizedArticle)
    (cluster : StoryCluster) :
    (scoreCluster weighted articles cluster).workflowState ∈
      [TrendWorkflowState.new, .queuedForReview] := by
  unfold scoreCluster
  dsimp only
  split_ifs
  · exact mem_cons_of_mem _ (mem_singleton_self _)
  · exact mem_cons_self

theorem gate_of_worthy {weighted : ℚ} {articles : List NormalizedArticle} {cluster : StoryCluster}
    (h : (scoreCluster weighted articles cluster).worthyForContent) : (checkRiskGate cluster articles).1 = none := by
  unfold scoreCluster at h
  dsimp only at h
  rw [Bool.and_eq_true] at h
  exact Option.isNone_iff_eq_none.mp h.2

/-! ### Similarity -/

/-- `cosine_similarity`. `cosine` is the double that the rounded dot product and norms come to, whatever the
rounding makes of it. -/
def cosineSimilarity (cosine : List ℚ → List ℚ → ℚ) (left right : List ℚ) : ℚ :=
  if left = [] ∨ right = [] ∨ left.length ≠ right.length then 0 else cosine left right

/-- The doubles that `0.97` and `0.82` are read as. -/
def duplicateThreshold : ℚ := 4368491638549381 / 2 ^ 52

def clusterThreshold : ℚ := 7385903388887613 / 2 ^ 53

/-- `find_near_duplicate`: among the 200 latest articles of the last hours the first that is almost the same.
`order` is the order in which the database gives those of one moment. -/
def StoryDb.findNearDuplicate (db : StoryDb) (cosine : List ℚ → List ℚ → ℚ) (tenantId : String)
    (embedding : List ℚ) (now : Time) (order : ℕ → ℕ) : Option (ℕ × NormalizedArticle) :=
  (((db.normalizedArticles.entries.filter fun entry ↦
    entry.2.tenantId = tenantId ∧ now - hours 6 ≤ entry.2.createdAt).insertionSort fun a b ↦
      b.2.createdAt < a.2.createdAt ∨ (b.2.createdAt = a.2.createdAt ∧ order a.1 ≤ order b.1)).take
        200).find? fun entry ↦
          duplicateThreshold ≤ cosineSimilarity cosine embedding entry.2.embedding

end ContentGenerator.StoryIntelligence

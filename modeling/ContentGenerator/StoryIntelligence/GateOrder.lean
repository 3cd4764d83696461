import ContentGenerator.Lib.EarlyMarks
import ContentGenerator.Lib.EraseDups
import ContentGenerator.Lib.PyJoin
import ContentGenerator.StoryIntelligence.Scoring

/-!
# The risk gate and the order of the articles

`_has_contradiction` compares the sentences of all claims it considers with the first eight of these claims
only (`detect_claim_contradictions` cuts the list), so with more claims it depends on the order of the
articles which contradictions are seen. `riskGate_exact_iff` says when the gate of a risky cluster is exact all
the same: the verdict is the same in every order, and a worthy cluster has two authoritative sources and no
two claims that contradict each other. `unseen_contradiction` is a worthy cluster with two contradictory
claims behind eight others.
-/

namespace ContentGenerator.StoryIntelligence

open Lib Workflows SourceIngestion List

variable {cluster : StoryCluster}

/-! ### Contradictions of a pair -/

/-- `detect_claim_contradictions` on one claim and one text. -/
def contradicts (text claim : String) : Bool := detectClaimContradictions [claim] [text]

/-- A text among the claims considered contradicts the claim. -/
def contradicted (articles : List NormalizedArticle) (claim : String) : Bool :=
  (leadingClaims articles).any fun text ↦ contradicts text claim

def consideredClaims (article : NormalizedArticle) : List String := article.claims.take 3

/-- The texts are compared with the first eight claims. -/
theorem detectClaimContradictions_iff (claims texts : List String) :
    detectClaimContradictions claims texts ↔
      ∃ claim ∈ claims.take 8, ∃ text ∈ texts, contradicts text claim := by
  unfold contradicts detectClaimContradictions
  simp only [any_eq_true, any_cons, any_nil, Bool.or_false, take_succ_cons, take_nil]
  constructor
  · rintro ⟨text, htext, sentence, hsentence, claim, hclaim, hcontra⟩
    exact ⟨claim, hclaim, text, htext, sentence, hsentence, hcontra⟩
  · rintro ⟨claim, hclaim, text, htext, sentence, hsentence, hcontra⟩
    exact ⟨text, htext, sentence, hsentence, claim, hclaim, hcontra⟩

theorem hasContradiction_eq (articles : List NormalizedArticle) :
    hasContradiction articles = seenEarly consideredClaims (contradicted articles) 8 articles := by
  refine Bool.eq_iff_iff.mpr ((detectClaimContradictions_iff _ _).trans ?_)
  unfold seenEarly contradicted
  simp only [any_eq_true]
  rfl

/-! ### The order of the articles -/

variable {articles articles' : List NormalizedArticle}

theorem leadingClaims_perm (h : articles'.Perm articles) : (leadingClaims articles').Perm (leadingClaims articles) :=
  h.flatMap_right _

theorem contradicted_perm (h : articles'.Perm articles) : contradicted articles' = contradicted articles := by
  funext claim
  exact (leadingClaims_perm h).any_eq

theorem tier1Count_perm (h : articles'.Perm articles) : tier1Count articles' = tier1Count articles :=
  length_eraseDups_perm ((h.filter _).map _)

/-- No phrase of a topic is empty or holds a blank. -/
theorem topicKeywords_words : ∀ topic ∈ topicKeywords, ∀ phrase ∈ topic.2, ' ' ∉ phrase.toList ∧ phrase ≠ "" := by
  decide +kernel

/-- The topics are found in the parts of the text, so the order of the claims and keywords does not matter. -/
theorem classifyTopicCategories_perm (contentVertical headline summary : String)
    {claims claims' keywords keywords' : List String} (hclaims : claims'.Perm claims)
    (hkeywords : keywords'.Perm keywords) :
    classifyTopicCategories contentVertical headline summary claims' keywords' =
      classifyTopicCategories contentVertical headline summary claims keywords := by
  have hparts : ([headline, summary] ++ claims' ++ keywords').Perm ([headline, summary] ++ claims ++ keywords) :=
    (hclaims.append_left _).append hkeywords
  have htopics : ∀ topic ∈ topicKeywords,
      (topic.2.any fun phrase ↦ pyIn phrase (pyLower (" ".intercalate ([headline, summary] ++ claims' ++ keywords')))) =
        topic.2.any fun phrase ↦ pyIn phrase (pyLower (" ".intercalate ([headline, summary] ++ claims ++ keywords))) := by
    intro topic htopic
    refine Bool.eq_iff_iff.mpr ?_
    rw [any_eq_true, any_eq_true]
    refine exists_congr fun phrase ↦ and_congr_right fun hmem ↦ ?_
    obtain ⟨hblank, hphrase⟩ := topicKeywords_words topic htopic phrase hmem
    rw [pyIn_pyLower_intercalate hblank hphrase, pyIn_pyLower_intercalate hblank hphrase]
    exact exists_congr fun part ↦ and_congr_left' hparts.mem_iff
  unfold classifyTopicCategories
  dsimp only
  rw [filter_congr htopics]

theorem isHighRiskTopic_perm (cluster : StoryCluster) (h : articles'.Perm articles) :
    isHighRiskTopic cluster articles' = isHighRiskTopic cluster articles := by
  unfold isHighRiskTopic
  dsimp only
  rw [classifyTopicCategories_perm _ _ _ (leadingClaims_perm h) (h.flatMap_right fun article ↦ article.keywords)]

/-! ### The gate of risky clusters -/

/-- The gate looks closely at the cluster. -/
def HighRisk (cluster : StoryCluster) (articles : List NormalizedArticle) : Prop :=
  cluster.riskLevel = .risky ∨ isHighRiskTopic cluster articles

theorem HighRisk.perm (h : HighRisk cluster articles) (hperm : articles'.Perm articles) :
    HighRisk cluster articles' := by
  unfold HighRisk
  rw [isHighRiskTopic_perm cluster hperm]
  exact h

/-- The verdict on a risky cluster. -/
theorem gate_of_highRisk (h : HighRisk cluster articles) :
    (checkRiskGate cluster articles).1 =
      if cluster.riskLevel = .unsafeContent then some .unsafeContent
      else if tier1Count articles < 2 then some .insufficientTier1Confirmation
      else if hasContradiction articles then some .contradictoryClaims
      else none := by
  have hbranch : cluster.riskLevel = .risky ∨ isHighRiskTopic cluster articles = true := h
  unfold checkRiskGate
  rw [if_pos hbranch]
  dsimp only
  split_ifs <;> rfl

/-- The exact gate: a worthy cluster has two authoritative sources and no two claims that contradict each
other, and the verdict does not depend on the order of the articles. -/
def GateExact (cluster : StoryCluster) (articles : List NormalizedArticle) : Prop :=
  (∀ weighted, (scoreCluster weighted articles cluster).worthyForContent →
    2 ≤ tier1Count articles ∧
      (leadingClaims articles).Pairwise fun claim other ↦ ¬ contradicts claim other ∧ ¬ contradicts other claim) ∧
  ∀ articles', articles'.Perm articles → (checkRiskGate cluster articles').1 = (checkRiskGate cluster articles).1

/-- A cluster that is blocked in every order. -/
theorem GateExact.of_blocked (reason : ClusterBlockReason)
    (h : ∀ articles', articles'.Perm articles → (checkRiskGate cluster articles').1 = some reason) :
    GateExact cluster articles := by
  have hself := h articles (.refl _)
  refine ⟨fun weighted hworthy ↦ ?_, fun articles' hperm ↦ (h articles' hperm).trans hself.symm⟩
  exact absurd (hself.symm.trans (gate_of_worthy hworthy)) (by simp)

theorem no_contradiction_of_unseen (hearly : AlwaysEarly consideredClaims (contradicted articles) 8 articles)
    (h : hasContradiction articles = false) :
    (leadingClaims articles).Pairwise fun claim other ↦ ¬ contradicts claim other ∧ ¬ contradicts other claim := by
  have hnone : ∀ claim ∈ leadingClaims articles, ¬ contradicted articles claim := by
    intro claim hclaim hmarked
    rw [hasContradiction_eq, hearly.seen (any_eq_true.mpr ⟨claim, hclaim, hmarked⟩)] at h
    cases h
  have hpair : ∀ text ∈ leadingClaims articles, ∀ claim ∈ leadingClaims articles, ¬ contradicts text claim :=
    fun text htext claim hclaim hcontra ↦ hnone claim hclaim (any_eq_true.mpr ⟨text, htext, hcontra⟩)
  exact pairwise_of_forall_mem_list fun claim hclaim other hother ↦
    ⟨hpair claim hclaim other hother, hpair other hother claim hclaim⟩

/-- The gate is exact for a cluster that is unsafe or lacks the sources, and otherwise exactly if every article
with a contradicted claim, put behind all articles without one, still has its first contradicted claim among
the first eight. -/
theorem riskGate_exact_iff (cluster : StoryCluster) (articles : List NormalizedArticle)
    (hrisk : cluster.riskLevel = .risky ∨ isHighRiskTopic cluster articles) :
    GateExact cluster articles ↔
      cluster.riskLevel = .unsafeContent ∨ tier1Count articles < 2 ∨
        AlwaysEarly consideredClaims (contradicted articles) 8 articles := by
  have hgate : ∀ articles', articles'.Perm articles → (checkRiskGate cluster articles').1 =
      if cluster.riskLevel = .unsafeContent then some .unsafeContent
      else if tier1Count articles < 2 then some .insufficientTier1Confirmation
      else if seenEarly consideredClaims (contradicted articles) 8 articles' then some .contradictoryClaims
      else none := by
    intro articles' hperm
    rw [gate_of_highRisk (HighRisk.perm hrisk hperm), tier1Count_perm hperm, hasContradiction_eq,
      contradicted_perm hperm]
  by_cases hgraphic : cluster.riskLevel = .unsafeContent
  · refine iff_of_true (.of_blocked .unsafeContent fun articles' hperm ↦ ?_) (.inl hgraphic)
    rw [hgate articles' hperm, if_pos hgraphic]
  · by_cases hcount : tier1Count articles < 2
    · refine iff_of_true (.of_blocked .insufficientTier1Confirmation fun articles' hperm ↦ ?_)
        (.inr (.inl hcount))
      rw [hgate articles' hperm, if_neg hgraphic, if_pos hcount]
    · have hlength : ∀ article ∈ articles, (consideredClaims article).length ≤ 8 := by
        intro article _
        exact Nat.le_trans (length_take_le 3 _) (by decide)
      simp only [hgraphic, hcount, if_false, false_or] at hgate ⊢
      constructor
      · rintro ⟨-, hsame⟩
        refine (seenEarly_perm_iff hlength).mp fun articles' hperm ↦ ?_
        have hverdict := hsame articles' hperm
        rw [hgate articles' hperm, hgate articles (.refl _)] at hverdict
        cases hseen' : seenEarly consideredClaims (contradicted articles) 8 articles' <;>
          cases hseen : seenEarly consideredClaims (contradicted articles) 8 articles <;>
          simp [hseen, hseen'] at hverdict ⊢
      · intro hearly
        refine ⟨fun weighted hworthy ↦ ⟨Nat.not_lt.mp hcount, ?_⟩, fun articles' hperm ↦ ?_⟩
        · refine no_contradiction_of_unseen hearly ?_
          have hpassed := gate_of_worthy hworthy
          rw [hgate articles (.refl _), ← hasContradiction_eq] at hpassed
          cases hseen : hasContradiction articles with
          | false => rfl
          | true =>
            rw [hseen, if_pos rfl] at hpassed
            cases hpassed
        · rw [hgate articles' hperm, hgate articles (.refl _), (seenEarly_perm_iff hlength).mpr hearly _ hperm]

def authoritativeArticle (sourceName : String) (claims : List String) : NormalizedArticle where
  tenantId := "t"
  rawArticleId := 0
  title := ""
  summary := none
  body := ""
  sourceName := sourceName
  publishedAt := none
  keywords := []
  topicTags := []
  embedding := []
  contentVertical := "general"
  sourceTier := "authoritative"
  claims := claims
  createdAt := 0

def riskyCluster : StoryCluster where
  tenantId := "t"
  headline := ""
  summary := ""
  primaryTopic := ""
  representativeArticleId := 0
  riskLevel := .risky
  createdAt := 0

/-- Two claims that contradict each other, in a short list: the gate is exact. -/
theorem short_list_exact :
    GateExact riskyCluster [authoritativeArticle "A" ["bank raises rates"],
      authoritativeArticle "B" ["bank never raises rates"]] :=
  (riskGate_exact_iff riskyCluster _ (.inl rfl)).mpr (.inr (.inr (by
    unfold AlwaysEarly
    decide +kernel)))

/-- Two claims that contradict each other, behind nine others. -/
def lateContradiction : List NormalizedArticle :=
  [authoritativeArticle "A" ["a", "b", "c"], authoritativeArticle "B" ["d", "e", "f"],
    authoritativeArticle "C" ["g", "h", "i"], authoritativeArticle "D" ["bank raises rates"],
    authoritativeArticle "E" ["bank never raises rates"]]

/-- The contradiction is not seen and the cluster is worthy; in the reverse order it is blocked. -/
theorem unseen_contradiction : ¬ GateExact riskyCluster lateContradiction := by
  rintro ⟨-, hsame⟩
  have hverdict := hsame lateContradiction.reverse (reverse_perm _)
  revert hverdict
  decide +kernel

end ContentGenerator.StoryIntelligence

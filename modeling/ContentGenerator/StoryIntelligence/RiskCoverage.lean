import ContentGenerator.StoryIntelligence.Memberships

/-!
# Risky articles and the gate

The gate looks at the risk level of the cluster, which is that of the article that started it; an article that
joins later does not raise it. Main result: `worthy_clusters_safe`, that worthy clusters hold no unsafe article,
and risky ones only behind the gate for them, in every state of a run in which the level of a cluster covers
every article that joins it.
-/

namespace ContentGenerator.StoryIntelligence

open Lib Lib.Action Workflows SourceIngestion List Option
open Char (isDigit)
open StoryOp (apply)

variable {article : NormalizedArticle} {id : ℕ}

/-! ### What is claimed of worthy clusters -/

/-- Two authoritative sources and no contradiction: the way through the gate for a risky cluster. -/
def RiskBranchPassed (articles : List NormalizedArticle) : Prop :=
  2 ≤ tier1Count articles ∧ hasContradiction articles = false

/-- A worthy cluster holds no unsafe article, and a risky one only if its articles pass the gate for risky
clusters. No article joins without a scoring pass on the articles that are then there. -/
def WorthyClustersSafe (db : StoryDb) : Prop :=
  ∀ id cluster, db.storyClusters.find id = some cluster → cluster.worthyForContent →
    (∀ article ∈ db.listNormalizedForCluster id, riskLevelOf article.keywords ≠ .unsafeContent) ∧
      ((∃ article ∈ db.listNormalizedForCluster id, riskLevelOf article.keywords = .risky) →
        RiskBranchPassed (db.listNormalizedForCluster id))

/-- The level of a cluster is high enough for an article of that level. -/
def RiskLevel.Covers (level article : RiskLevel) : Prop :=
  (article = .unsafeContent → level = .unsafeContent) ∧
    (article = .risky → level = .risky ∨ level = .unsafeContent)

instance (level article : RiskLevel) : Decidable (level.Covers article) := inferInstanceAs (Decidable (_ ∧ _))

/-- If the pass puts an article into a cluster that is there, the level of the cluster covers it. -/
def Pass.Covered (isdigit : Char → Bool) (db : StoryDb) : Pass → Prop
  | .persistEnriched args => ∀ source raw,
      db.ingestion.getSource args.tenantId args.sourceId = some source →
      db.ingestion.rawArticles.find args.rawId = some raw → db.Admits isdigit args source raw →
      ∀ clusterId cluster, db.matchedCluster args = some clusterId →
        db.storyClusters.find clusterId = some cluster →
        cluster.riskLevel.Covers (riskLevelOf (db.articleFor isdigit args source raw).2.keywords)
  | _ => True

/-- An operator puts no article into a cluster. -/
def StoryOp.Covered (isdigit : Char → Bool) (db : StoryDb) : StoryOp → Prop
  | .automatic pass => pass.Covered isdigit db
  | .act .. => True

theorem RiskLevel.covers_refl (level : RiskLevel) : level.Covers level := ⟨id, .inl⟩

/-! ### The invariant -/

/-- The cluster passes the gate of its level if it is worthy. -/
def StoryDb.GatedAt (db : StoryDb) (id : ℕ) : Prop :=
  ∀ cluster, db.storyClusters.find id = some cluster → cluster.worthyForContent →
    cluster.riskLevel ≠ .unsafeContent ∧
      (cluster.riskLevel = .risky → RiskBranchPassed (db.listNormalizedForCluster id))

/-- The memberships are consistent, the level of a cluster covers its articles, and worthy clusters pass their
gate. -/
structure RiskCovered (db : StoryDb) : Prop where
  consistent : Consistent db
  covered : ∀ id cluster, db.storyClusters.find id = some cluster →
    ∀ article ∈ db.listNormalizedForCluster id, cluster.riskLevel.Covers (riskLevelOf article.keywords)
  gated : ∀ id, db.GatedAt id

variable {isdigit : Char → Bool} {db db' : StoryDb}

theorem RiskCovered.safe (h : RiskCovered db) : WorthyClustersSafe db := by
  intro id cluster hfind hworthy
  obtain ⟨hnotUnsafe, hrisky⟩ := h.gated id cluster hfind hworthy
  refine ⟨fun article harticle hgraphic ↦ ?_, ?_⟩
  · exact hnotUnsafe ((h.covered id cluster hfind article harticle).1 hgraphic)
  · rintro ⟨article, harticle, hlevel⟩
    exact hrisky (((h.covered id cluster hfind article harticle).2 hlevel).resolve_right hnotUnsafe)

def riskColumns (cluster : StoryCluster) : RiskLevel × Bool := (cluster.riskLevel, cluster.worthyForContent)

/-- The clusters are the same but for what neither level nor worth show. -/
theorem RiskCovered.congr (hdb : RiskCovered db) (h : SameTables riskColumns db db')
    (hcounts : SameMemberships db db') : RiskCovered db' where
  consistent := hdb.consistent.congr hcounts
  covered id cluster' hfind := by
    obtain ⟨cluster, hcluster, hcolumns⟩ := h.find hfind
    obtain ⟨hlevel, -⟩ := Prod.mk.inj hcolumns
    rw [h.listNormalizedForCluster, ← hlevel]
    exact hdb.covered id cluster hcluster
  gated id cluster' hfind hworthy := by
    obtain ⟨cluster, hcluster, hcolumns⟩ := h.find hfind
    obtain ⟨hlevel, hworth⟩ := Prod.mk.inj hcolumns
    rw [h.listNormalizedForCluster, ← hlevel]
    exact hdb.gated id cluster hcluster (hworth.trans hworthy)

/-! ### Scoring -/

/-- The gate lets through what its level allows. -/
theorem gate_passed {cluster : StoryCluster} {articles : List NormalizedArticle}
    (h : (checkRiskGate cluster articles).1 = none) :
    cluster.riskLevel ≠ .unsafeContent ∧ (cluster.riskLevel = .risky → RiskBranchPassed articles) := by
  unfold checkRiskGate at h
  dsimp only at h
  split_ifs at h with hgraphic hgate hcount hcontradiction
  · exact ⟨hgraphic, fun _ ↦ ⟨Nat.not_lt.mp hcount, eq_false_of_ne_true hcontradiction⟩⟩
  · exact ⟨hgraphic, fun hrisky ↦ absurd (.inl hrisky) hgate⟩

theorem riskLevel_scoreCluster (weighted : ℚ) (articles : List NormalizedArticle) (cluster : StoryCluster) :
    (scoreCluster weighted articles cluster).riskLevel = cluster.riskLevel :=
  (scoreCluster_columns weighted articles cluster).2.2.1

/-- A scoring pass makes good what has been left open for its cluster. -/
theorem RiskCovered.of_scoreAndSync (clusterId : ℕ) (weighted : ℚ) (now : Time) (hconsistent : Consistent db)
    (hcovered : ∀ id cluster, db.storyClusters.find id = some cluster →
      ∀ article ∈ db.listNormalizedForCluster id, cluster.riskLevel.Covers (riskLevelOf article.keywords))
    (hgated : ∀ id, id ≠ clusterId → db.GatedAt id) : RiskCovered (db.scoreAndSync clusterId weighted now) := by
  have hsame : SameTables (fun cluster : StoryCluster ↦ cluster.riskLevel) db
      (db.scoreAndSync clusterId weighted now) := sameTables_scoreAndSync riskLevel_scoreCluster _ _ _ _
  refine ⟨hconsistent.congr (sameTables_scoreAndSync articleCount_scoreCluster _ _ _ _), ?_, ?_⟩
  · intro id cluster' hfind
    obtain ⟨cluster, hcluster, hlevel⟩ := hsame.find hfind
    rw [hsame.listNormalizedForCluster, ← hlevel]
    exact hcovered id cluster hcluster
  · intro id cluster' hfind hworthy
    rw [find_scoreAndSync] at hfind
    rw [hsame.listNormalizedForCluster]
    split_ifs at hfind with hid
    · obtain ⟨cluster, hcluster, rfl⟩ := map_eq_some_iff.mp hfind
      rw [riskLevel_scoreCluster, hid]
      exact gate_passed (gate_of_worthy hworthy)
    · exact hgated id hid cluster' hfind hworthy

theorem RiskCovered.rescoreActiveClusters (h : RiskCovered db) (tenantId : String) (weighted : ℕ → ℚ)
    (now : Time) : RiskCovered (db.rescoreActiveClusters tenantId weighted now) := by
  refine foldl_invariant (P := RiskCovered) (fun db' clusterId _ hdb ↦ ?_) h
  unfold StoryDb.rescore
  split_ifs
  · exact hdb
  · exact .of_scoreAndSync clusterId _ now hdb.consistent hdb.covered fun id _ ↦ hdb.gated id

/-! ### Joining -/

variable {args : EnrichedArgs} {source : Source} {raw : RawArticle}

theorem mem_listNormalizedForCluster :
    article ∈ db.listNormalizedForCluster id ↔ ∃ row ∈ db.clusterArticles, row.storyClusterId = id ∧
      db.normalizedArticles.find row.normalizedArticleId = some article := by
  unfold StoryDb.listNormalizedForCluster StoryDb.rowsOf
  rw [mem_insertionSort, mem_filterMap]
  refine exists_congr fun row ↦ ?_
  rw [mem_filter, decide_eq_true_iff, and_assoc]

/-- An article of a cluster after the membership has been written: it has joined, or it was there. -/
theorem mem_list_joined (h : Consistent db)
    (hmem : article ∈ (db.joined isdigit args source raw).listNormalizedForCluster id) :
    id = db.clusterFor args ∧ article = (db.articleFor isdigit args source raw).2 ∨
      article ∈ db.listNormalizedForCluster id := by
  obtain ⟨cluster, hprepared, -⟩ := find_prepared db isdigit args source raw
  obtain ⟨row, hrow, hid, harticle⟩ := mem_listNormalizedForCluster.mp hmem
  have hrows := congrArg StoryDb.clusterArticles (joined_of_find hprepared)
  rw [hrows] at hrow
  rcases mem_append.mp hrow with hold | hnew
  · right
    rw [← find_joined_of_stored hprepared (h.references row hold).2] at harticle
    exact mem_listNormalizedForCluster.mpr ⟨row, hold, hid, harticle⟩
  · left
    obtain rfl := mem_singleton.mp hnew
    refine ⟨hid.symm, ?_⟩
    rw [membershipRow, ← find_articleFor hprepared] at harticle
    exact (Option.some.inj harticle).symm

/-- The articles of the other clusters stay. -/
theorem list_joined_of_ne (h : Consistent db) (hid : id ≠ db.clusterFor args) :
    (db.joined isdigit args source raw).listNormalizedForCluster id = db.listNormalizedForCluster id := by
  obtain ⟨cluster, hprepared, -⟩ := find_prepared db isdigit args source raw
  have hrows : (db.joined isdigit args source raw).rowsOf id = db.rowsOf id := by
    unfold StoryDb.rowsOf
    rw [congrArg StoryDb.clusterArticles (joined_of_find hprepared)]
    rw [filter_append_row, membershipRow, if_neg hid, append_nil]
  unfold StoryDb.listNormalizedForCluster
  rw [hrows]
  refine congrArg _ (filterMap_congr fun row hrow ↦ ?_)
  exact (find_joined_of_stored hprepared (h.references row (mem_filter.mp hrow).1).2).symm

/-- The level of the cluster that is joined covers the article, and the others are left alone. -/
theorem RiskCovered.persisted (h : RiskCovered db) (hadmits : db.Admits isdigit args source raw)
    (hcovers : ∀ clusterId cluster, db.matchedCluster args = some clusterId →
      db.storyClusters.find clusterId = some cluster →
      cluster.riskLevel.Covers (riskLevelOf (db.articleFor isdigit args source raw).2.keywords)) :
    RiskCovered (db.persisted isdigit args source raw) := by
  obtain ⟨cluster, hprepared, hcluster⟩ := find_prepared db isdigit args source raw
  have hclusters := find_joined hprepared
  refine .of_scoreAndSync _ _ _ (h.consistent.joined hadmits) ?_ ?_
  · intro id found hfind article harticle
    rw [hclusters] at hfind
    split_ifs at hfind with hid
    · cases hfind
      rcases hcluster with ⟨hmatch, hstored⟩ | ⟨-, hnew, rfl⟩
      · rcases mem_list_joined h.consistent harticle with ⟨-, rfl⟩ | hold
        · exact hcovers _ cluster hmatch hstored
        · exact h.covered id cluster (hid ▸ hstored) article hold
      · rcases mem_list_joined h.consistent harticle with ⟨-, rfl⟩ | hold
        · exact RiskLevel.covers_refl _
        · -- a cluster that is not there has no articles
          obtain ⟨row, hrow, hrowId, -⟩ := mem_listNormalizedForCluster.mp hold
          have hsome := (h.consistent.references row hrow).1
          rw [hrowId, hid, hnew] at hsome
          exact absurd hsome Bool.false_ne_true
    · rw [list_joined_of_ne h.consistent hid] at harticle
      exact h.covered id found hfind article harticle
  · intro id hid found hfind hworthy
    rw [hclusters, if_neg hid] at hfind
    rw [list_joined_of_ne h.consistent hid]
    exact h.gated id found hfind hworthy

/-! ### Runs -/

theorem RiskCovered.expireStaleCandidates (h : RiskCovered db) (tenantId : String) (now : Time) :
    RiskCovered (db.expireStaleCandidates tenantId now) :=
  h.congr (sameTables_expireStaleCandidates (fun _ _ ↦ rfl) _ _ _)
    (sameTables_expireStaleCandidates (fun _ _ ↦ rfl) _ _ _)

theorem RiskCovered.pass (h : RiskCovered db) {pass : Pass} (hpass : pass.Covered isdigit db) :
    RiskCovered (pass.apply isdigit db) := by
  cases pass with
  | ingest tables => exact h.congr ⟨rfl, rfl, fun _ ↦ rfl⟩ ⟨rfl, rfl, fun _ ↦ rfl⟩
  | persistEnriched args =>
    change RiskCovered ((persistEnriched isdigit args).final db)
    unfold Action.final
    rcases persistEnriched_cases isdigit args db with
      ⟨exc, herror⟩ | ⟨source, raw, hsource, hraw, hadmits, hok⟩
    · rw [herror]
      exact h
    · rw [hok]
      exact h.persisted hadmits (hpass source raw hsource hraw hadmits)
  | rescore tenantId weighted now => exact h.rescoreActiveClusters tenantId weighted now
  | expire tenantId now | list tenantId status limit now => exact h.expireStaleCandidates tenantId now
  | detail tenantId candidateId now => exact h.expireStaleCandidates tenantId now

theorem RiskCovered.apply (h : RiskCovered db) {op : StoryOp} (hop : op.Covered isdigit db) :
    RiskCovered (op.apply isdigit db) := by
  cases op with
  | automatic pass => exact h.pass hop
  | act tenantId candidateId action now =>
    exact h.congr (sameTables_applyCandidateAction (fun _ _ ↦ rfl) _ _ _ _ _)
      (sameTables_applyCandidateAction (fun _ _ ↦ rfl) _ _ _ _ _)

theorem riskCovered_empty : RiskCovered {} where
  consistent := consistent_empty
  covered _ cluster hfind := absurd hfind.symm (some_ne_none cluster)
  gated _ cluster hfind := absurd hfind.symm (some_ne_none cluster)

/-- In a run in which the level of a cluster covers every article that joins it, worthy clusters are safe in
every state. -/
theorem worthy_clusters_safe (isdigit : Char → Bool) (ops : List StoryOp)
    (hcovered : Along (apply isdigit) (fun db op ↦ op.Covered isdigit db) ops {}) :
    ∀ before after, ops = before ++ after → WorthyClustersSafe (play (apply isdigit) before {}) := by
  rintro before after rfl
  have hbefore := ((along_append before after _).mp hcovered).1
  have hstep : ∀ (db : StoryDb) (op : StoryOp), RiskCovered db → op.Covered isdigit db →
      RiskCovered (op.apply isdigit db) := fun _ _ h hop ↦ h.apply hop
  exact (hbefore.invariant hstep riskCovered_empty).safe

/-! ### An unsafe article joins a safe cluster -/

/-- A story, a second report of it and a graphic one, and two reports of an attack, from one source. -/
def quayTables : SourceIngestion.Database :=
  let report (title : String) : RawArticle :=
    { tenantId := "t1", sourceId := 0, fetchRunId := none, url := title, canonicalUrl := title, dedupeKey := none
      titleNormalized := none, contentHash := title, title, summary := none, body := none, author := none
      language := none, publishedAt := none, sourceMetadata := [], createdAt := 0 }
  { sources := .single 0 { tenantId := "t1", name := "Gazette" }
    rawArticles := ((((KeyedTable.single 0 (report "Quay opens")).insertNew 1
      (report "Quay open")).insertNew 2 (report "Graphic quay")).insertNew 3 (report "Harbour attack")).insertNew 4
      (report "Attack on harbour") }

/-- A report is stored as `enrich_raw_articles_outside_db` stores it, with the cluster it is found to belong to. -/
def storeReport (rawId : ℕ) (matchedClusterId : Option ℕ) (embedding : List ℚ) : StoryOp :=
  .automatic (.persistEnriched
    { tenantId := "t1", sourceId := 0, rawId, embedding, matchedClusterId
      clusterSummary := if matchedClusterId = none then some "A quay." else none
      reuseNormalizedId := none, weighted := 1 / 2, now := rawId })

/-- The two safe reports start a cluster and join it, the two risky ones another. -/
def quayReports : List StoryOp :=
  [.automatic (.ingest quayTables), storeReport 0 none [1, 0], storeReport 1 (some 1) [1, 1 / 2],
    storeReport 3 none [0, 1], storeReport 4 (some 2) [0, 1]]

/-- The level of the cluster that a report joins is looked up, and covers the report. -/
theorem covered_of_matched {db : StoryDb} {args : EnrichedArgs}
    (h : (db.ingestion.getSource args.tenantId args.sourceId).all (fun source ↦
      (db.ingestion.rawArticles.find args.rawId).all fun raw ↦
        (db.matchedCluster args).all fun clusterId ↦
          (db.storyClusters.find clusterId).all fun cluster ↦
            cluster.riskLevel.Covers (riskLevelOf (db.articleFor isdigit args source raw).2.keywords)) = true) :
    (Pass.persistEnriched args).Covered isdigit db := by
  intro source raw hsource hraw _ clusterId cluster hmatched hcluster
  rw [hsource, hraw, hmatched, all_some, all_some, all_some, hcluster, all_some] at h
  exact of_decide_eq_true h

/-- The cluster of the safe reports and that of the risky ones are safe in every state. -/
theorem worthy_clusters_safe_quay :
    (((play (apply isDigit) quayReports {}).listNormalizedForCluster 2).map fun article ↦
        riskLevelOf article.keywords) = [.risky, .risky] ∧
      ∀ before after, quayReports = before ++ after →
        WorthyClustersSafe (play (apply isDigit) before {}) := by
  have hcovered : Along (apply isDigit) (fun db op ↦ op.Covered isDigit db) quayReports {} :=
    ⟨trivial, covered_of_matched (by decide +kernel), covered_of_matched (by decide +kernel),
      covered_of_matched (by decide +kernel), covered_of_matched (by decide +kernel), trivial⟩
  exact ⟨by decide +kernel, worthy_clusters_safe isDigit quayReports hcovered⟩

def graphicReport : List StoryOp :=
  [.automatic (.ingest quayTables), storeReport 0 none [1, 0], storeReport 2 (some 1) [1, 1 / 2]]

/-- The cluster is worthy of content with an unsafe article in it. -/
theorem graphic_article_joins :
    ¬ ∀ before after, graphicReport = before ++ after →
      WorthyClustersSafe (play (apply isDigit) before {}) := by
  intro h
  have hsafe := h graphicReport [] (append_nil _).symm
  have hworthy : ((play (apply isDigit) graphicReport {}).storyClusters.find 1).map
      (·.worthyForContent) = some true := by decide +kernel
  have hgraphic : ((play (apply isDigit) graphicReport {}).listNormalizedForCluster 1).any
      (fun article ↦ riskLevelOf article.keywords = .unsafeContent) = true := by decide +kernel
  obtain ⟨cluster, hfind, hworth⟩ := map_eq_some_iff.mp hworthy
  obtain ⟨article, harticle, hgraphic⟩ := List.any_eq_true.mp hgraphic
  exact (hsafe 1 cluster hfind hworth).1 article harticle (of_decide_eq_true hgraphic)

end ContentGenerator.StoryIntelligence

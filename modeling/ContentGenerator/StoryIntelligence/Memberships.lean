import ContentGenerator.StoryIntelligence.Persist
import ContentGenerator.StoryIntelligence.Effects
import ContentGenerator.Lib.Play

/-!
# Clusters and their members

The count of a cluster, the ranks and the primary flags of its rows are consistent in every state. The
enrichment of an article that is in the matched cluster already breaks the uniqueness of the rows and ends the
whole call. Main result: `enrichment_total_iff`, when a call enriches all its articles and repeating it leaves
the memberships as they are.
-/

namespace ContentGenerator.StoryIntelligence

open Lib Lib.Action Workflows SourceIngestion List Option
open StoryOp (apply)

/-! ### Consistent memberships -/

def StoryClusterArticle.pair (row : StoryClusterArticle) : ℕ × ℕ := (row.storyClusterId, row.normalizedArticleId)

/-- No article is in a cluster twice, a row refers to what is there, the rows of a cluster are ranked from one
to its count and one of them is primary, and every normalized article is in a cluster. -/
structure Consistent (db : StoryDb) : Prop where
  unique : (db.clusterArticles.map StoryClusterArticle.pair).Nodup
  references : ∀ row ∈ db.clusterArticles, (db.storyClusters.find row.storyClusterId).isSome ∧
    (db.normalizedArticles.find row.normalizedArticleId).isSome
  articleCount : ∀ id cluster, db.storyClusters.find id = some cluster →
    (db.rowsOf id).length = cluster.articleCount
  ranks : ∀ id cluster, db.storyClusters.find id = some cluster →
    (db.rowsOf id).map (·.rank) = range' 1 cluster.articleCount
  primary : ∀ id, (db.storyClusters.find id).isSome → (db.rowsOf id).countP (·.isPrimary) = 1
  members : ∀ id, (db.normalizedArticles.find id).isSome →
    ∃ clusterId, (db.storyClusters.find clusterId).isSome ∧ db.isMember clusterId id

abbrev SameMemberships : StoryDb → StoryDb → Prop := SameTables fun cluster : StoryCluster ↦ cluster.articleCount

variable {isdigit : Char → Bool} {db db' : StoryDb}

theorem Consistent.congr (hdb : Consistent db) (h : SameMemberships db db') : Consistent db' where
  unique := by
    rw [h.clusterArticles]
    exact hdb.unique
  references := by
    rw [h.clusterArticles, h.normalizedArticles]
    intro row hrow
    rw [h.isSome]
    exact hdb.references row hrow
  articleCount id cluster' hfind := by
    obtain ⟨cluster, hcluster, hcount⟩ := h.find hfind
    rw [h.rowsOf, ← hcount]
    exact hdb.articleCount id cluster hcluster
  ranks id cluster' hfind := by
    obtain ⟨cluster, hcluster, hcount⟩ := h.find hfind
    rw [h.rowsOf, ← hcount]
    exact hdb.ranks id cluster hcluster
  primary id hsome := by
    rw [h.rowsOf]
    exact hdb.primary id (h.isSome id ▸ hsome)
  members id hsome := by
    rw [h.normalizedArticles] at hsome
    obtain ⟨clusterId, hcluster, hmember⟩ := hdb.members id hsome
    refine ⟨clusterId, ?_, ?_⟩
    · rw [h.isSome]
      exact hcluster
    · rw [h.isMember]
      exact hmember

/-! ### The step that joins an article -/

variable {args : EnrichedArgs} {source : Source} {raw : RawArticle}

theorem isMember_iff {clusterId id : ℕ} :
    db.isMember clusterId id ↔ (clusterId, id) ∈ db.clusterArticles.map StoryClusterArticle.pair := by
  unfold StoryDb.isMember StoryClusterArticle.pair
  rw [List.any_eq_true, List.mem_map]
  refine exists_congr fun row ↦ and_congr_right fun _ ↦ ?_
  rw [decide_eq_true_iff, Prod.mk.injEq]

/-- The rows of the cluster that is joined, before it is. -/
theorem Consistent.rows_prepared (h : Consistent db) {cluster : StoryCluster}
    (hcluster : db.matchedCluster args = some (db.clusterFor args) ∧
        db.storyClusters.find (db.clusterFor args) = some cluster ∨
      db.matchedCluster args = none ∧ db.storyClusters.find (db.clusterFor args) = none ∧
        cluster = startedCluster args (db.articleFor isdigit args source raw)) :
    (db.rowsOf (db.clusterFor args)).length = cluster.articleCount ∧
      (db.rowsOf (db.clusterFor args)).map (·.rank) = range' 1 cluster.articleCount ∧
      (db.rowsOf (db.clusterFor args)).countP (·.isPrimary) = if cluster.articleCount = 0 then 0 else 1 := by
  rcases hcluster with ⟨-, hfind⟩ | ⟨-, hnew, rfl⟩
  · have hprimary := h.primary _ (hfind ▸ isSome_some)
    have hcount := h.articleCount _ _ hfind
    refine ⟨hcount, h.ranks _ _ hfind, ?_⟩
    rw [hprimary, if_neg]
    intro hzero
    have hle := countP_le_length (p := fun row : StoryClusterArticle ↦ row.isPrimary)
      (l := db.rowsOf (db.clusterFor args))
    rw [hprimary, hcount, hzero] at hle
    exact Nat.not_succ_le_zero 0 hle
  · have hrows : db.rowsOf (db.clusterFor args) = [] := by
      unfold StoryDb.rowsOf
      rw [filter_eq_nil_iff]
      intro row hrow hid
      have hsome := (h.references row hrow).1
      rw [of_decide_eq_true hid, hnew] at hsome
      exact Bool.false_ne_true hsome
    rw [hrows]
    exact ⟨rfl, rfl, rfl⟩

/-- One more row, in the cluster it belongs to. -/
theorem filter_append_row (rows : List StoryClusterArticle) (row : StoryClusterArticle) (id : ℕ) :
    (rows ++ [row]).filter (fun row ↦ row.storyClusterId = id) =
      rows.filter (fun row ↦ row.storyClusterId = id) ++ if id = row.storyClusterId then [row] else [] := by
  rw [filter_append]
  by_cases hid : id = row.storyClusterId
  · have hkeeps : decide (row.storyClusterId = id) = true := decide_eq_true hid.symm
    rw [if_pos hid, filter_cons, if_pos hkeeps, filter_nil]
  · have hdrops : ¬ decide (row.storyClusterId = id) = true := fun h ↦ hid (of_decide_eq_true h).symm
    rw [if_neg hid, filter_cons, if_neg hdrops, filter_nil]

/-- An admitted article keeps the memberships consistent. -/
theorem Consistent.joined (h : Consistent db) (hadmits : db.Admits isdigit args source raw) :
    Consistent (db.joined isdigit args source raw) := by
  obtain ⟨cluster, hfind, hcluster⟩ := find_prepared db isdigit args source raw
  obtain ⟨hlength, hranks, hprimary⟩ := h.rows_prepared hcluster
  have hclusters := find_joined hfind
  have hrowsList : (db.joined isdigit args source raw).clusterArticles = db.clusterArticles ++
      [membershipRow (db.clusterFor args) (db.articleFor isdigit args source raw).1 (cluster.articleCount + 1)] := by
    rw [joined_of_find hfind]
  have hrows : ∀ id, (db.joined isdigit args source raw).rowsOf id = db.rowsOf id ++
      if id = db.clusterFor args then [membershipRow (db.clusterFor args)
        (db.articleFor isdigit args source raw).1 (cluster.articleCount + 1)] else [] := by
    intro id
    unfold StoryDb.rowsOf
    rw [hrowsList]
    exact filter_append_row _ _ id
  have hothers : ∀ {id}, id ≠ db.clusterFor args →
      (db.joined isdigit args source raw).rowsOf id = db.rowsOf id := by
    intro id hid
    rw [hrows, if_neg hid, append_nil]
  have hmember : ∀ {clusterId id}, db.isMember clusterId id →
      (db.joined isdigit args source raw).isMember clusterId id := by
    intro clusterId id hold
    rw [isMember_iff] at hold ⊢
    rw [hrowsList, map_append]
    exact mem_append_left _ hold
  refine ⟨?_, ?_, ?_, ?_, ?_, ?_⟩
  · rw [hrowsList, map_append]
    refine List.Nodup.append h.unique (nodup_singleton _) ?_
    intro pair hpair hnew
    obtain rfl := mem_singleton.mp hnew
    exact absurd (isMember_iff.mpr hpair) (ne_true_of_eq_false hadmits.membership)
  · intro row hrow
    rw [hrowsList] at hrow
    rcases mem_append.mp hrow with hold | hnew
    · obtain ⟨hold, hstored⟩ := h.references row hold
      refine ⟨?_, find_joined_of_stored hfind hstored ▸ hstored⟩
      rw [hclusters]
      split_ifs
      · exact isSome_some
      · exact hold
    · obtain rfl := mem_singleton.mp hnew
      refine ⟨?_, find_articleFor hfind ▸ isSome_some⟩
      rw [hclusters, membershipRow, if_pos rfl]
      exact isSome_some
  · intro id found hid
    rw [hclusters] at hid
    split_ifs at hid with heq
    · cases hid
      rw [hrows, if_pos heq, heq, length_append, hlength]
      rfl
    · rw [hothers heq]
      exact h.articleCount id found hid
  · intro id found hid
    rw [hclusters] at hid
    split_ifs at hid with heq
    · cases hid
      rw [hrows, if_pos heq, heq, map_append, hranks, range'_1_concat, Nat.add_comm 1]
      rfl
    · rw [hothers heq]
      exact h.ranks id found hid
  · intro id hid
    rw [hclusters] at hid
    split_ifs at hid with heq
    · -- the first article of a cluster is its primary one, and no later one is
      rw [hrows, if_pos heq, heq, countP_append, hprimary, countP_singleton]
      change _ + (if decide (cluster.articleCount + 1 = 1) = true then 1 else 0) = 1
      by_cases hzero : cluster.articleCount = 0
      · rw [if_pos hzero, hzero]
        rfl
      · rw [if_neg hzero, if_neg (by simpa using hzero)]
    · rw [hothers heq]
      exact h.primary id hid
  · intro id hid
    rcases find_normalized_joined hfind hid with rfl | hold
    · refine ⟨db.clusterFor args, ?_, ?_⟩
      · rw [hclusters, if_pos rfl]
        exact isSome_some
      · rw [isMember_iff, hrowsList, map_append]
        exact mem_append_right _ (mem_singleton_self _)
    · obtain ⟨clusterId, hcluster', hin⟩ := h.members id hold
      refine ⟨clusterId, ?_, hmember hin⟩
      rw [hclusters]
      split_ifs
      · exact isSome_some
      · exact hcluster'

theorem articleCount_scoreCluster (weighted : ℚ) (articles : List NormalizedArticle) (cluster : StoryCluster) :
    (scoreCluster weighted articles cluster).articleCount = cluster.articleCount :=
  (scoreCluster_columns weighted articles cluster).2.1

theorem Consistent.persistEnriched (h : Consistent db) (isdigit : Char → Bool) (args : EnrichedArgs) :
    Consistent ((persistEnriched isdigit args).final db) := by
  unfold Action.final
  rcases persistEnriched_cases isdigit args db with ⟨exc, herror⟩ | ⟨source, raw, -, -, hadmits, hok⟩
  · rw [herror]
    exact h
  · rw [hok]
    exact (h.joined hadmits).congr (sameTables_scoreAndSync articleCount_scoreCluster _ _ _ _)

/-! ### Every reachable state -/

theorem Consistent.pass (h : Consistent db) (isdigit : Char → Bool) (pass : Pass) :
    Consistent (pass.apply isdigit db) := by
  cases pass with
  | ingest tables => exact h.congr ⟨rfl, rfl, fun _ ↦ rfl⟩
  | persistEnriched args => exact h.persistEnriched isdigit args
  | rescore tenantId weighted now => exact h.congr (sameTables_rescoreActiveClusters articleCount_scoreCluster _ _ _ _)
  | expire tenantId now => exact h.congr (sameTables_expireStaleCandidates (fun _ _ ↦ rfl) _ _ _)
  | list tenantId status limit now => exact h.congr (sameTables_expireStaleCandidates (fun _ _ ↦ rfl) _ _ _)
  | detail tenantId candidateId now => exact h.congr (sameTables_expireStaleCandidates (fun _ _ ↦ rfl) _ _ _)

theorem Consistent.apply (h : Consistent db) (isdigit : Char → Bool) (op : StoryOp) :
    Consistent (op.apply isdigit db) := by
  cases op with
  | automatic pass => exact h.pass isdigit pass
  | act tenantId candidateId action now => exact h.congr (sameTables_applyCandidateAction (fun _ _ ↦ rfl) _ _ _ _ _)

theorem consistent_empty : Consistent {} where
  unique := nodup_nil
  references _ hrow := absurd hrow not_mem_nil
  articleCount _ cluster hfind := absurd hfind.symm (some_ne_none cluster)
  ranks _ cluster hfind := absurd hfind.symm (some_ne_none cluster)
  primary _ hsome := absurd hsome Bool.false_ne_true
  members _ hsome := absurd hsome Bool.false_ne_true

/-- The memberships are consistent in every state. -/
theorem consistent_play (isdigit : Char → Bool) (ops : List StoryOp) :
    Consistent (play (apply isdigit) ops {}) := by
  have hstep : ∀ (db : StoryDb) (op : StoryOp), Consistent db → Consistent (op.apply isdigit db) :=
    fun _ op h ↦ h.apply isdigit op
  exact play_invariant hstep ops consistent_empty

/-! ### Enriching a list of articles -/

/-- If the raw article is loaded, its membership is admitted. -/
def StoryDb.Fresh (db : StoryDb) (isdigit : Char → Bool) (cosine : List ℚ → List ℚ → ℚ) (tenantId : String)
    (sourceId : ℕ) (item : EnrichItem) : Prop :=
  ∀ source raw, db.ingestion.getSource tenantId sourceId = some source →
    db.loads tenantId sourceId item.rawId = some raw →
      db.Admits isdigit (db.enrichedArgs cosine tenantId sourceId item raw) source raw

/-- The call returns, the memberships are consistent after it, and the second call leaves them as they are. -/
structure Enriches (isdigit : Char → Bool) (cosine : List ℚ → List ℚ → ℚ) (tenantId : String) (sourceId : ℕ)
    (items again : List EnrichItem) (db : StoryDb) : Prop where
  returns : ∃ clusterIds, (enrichRawArticles isdigit cosine tenantId sourceId items db).1 = .ok clusterIds
  consistent : Consistent ((enrichRawArticles isdigit cosine tenantId sourceId items).final db)
  repeatable : ((enrichRawArticles isdigit cosine tenantId sourceId again).final
      ((enrichRawArticles isdigit cosine tenantId sourceId items).final db)).clusterArticles =
    ((enrichRawArticles isdigit cosine tenantId sourceId items).final db).clusterArticles

variable {cosine : List ℚ → List ℚ → ℚ} {tenantId : String} {sourceId : ℕ} {item : EnrichItem}

theorem loads_eq_some_iff {rawId : ℕ} :
    db.loads tenantId sourceId rawId = some raw ↔
      (∃ source, db.ingestion.getSource tenantId sourceId = some source) ∧
        db.ingestion.rawArticles.find rawId = some raw ∧ raw.tenantId = tenantId := by
  unfold StoryDb.loads
  rw [bind_eq_some_iff, exists_and_right, filter_eq_some_iff, decide_eq_true_iff]

theorem enrichRawArticle_of_not_loaded (h : db.loads tenantId sourceId item.rawId = none) :
    enrichRawArticle isdigit cosine tenantId sourceId item db = (.ok none, db) := by
  unfold enrichRawArticle
  rw [h]

theorem enrichRawArticle_of_fresh (h : db.loads tenantId sourceId item.rawId = some raw)
    (hfresh : db.Fresh isdigit cosine tenantId sourceId item) :
    ∃ clusterId source, enrichRawArticle isdigit cosine tenantId sourceId item db =
      (.ok (some clusterId), db.persisted isdigit (db.enrichedArgs cosine tenantId sourceId item raw) source raw) := by
  obtain ⟨⟨source, hsource⟩, hraw, -⟩ := loads_eq_some_iff.mp h
  refine ⟨db.clusterFor (db.enrichedArgs cosine tenantId sourceId item raw), source, ?_⟩
  unfold enrichRawArticle
  rw [h]
  dsimp only
  rw [persistEnriched_of_admits hsource hraw (hfresh source raw hsource h)]

theorem enrichRawArticle_of_not_fresh (hfresh : ¬ db.Fresh isdigit cosine tenantId sourceId item) :
    (db.loads tenantId sourceId item.rawId).isSome ∧
      ∃ exc, enrichRawArticle isdigit cosine tenantId sourceId item db = (.error exc, db) := by
  unfold StoryDb.Fresh at hfresh
  push Not at hfresh
  obtain ⟨source, raw, hsource, hloads, hnot⟩ := hfresh
  refine ⟨hloads ▸ isSome_some, ?_⟩
  obtain ⟨exc, hexc⟩ := persistEnriched_of_not_admits hsource (loads_eq_some_iff.mp hloads).2.1 hnot
  refine ⟨exc, ?_⟩
  unfold enrichRawArticle
  rw [hloads]
  dsimp only
  rw [hexc]

/-- What `_persist_enriched` keeps is kept at every article of the loop. -/
theorem keeps_enrichRawArticles {Inv : StoryDb → Prop} (h : ∀ args, Keeps Inv (persistEnriched isdigit args))
    (items : List EnrichItem) : Keeps Inv (enrichRawArticles isdigit cosine tenantId sourceId items) := by
  induction items with
  | nil => exact keeps_pure []
  | cons item rest ih =>
    refine keeps_bind (fun db hdb ↦ ?_) fun _ ↦ keeps_bind ih fun _ ↦ keeps_pure _
    unfold enrichRawArticle
    cases hloads : db.loads tenantId sourceId item.rawId with
    | none => exact hdb
    | some raw =>
      have hkept := h (db.enrichedArgs cosine tenantId sourceId item raw) db hdb
      dsimp only
      cases hresult : persistEnriched isdigit (db.enrichedArgs cosine tenantId sourceId item raw) db with
      | mk result stored =>
        rw [hresult] at hkept
        cases result <;> exact hkept

theorem exists_ok_of_fresh (hfresh : db.Fresh isdigit cosine tenantId sourceId item) :
    ∃ clusterId db', enrichRawArticle isdigit cosine tenantId sourceId item db = (.ok clusterId, db') := by
  cases hloads : db.loads tenantId sourceId item.rawId with
  | none => exact ⟨none, db, enrichRawArticle_of_not_loaded hloads⟩
  | some raw =>
    obtain ⟨clusterId, source, heq⟩ := enrichRawArticle_of_fresh hloads hfresh
    exact ⟨_, _, heq⟩

/-- The loop goes on with the tables that an article leaves. -/
theorem enrichRawArticles_cons_of_ok {clusterId : Option ℕ} (rest : List EnrichItem)
    (h : enrichRawArticle isdigit cosine tenantId sourceId item db = (.ok clusterId, db')) :
    enrichRawArticles isdigit cosine tenantId sourceId (item :: rest) db =
      (((enrichRawArticles isdigit cosine tenantId sourceId rest db').1.map (clusterId.toList ++ ·)),
        (enrichRawArticles isdigit cosine tenantId sourceId rest db').2) := by
  have hcons : enrichRawArticles isdigit cosine tenantId sourceId (item :: rest) db =
      (enrichRawArticle isdigit cosine tenantId sourceId item >>= fun clusterId ↦
        enrichRawArticles isdigit cosine tenantId sourceId rest >>= fun clusterIds ↦
          pure (clusterId.toList ++ clusterIds)) db := rfl
  rw [hcons, bind_of_ok h]
  cases hrest : enrichRawArticles isdigit cosine tenantId sourceId rest db' with
  | mk result stored =>
    cases result with
    | ok clusterIds =>
      rw [bind_of_ok hrest]
      rfl
    | error exc =>
      rw [bind_of_error hrest]
      rfl

theorem enrichRawArticles_cons_of_error {exc : PyException} (rest : List EnrichItem)
    (h : enrichRawArticle isdigit cosine tenantId sourceId item db = (.error exc, db')) :
    enrichRawArticles isdigit cosine tenantId sourceId (item :: rest) db = (.error exc, db') := by
  unfold enrichRawArticles
  exact bind_of_error h

theorem exists_map_eq_ok {α β ε : Type} {f : α → β} {result : Except ε α} :
    (∃ b, result.map f = .ok b) ↔ ∃ a, result = .ok a := by
  cases result with
  | ok a => exact iff_of_true ⟨f a, rfl⟩ ⟨a, rfl⟩
  | error e => exact iff_of_false (fun ⟨_, h⟩ ↦ by cases h) fun ⟨_, h⟩ ↦ by cases h

/-- The call returns exactly when every article is fresh when it is its turn. -/
theorem enrichRawArticles_returns_iff (items : List EnrichItem) (db : StoryDb) :
    (∃ clusterIds, (enrichRawArticles isdigit cosine tenantId sourceId items db).1 = .ok clusterIds) ↔
      Along (fun db item ↦ (enrichRawArticle isdigit cosine tenantId sourceId item).final db)
        (fun db item ↦ db.Fresh isdigit cosine tenantId sourceId item) items db := by
  induction items generalizing db with
  | nil => exact iff_of_true ⟨[], rfl⟩ trivial
  | cons item rest ih =>
    by_cases hfresh : db.Fresh isdigit cosine tenantId sourceId item
    · obtain ⟨clusterId, db', heq⟩ := exists_ok_of_fresh hfresh
      have hfinal : (enrichRawArticle isdigit cosine tenantId sourceId item).final db = db' := congrArg Prod.snd heq
      rw [enrichRawArticles_cons_of_ok rest heq]
      refine (exists_map_eq_ok.trans (ih db')).trans ?_
      rw [← hfinal]
      exact (and_iff_right hfresh).symm
    · obtain ⟨-, exc, heq⟩ := enrichRawArticle_of_not_fresh hfresh
      rw [enrichRawArticles_cons_of_error rest heq]
      exact iff_of_false (fun ⟨_, h⟩ ↦ by cases h) fun h ↦ hfresh h.1

/-- An admitted article adds one row. -/
theorem length_persisted (db : StoryDb) (isdigit : Char → Bool) (args : EnrichedArgs) (source : Source)
    (raw : RawArticle) :
    (db.persisted isdigit args source raw).clusterArticles.length = db.clusterArticles.length + 1 := by
  obtain ⟨cluster, hfind, -⟩ := find_prepared db isdigit args source raw
  unfold StoryDb.persisted
  rw [(sameTables_scoreAndSync articleCount_scoreCluster _ _ _ _).clusterArticles, joined_of_find hfind]
  exact length_append

/-- A block takes no row away. -/
theorem keeps_rows (count : ℕ) (args : EnrichedArgs) :
    Keeps (fun db ↦ count ≤ db.clusterArticles.length) (persistEnriched isdigit args) := by
  intro db hcount
  rcases persistEnriched_cases isdigit args db with ⟨exc, herror⟩ | ⟨source, raw, -, -, -, hok⟩
  · rw [herror]
    exact hcount
  · rw [hok]
    exact hcount.trans (length_persisted db isdigit args source raw ▸ Nat.le_succ _)

/-- A call changes no membership exactly when it fails at the first article it loads, or loads none. -/
theorem enrichRawArticles_idle_iff (items : List EnrichItem) (db : StoryDb) :
    ((enrichRawArticles isdigit cosine tenantId sourceId items).final db).clusterArticles = db.clusterArticles ↔
      ∀ item, items.find? (fun item ↦ (db.loads tenantId sourceId item.rawId).isSome) = some item →
        ¬ db.Fresh isdigit cosine tenantId sourceId item := by
  induction items with
  | nil => exact iff_of_true rfl fun item hfind ↦ by cases hfind
  | cons item rest ih =>
    cases hloads : db.loads tenantId sourceId item.rawId with
    | none =>
      rw [find?_cons_of_neg (by rw [hloads]; exact Bool.false_ne_true), ← ih]
      unfold Action.final
      rw [enrichRawArticles_cons_of_ok rest (enrichRawArticle_of_not_loaded hloads)]
    | some raw =>
      rw [find?_cons_of_pos (by rw [hloads]; exact isSome_some)]
      have hfirst : (∀ found, some item = some found → ¬ db.Fresh isdigit cosine tenantId sourceId found) ↔
          ¬ db.Fresh isdigit cosine tenantId sourceId item :=
        ⟨fun h ↦ h item rfl, fun h found heq ↦ Option.some.inj heq ▸ h⟩
      rw [hfirst]
      unfold Action.final
      by_cases hfresh : db.Fresh isdigit cosine tenantId sourceId item
      · refine iff_of_false (fun hsame ↦ ?_) (not_not_intro hfresh)
        obtain ⟨clusterId, source, heq⟩ := enrichRawArticle_of_fresh hloads hfresh
        rw [enrichRawArticles_cons_of_ok rest heq] at hsame
        have hgrows : db.clusterArticles.length + 1 ≤ (enrichRawArticles isdigit cosine tenantId sourceId rest
            (db.persisted isdigit (db.enrichedArgs cosine tenantId sourceId item raw) source
              raw)).2.clusterArticles.length :=
          keeps_enrichRawArticles (keeps_rows (db.clusterArticles.length + 1)) rest _
            (length_persisted db isdigit (db.enrichedArgs cosine tenantId sourceId item raw) source raw).ge
        dsimp only at hsame
        rw [hsame] at hgrows
        exact Nat.not_succ_le_self _ hgrows
      · obtain ⟨-, exc, heq⟩ := enrichRawArticle_of_not_fresh hfresh
        rw [enrichRawArticles_cons_of_error rest heq]
        exact iff_of_true rfl hfresh

/-- In every state, a call enriches all its articles and a second one leaves the memberships as they are
exactly when every article of the first call is fresh when it is its turn, and the second call loads no
article or fails at the first one it loads. -/
theorem enrichment_total_iff (isdigit : Char → Bool) (cosine : List ℚ → List ℚ → ℚ) (ops : List StoryOp)
    (tenantId : String) (sourceId : ℕ) (items again : List EnrichItem) :
    Enriches isdigit cosine tenantId sourceId items again (play (apply isdigit) ops {}) ↔
      Along (fun db item ↦ (enrichRawArticle isdigit cosine tenantId sourceId item).final db)
          (fun db item ↦ db.Fresh isdigit cosine tenantId sourceId item) items (play (apply isdigit) ops {}) ∧
        ∀ item, again.find? (fun item ↦ (((enrichRawArticles isdigit cosine tenantId sourceId items).final
              (play (apply isdigit) ops {})).loads tenantId sourceId item.rawId).isSome) = some item →
          ¬ ((enrichRawArticles isdigit cosine tenantId sourceId items).final
              (play (apply isdigit) ops {})).Fresh isdigit cosine tenantId sourceId item := by
  have hkeeps : ∀ args, Keeps Consistent (persistEnriched isdigit args) :=
    fun args _ hdb ↦ hdb.persistEnriched isdigit args
  have hconsistent : Consistent ((enrichRawArticles isdigit cosine tenantId sourceId items).final
      (play (apply isdigit) ops {})) :=
    keeps_enrichRawArticles hkeeps items _ (consistent_play isdigit ops)
  rw [← enrichRawArticles_returns_iff, ← enrichRawArticles_idle_iff]
  exact ⟨fun h ↦ ⟨h.returns, h.repeatable⟩, fun h ↦ ⟨h.1, hconsistent, h.2⟩⟩

/-! ### A syndicated story -/

/-- The same story under two addresses of one source. -/
def syndicatedTables : SourceIngestion.Database :=
  let story (url : String) : RawArticle :=
    { tenantId := "t1", sourceId := 0, fetchRunId := none, url, canonicalUrl := url, dedupeKey := none
      titleNormalized := none, contentHash := url, title := "Bridge opens", summary := none
      body := some "The new bridge opens today", author := none, language := none, publishedAt := none
      sourceMetadata := [], createdAt := 0 }
  { sources := .single 0 { tenantId := "t1", name := "Wire" }
    rawArticles := (KeyedTable.single 0 (story "https://a")).insertNew 1 (story "https://b") }

/-- Both are enriched in one call, with one embedding. -/
def syndicated : List EnrichItem := [0, 1].map fun rawId ↦
  { rawId, loadedAt := 3 * rawId, searchedAt := 3 * rawId + 1, persistedAt := 3 * rawId + 2, clusterOrder := id
    articleOrder := id, embedding := [1]
    summary := "A bridge opens.", weighted := 1 / 2 }

/-- The second one is taken for the first one, which is in the matched cluster already. -/
theorem syndicated_story_fails :
    ¬ Enriches Char.isDigit (fun _ _ ↦ 1) "t1" 0 syndicated syndicated
      (play (apply Char.isDigit) [.automatic (.ingest syndicatedTables)] {}) := by
  intro h
  obtain ⟨clusterIds, hreturns⟩ := h.returns
  have hfails : (enrichRawArticles Char.isDigit (fun _ _ ↦ 1) "t1" 0 syndicated
      (play (apply Char.isDigit) [.automatic (.ingest syndicatedTables)] {})).1.toOption = none := by
    decide +kernel
  rw [hreturns] at hfails
  cases hfails

end ContentGenerator.StoryIntelligence

import ContentGenerator.StoryIntelligence.Pipeline

/-!
# Storing an enriched article

What `_persist_enriched` does, by cases: its block is undone, or the membership it writes is admitted, and then
the cluster it joins is a stored one or the one that the article starts. `find_joined` reads a cluster back
after the membership has been written.
-/

namespace ContentGenerator.StoryIntelligence

open Lib Lib.Action Workflows SourceIngestion Option KeyedTable

variable {cluster : StoryCluster} {isdigit : Char → Bool} {db : StoryDb}

/-! ### The block and its cases -/

/-- The membership is new, and the topic of a cluster that is started fits its column. -/
structure StoryDb.Admits (db : StoryDb) (isdigit : Char → Bool) (args : EnrichedArgs) (source : Source)
    (raw : RawArticle) : Prop where
  topic : db.matchedCluster args = none →
    (startedCluster args (db.articleFor isdigit args source raw)).primaryTopic.length ≤ primaryTopicLength
  membership : db.isMember (db.clusterFor args) (db.articleFor isdigit args source raw).1 = false

/-- The tables with the article in its cluster. -/
def StoryDb.joined (db : StoryDb) (isdigit : Char → Bool) (args : EnrichedArgs) (source : Source)
    (raw : RawArticle) : StoryDb :=
  (db.prepared isdigit args source raw).join (db.clusterFor args) (db.articleFor isdigit args source raw).1

def StoryDb.persisted (db : StoryDb) (isdigit : Char → Bool) (args : EnrichedArgs) (source : Source)
    (raw : RawArticle) : StoryDb :=
  (db.joined isdigit args source raw).scoreAndSync (db.clusterFor args) args.weighted args.now

variable {args : EnrichedArgs} {source : Source} {raw : RawArticle}

theorem persistEnriched_of_admits (hsource : db.ingestion.getSource args.tenantId args.sourceId = some source)
    (hraw : db.ingestion.rawArticles.find args.rawId = some raw) (h : db.Admits isdigit args source raw) :
    persistEnriched isdigit args db = (.ok (db.clusterFor args), db.persisted isdigit args source raw) := by
  have htopic : ¬ (db.matchedCluster args = none ∧ primaryTopicLength <
      (startedCluster args (db.articleFor isdigit args source raw)).primaryTopic.length) :=
    fun hlong ↦ Nat.not_lt.mpr (h.topic hlong.1) hlong.2
  have hbody : persistBody isdigit args db = .ok (db.clusterFor args, db.persisted isdigit args source raw) := by
    unfold persistBody
    rw [hsource, hraw]
    dsimp only
    rw [if_neg htopic, if_neg (ne_true_of_eq_false h.membership)]
    rfl
  unfold persistEnriched
  rw [hbody]

theorem persistEnriched_of_not_admits
    (hsource : db.ingestion.getSource args.tenantId args.sourceId = some source)
    (hraw : db.ingestion.rawArticles.find args.rawId = some raw) (h : ¬ db.Admits isdigit args source raw) :
    ∃ exc, persistEnriched isdigit args db = (.error exc, db) := by
  have hbody : ∃ exc, persistBody isdigit args db = .error exc := by
    unfold persistBody
    rw [hsource, hraw]
    dsimp only
    split_ifs with htopic hmember
    · exact ⟨_, rfl⟩
    · exact ⟨_, rfl⟩
    · refine absurd ⟨fun hmatch ↦ ?_, eq_false_of_ne_true hmember⟩ h
      exact Nat.not_lt.mp fun hlong ↦ htopic ⟨hmatch, hlong⟩
  obtain ⟨exc, hexc⟩ := hbody
  refine ⟨exc, ?_⟩
  unfold persistEnriched
  rw [hexc]

/-- The block is undone, or it is admitted. -/
theorem persistEnriched_cases (isdigit : Char → Bool) (args : EnrichedArgs) (db : StoryDb) :
    (∃ exc, persistEnriched isdigit args db = (.error exc, db)) ∨
      ∃ source raw, db.ingestion.getSource args.tenantId args.sourceId = some source ∧
        db.ingestion.rawArticles.find args.rawId = some raw ∧ db.Admits isdigit args source raw ∧
        persistEnriched isdigit args db = (.ok (db.clusterFor args), db.persisted isdigit args source raw) := by
  cases hsource : db.ingestion.getSource args.tenantId args.sourceId with
  | none =>
    left
    unfold persistEnriched persistBody
    rw [hsource]
    exact ⟨_, rfl⟩
  | some source =>
    cases hraw : db.ingestion.rawArticles.find args.rawId with
    | none =>
      left
      unfold persistEnriched persistBody
      rw [hsource, hraw]
      exact ⟨_, rfl⟩
    | some raw =>
      by_cases hadmits : db.Admits isdigit args source raw
      · exact .inr ⟨source, raw, rfl, rfl, hadmits, persistEnriched_of_admits hsource hraw hadmits⟩
      · exact .inl (persistEnriched_of_not_admits hsource hraw hadmits)

/-! ### The cluster that is joined -/

theorem find_prepared (db : StoryDb) (isdigit : Char → Bool) (args : EnrichedArgs) (source : Source)
    (raw : RawArticle) :
    ∃ cluster, (db.prepared isdigit args source raw).storyClusters.find (db.clusterFor args) = some cluster ∧
      (db.matchedCluster args = some (db.clusterFor args) ∧
          db.storyClusters.find (db.clusterFor args) = some cluster ∨
        db.matchedCluster args = none ∧ db.storyClusters.find (db.clusterFor args) = none ∧
          cluster = startedCluster args (db.articleFor isdigit args source raw)) := by
  unfold StoryDb.prepared StoryDb.clusterFor
  dsimp only
  cases hmatch : db.matchedCluster args with
  | none =>
    rw [getD_none]
    exact ⟨_, find_insertNew_self _ _ (find_nextKey _),
      .inr ⟨rfl, find_nextKey _, rfl⟩⟩
  | some id =>
    rw [getD_some]
    obtain ⟨-, hcluster⟩ := filter_eq_some_iff.mp hmatch
    obtain ⟨cluster, hget⟩ := isSome_iff_exists.mp hcluster
    have hfind : db.storyClusters.find id = some cluster := (filter_eq_some_iff.mp hget).1
    refine ⟨cluster, ?_, .inl ⟨rfl, hfind⟩⟩
    rw [find_insertNew, hfind, if_neg fun h ↦ some_ne_none cluster h.2]

theorem StoryDb.join_of_find {clusterId : ℕ}
    (h : db.storyClusters.find clusterId = some cluster) (normalizedId : ℕ) :
    db.join clusterId normalizedId =
      { db with
        storyClusters := db.storyClusters.modify clusterId fun cluster ↦
          { cluster with articleCount := cluster.articleCount + 1 }
        clusterArticles := db.clusterArticles ++
          [membershipRow clusterId normalizedId (cluster.articleCount + 1)] } := by
  unfold StoryDb.join
  rw [h]

/-- The tables with the new membership. -/
theorem joined_of_find
    (h : (db.prepared isdigit args source raw).storyClusters.find (db.clusterFor args) = some cluster) :
    db.joined isdigit args source raw =
      { db.prepared isdigit args source raw with
        storyClusters := (db.prepared isdigit args source raw).storyClusters.modify (db.clusterFor args)
          fun cluster ↦ { cluster with articleCount := cluster.articleCount + 1 }
        clusterArticles := db.clusterArticles ++
          [membershipRow (db.clusterFor args) (db.articleFor isdigit args source raw).1
            (cluster.articleCount + 1)] } :=
  StoryDb.join_of_find h _

theorem find_joined
    (h : (db.prepared isdigit args source raw).storyClusters.find (db.clusterFor args) = some cluster) (id : ℕ) :
    (db.joined isdigit args source raw).storyClusters.find id =
      if id = db.clusterFor args then some { cluster with articleCount := cluster.articleCount + 1 }
      else db.storyClusters.find id := by
  rw [joined_of_find h]
  change ((db.prepared isdigit args source raw).storyClusters.modify _ _).find id = _
  by_cases hid : id = db.clusterFor args
  · rw [if_pos hid, hid, find_modify_self, h, map_some]
  · rw [if_neg hid, find_modify_of_ne _ _ hid]
    exact find_insertNew_of_ne _ _ hid

/-- A normalized article after the membership has been written: it was there, or it has joined. -/
theorem find_normalized_joined
    (h : (db.prepared isdigit args source raw).storyClusters.find (db.clusterFor args) = some cluster) {id : ℕ}
    (hsome : ((db.joined isdigit args source raw).normalizedArticles.find id).isSome) :
    id = (db.articleFor isdigit args source raw).1 ∨ (db.normalizedArticles.find id).isSome := by
  rw [joined_of_find h] at hsome
  change ((db.normalizedArticles.insertNew _ _).find id).isSome at hsome
  by_cases hid : id = (db.articleFor isdigit args source raw).1
  · exact .inl hid
  · rw [find_insertNew_of_ne _ _ hid] at hsome
    exact .inr hsome

/-- An article that is there stays as it is. -/
theorem find_joined_of_stored
    (h : (db.prepared isdigit args source raw).storyClusters.find (db.clusterFor args) = some cluster) {id : ℕ}
    (hsome : (db.normalizedArticles.find id).isSome) :
    db.normalizedArticles.find id = (db.joined isdigit args source raw).normalizedArticles.find id := by
  rw [joined_of_find h]
  change _ = (db.normalizedArticles.insertNew _ _).find id
  rw [find_insertNew, if_neg]
  rintro ⟨rfl, hnone⟩
  rw [hnone] at hsome
  exact Bool.false_ne_true hsome

/-- A stored article is read under its id. -/
theorem find_storedArticle {entry : ℕ × NormalizedArticle} (h : db.storedArticle args = some entry) :
    db.normalizedArticles.find entry.1 = some entry.2 := by
  unfold StoryDb.storedArticle at h
  rcases or_eq_some_iff.mp h with hreuse | ⟨-, hraw⟩
  · obtain ⟨id, -, hid⟩ := bind_eq_some_iff.mp hreuse
    obtain ⟨article, hget, rfl⟩ := map_eq_some_iff.mp hid
    exact (filter_eq_some_iff.mp hget).1
  · exact (find_eq_some_iff _ _ _).mpr (List.mem_of_find?_eq_some hraw)

/-- The article that joins is stored with its membership. -/
theorem find_articleFor
    (h : (db.prepared isdigit args source raw).storyClusters.find (db.clusterFor args) = some cluster) :
    some (db.articleFor isdigit args source raw).2 =
      (db.joined isdigit args source raw).normalizedArticles.find (db.articleFor isdigit args source raw).1 := by
  rw [joined_of_find h]
  change _ = (db.normalizedArticles.insertNew _ _).find _
  unfold StoryDb.articleFor
  cases hstored : db.storedArticle args with
  | none =>
    rw [getD_none]
    exact (find_insertNew_self _ _ (find_nextKey _)).symm
  | some entry =>
    rw [getD_some, find_insertNew, find_storedArticle hstored, if_neg]
    exact fun hnone ↦ some_ne_none _ hnone.2

end ContentGenerator.StoryIntelligence

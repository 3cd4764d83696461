import ContentGenerator.StoryIntelligence.Pipeline
import ContentGenerator.Lib.Transition

/-!
# What the passes leave as it is

Scoring, expiry and the actions of an operator write columns of clusters and candidates only. `SameTables` says
so for a view of the columns of a cluster: the articles, the memberships and what the view shows are the same.
-/

namespace ContentGenerator.StoryIntelligence

open Lib Lib.Action Workflows SourceIngestion Option

variable {α : Type} {view : StoryCluster → α} {db db' db'' : StoryDb}

/-- The same articles, the same rows, and clusters that look the same. -/
structure SameTables (view : StoryCluster → α) (db db' : StoryDb) : Prop where
  normalizedArticles : db'.normalizedArticles = db.normalizedArticles
  clusterArticles : db'.clusterArticles = db.clusterArticles
  columns : ∀ id, (db'.storyClusters.find id).map view = (db.storyClusters.find id).map view

theorem SameTables.refl (db : StoryDb) : SameTables view db db := ⟨rfl, rfl, fun _ ↦ rfl⟩

theorem SameTables.trans (h : SameTables view db db') (h' : SameTables view db' db'') :
    SameTables view db db'' :=
  ⟨h'.normalizedArticles.trans h.normalizedArticles, h'.clusterArticles.trans h.clusterArticles,
    fun id ↦ (h'.columns id).trans (h.columns id)⟩

theorem SameTables.rowsOf (h : SameTables view db db') (id : ℕ) : db'.rowsOf id = db.rowsOf id := by
  unfold StoryDb.rowsOf
  rw [h.clusterArticles]

theorem SameTables.listNormalizedForCluster (h : SameTables view db db') (id : ℕ) :
    db'.listNormalizedForCluster id = db.listNormalizedForCluster id := by
  unfold StoryDb.listNormalizedForCluster
  rw [h.rowsOf, h.normalizedArticles]

theorem SameTables.isMember (h : SameTables view db db') (clusterId id : ℕ) :
    db'.isMember clusterId id = db.isMember clusterId id := by
  unfold StoryDb.isMember
  rw [h.clusterArticles]

/-- The clusters are the same but for the columns that the view does not show. -/
theorem SameTables.find (h : SameTables view db db') {id : ℕ} {cluster' : StoryCluster}
    (hfind : db'.storyClusters.find id = some cluster') :
    ∃ cluster, db.storyClusters.find id = some cluster ∧ view cluster = view cluster' := by
  have hcolumns := h.columns id
  rw [hfind, map_some] at hcolumns
  exact map_eq_some_iff.mp hcolumns.symm

theorem SameTables.isSome (h : SameTables view db db') (id : ℕ) :
    (db'.storyClusters.find id).isSome = (db.storyClusters.find id).isSome := by
  have hcolumns := congrArg Option.isSome (h.columns id)
  rw [isSome_map, isSome_map] at hcolumns
  exact hcolumns

/-! ### Scoring, expiry and actions -/

/-- Assignments to a cluster that the view does not show. -/
theorem sameTables_updateCluster (db : StoryDb) (id : ℕ) {f : StoryCluster → StoryCluster}
    (hf : ∀ cluster, view (f cluster) = view cluster) :
    SameTables view db (db.updateCluster id f) := by
  refine ⟨rfl, rfl, fun other ↦ ?_⟩
  change ((db.storyClusters.modify id f).find other).map _ = _
  rw [KeyedTable.find_modify]
  split_ifs
  · rw [map_map]
    exact congrArg (fun g ↦ (db.storyClusters.find other).map g) (funext hf)
  · rfl

theorem sameTables_updateCandidate (db : StoryDb) (id : ℕ) (f : TrendCandidate → TrendCandidate) :
    SameTables view db (db.updateCandidate id f) := ⟨rfl, rfl, fun _ ↦ rfl⟩

theorem sameTables_syncTrendCandidate (db : StoryDb) (clusterId : ℕ) (cluster : StoryCluster) (score : ℚ)
    (blocked : Bool) (now : Time) :
    SameTables view db (db.syncTrendCandidate clusterId cluster score blocked now) := by
  unfold StoryDb.syncTrendCandidate
  split <;> exact ⟨rfl, rfl, fun _ ↦ rfl⟩

/-- A cluster is written whose columns look the same. -/
theorem sameTables_recordScore {clusterId : ℕ} {cluster scored : StoryCluster}
    (hfind : db.storyClusters.find clusterId = some cluster) (hview : view scored = view cluster)
    (score : ℚ) (now : Time) : SameTables view db (db.recordScore clusterId scored score now) := by
  refine ⟨rfl, rfl, fun other ↦ ?_⟩
  change ((db.storyClusters.modify clusterId _).find other).map _ = _
  rw [KeyedTable.find_modify]
  split_ifs with hother
  · rw [hother, hfind, map_some, map_some, map_some, hview]
  · rfl

section Scoring

variable (hscore : ∀ weighted articles cluster, view (scoreCluster weighted articles cluster) = view cluster)
include hscore

theorem sameTables_scoreAndSync (db : StoryDb) (clusterId : ℕ) (weighted : ℚ) (now : Time) :
    SameTables view db (db.scoreAndSync clusterId weighted now) := by
  cases hfind : db.storyClusters.find clusterId with
  | none =>
    unfold StoryDb.scoreAndSync
    rw [hfind]
    exact .refl db
  | some cluster =>
    rw [StoryDb.scoreAndSync_of_find hfind]
    exact (sameTables_recordScore hfind (hscore _ _ cluster) _ now).trans
      (sameTables_syncTrendCandidate _ _ _ _ _ _)

theorem sameTables_rescoreActiveClusters (db : StoryDb) (tenantId : String) (weighted : ℕ → ℚ)
    (now : Time) : SameTables view db (db.rescoreActiveClusters tenantId weighted now) := by
  refine foldl_invariant (P := SameTables view db) (fun db' clusterId _ hdb ↦ ?_) (.refl db)
  unfold StoryDb.rescore
  split_ifs
  · exact hdb
  · exact hdb.trans (sameTables_scoreAndSync hscore _ _ _ _)

end Scoring

theorem storyClusters_syncTrendCandidate (db : StoryDb) (clusterId : ℕ) (cluster : StoryCluster) (score : ℚ)
    (blocked : Bool) (now : Time) :
    (db.syncTrendCandidate clusterId cluster score blocked now).storyClusters = db.storyClusters := by
  unfold StoryDb.syncTrendCandidate
  split <;> rfl

/-- A scoring pass writes no other cluster. -/
theorem find_scoreAndSync (db : StoryDb) (clusterId : ℕ) (weighted : ℚ) (now : Time) (id : ℕ) :
    (db.scoreAndSync clusterId weighted now).storyClusters.find id =
      if id = clusterId then
        (db.storyClusters.find id).map (scoreCluster weighted (db.listNormalizedForCluster clusterId))
      else db.storyClusters.find id := by
  cases hfind : db.storyClusters.find clusterId with
  | none =>
    unfold StoryDb.scoreAndSync
    rw [hfind]
    split_ifs with hid
    · rw [hid, hfind, map_none]
    · rfl
  | some cluster =>
    rw [StoryDb.scoreAndSync_of_find hfind, storyClusters_syncTrendCandidate]
    change (db.storyClusters.modify clusterId _).find id = _
    rw [KeyedTable.find_modify]
    split_ifs with hid
    · rw [hid, hfind, map_some, map_some]
    · rfl

section Expiry

variable (hstate : ∀ (cluster : StoryCluster) (state : TrendWorkflowState),
  view { cluster with workflowState := state } = view cluster)
include hstate

theorem sameTables_expireCandidate (tenantId : String) (now : Time) (db : StoryDb)
    (entry : ℕ × TrendCandidate) : SameTables view db (db.expireCandidate tenantId now entry) := by
  unfold StoryDb.expireCandidate
  split_ifs
  · exact .refl db
  · dsimp only
    split
    · split_ifs
      · exact sameTables_updateCandidate _ _ _
      · exact (sameTables_updateCandidate _ _ _).trans
          (sameTables_updateCluster _ _ fun cluster ↦ hstate cluster .expired)
    · exact sameTables_updateCandidate _ _ _
  · exact .refl db

theorem sameTables_expireStaleCandidates (db : StoryDb) (tenantId : String) (now : Time) :
    SameTables view db (db.expireStaleCandidates tenantId now) :=
  foldl_invariant (P := SameTables view db)
    (fun _ entry _ hdb ↦ hdb.trans (sameTables_expireCandidate hstate tenantId now _ entry)) (.refl db)

/-- An action expires candidates and assigns to one candidate and its cluster, or leaves no trace. -/
theorem sameTables_applyCandidateAction (db : StoryDb) (tenantId : String) (candidateId : ℕ)
    (action : String) (now : Time) :
    SameTables view db ((applyCandidateAction tenantId candidateId action now).final db) := by
  have hkeeps : Keeps (SameTables view db) (applyCandidateAction tenantId candidateId action now) := by
    unfold applyCandidateAction
    refine keeps_atomically (keeps_bind (keeps_modify fun db' h ↦ ?_) fun _ ↦ keeps_bind (keeps_readOr _)
      fun candidate ↦ keeps_bind (keeps_readOr _) fun states ↦ keeps_bind (keeps_modify fun db' h ↦ ?_)
        fun _ ↦ keeps_pure _)
    · exact h.trans (sameTables_expireStaleCandidates hstate _ _ _)
    · dsimp only
      split_ifs
      · exact (h.trans (sameTables_updateCandidate _ _ _)).trans
          (sameTables_updateCluster _ _ fun cluster ↦ hstate cluster states.2)
      · exact h.trans (sameTables_updateCandidate _ _ _)
  exact hkeeps db (.refl db)

end Expiry

end ContentGenerator.StoryIntelligence

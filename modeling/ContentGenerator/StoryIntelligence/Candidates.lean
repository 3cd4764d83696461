import ContentGenerator.StoryIntelligence.Persist
import ContentGenerator.StoryIntelligence.Effects
import ContentGenerator.Lib.Play

/-!
# The candidates of the clusters

A cluster has one candidate at most, and every candidate belongs to a cluster of its tenant: `CandidatesSound`
holds in every state (`candidatesSound_play`). Scoring a cluster leaves the candidates of the others alone.
-/

namespace ContentGenerator.StoryIntelligence

open Lib Lib.Action Workflows SourceIngestion List Option

variable {cluster : StoryCluster} {tenantId : String} {candidate : TrendCandidate} {clusterId id : ℕ}

/-! ### Sound candidates -/

/-- A cluster has one candidate at most, a candidate belongs to a cluster of its tenant, and no cluster is
deleted. -/
structure CandidatesSound (db : StoryDb) : Prop where
  single : ∀ id candidate id' candidate', db.trendCandidates.find id = some candidate →
    db.trendCandidates.find id' = some candidate' → candidate.storyClusterId = candidate'.storyClusterId → id = id'
  cluster : ∀ id candidate, db.trendCandidates.find id = some candidate →
    ∃ cluster, db.storyClusters.find candidate.storyClusterId = some cluster ∧ cluster.tenantId = candidate.tenantId
  live : ∀ id cluster, db.storyClusters.find id = some cluster → cluster.deletedAt = none

def ownerColumns (cluster : StoryCluster) : String × Option Time := (cluster.tenantId, cluster.deletedAt)

/-- No candidate has been added, and candidates and clusters belong to whom they belonged. -/
structure SameOwners (db db' : StoryDb) : Prop where
  candidates : ∀ id candidate', db'.trendCandidates.find id = some candidate' →
    ∃ candidate, db.trendCandidates.find id = some candidate ∧ candidate'.tenantId = candidate.tenantId ∧
      candidate'.storyClusterId = candidate.storyClusterId
  clusters : ∀ id, (db'.storyClusters.find id).map ownerColumns = (db.storyClusters.find id).map ownerColumns

variable {isdigit : Char → Bool} {db db' db'' : StoryDb}

theorem SameOwners.refl (db : StoryDb) : SameOwners db db :=
  ⟨fun _ candidate hfind ↦ ⟨candidate, hfind, rfl, rfl⟩, fun _ ↦ rfl⟩

theorem SameOwners.trans (h : SameOwners db db') (h' : SameOwners db' db'') : SameOwners db db'' := by
  refine ⟨fun id candidate'' hfind ↦ ?_, fun id ↦ (h'.clusters id).trans (h.clusters id)⟩
  obtain ⟨candidate', hfind', htenant', hcluster'⟩ := h'.candidates id candidate'' hfind
  obtain ⟨candidate, hfind, htenant, hcluster⟩ := h.candidates id candidate' hfind'
  exact ⟨candidate, hfind, htenant'.trans htenant, hcluster'.trans hcluster⟩

/-- A cluster that is there after has been there before, and the other way round. -/
theorem SameOwners.find_cluster (h : SameOwners db db')
    (hfind : db.storyClusters.find id = some cluster) :
    ∃ cluster', db'.storyClusters.find id = some cluster' ∧ cluster'.tenantId = cluster.tenantId := by
  have hcolumns := h.clusters id
  rw [hfind, map_some] at hcolumns
  obtain ⟨cluster', hfind', hsame⟩ := map_eq_some_iff.mp hcolumns
  exact ⟨cluster', hfind', congrArg Prod.fst hsame⟩

theorem CandidatesSound.congr (hdb : CandidatesSound db) (h : SameOwners db db') : CandidatesSound db' where
  single id candidate id' candidate' hfind hfind' hsame := by
    obtain ⟨old, hold, -, hcluster⟩ := h.candidates id candidate hfind
    obtain ⟨old', hold', -, hcluster'⟩ := h.candidates id' candidate' hfind'
    exact hdb.single id old id' old' hold hold' (hcluster.symm.trans (hsame.trans hcluster'))
  cluster id candidate hfind := by
    obtain ⟨old, hold, htenant, hcluster⟩ := h.candidates id candidate hfind
    obtain ⟨cluster, hstored, howner⟩ := hdb.cluster id old hold
    obtain ⟨cluster', hstored', howner'⟩ := h.find_cluster hstored
    rw [hcluster, htenant]
    exact ⟨cluster', hstored', howner'.trans howner⟩
  live id cluster' hfind := by
    have hcolumns := h.clusters id
    rw [hfind, map_some] at hcolumns
    obtain ⟨cluster, hstored, hsame⟩ := map_eq_some_iff.mp hcolumns.symm
    exact (congrArg Prod.snd hsame).symm.trans (hdb.live id cluster hstored)

/-! ### Assignments -/

theorem sameOwners_updateCandidate (db : StoryDb) (id : ℕ) {f : TrendCandidate → TrendCandidate}
    (hf : ∀ candidate, (f candidate).tenantId = candidate.tenantId ∧
      (f candidate).storyClusterId = candidate.storyClusterId) :
    SameOwners db (db.updateCandidate id f) := by
  refine ⟨fun other candidate' hfind ↦ ?_, fun _ ↦ rfl⟩
  change (db.trendCandidates.modify id f).find other = some candidate' at hfind
  rw [KeyedTable.find_modify] at hfind
  split_ifs at hfind with hother
  · obtain ⟨candidate, hcandidate, rfl⟩ := map_eq_some_iff.mp hfind
    exact ⟨candidate, hcandidate, hf candidate⟩
  · exact ⟨candidate', hfind, rfl, rfl⟩

theorem sameOwners_of_sameTables (h : SameTables ownerColumns db db')
    (hcandidates : db'.trendCandidates = db.trendCandidates) : SameOwners db db' := by
  refine ⟨fun id candidate hfind ↦ ?_, h.columns⟩
  rw [hcandidates] at hfind
  exact ⟨candidate, hfind, rfl, rfl⟩

theorem sameOwners_updateCluster (db : StoryDb) (id : ℕ) (state : TrendWorkflowState) :
    SameOwners db (db.updateCluster id fun cluster ↦ { cluster with workflowState := state }) :=
  sameOwners_of_sameTables (sameTables_updateCluster db id fun _ ↦ rfl) rfl

theorem sameOwners_expireCandidate (tenantId : String) (now : Time) (db : StoryDb)
    (entry : ℕ × TrendCandidate) : SameOwners db (db.expireCandidate tenantId now entry) := by
  have hcandidate : SameOwners db (db.updateCandidate entry.1 fun candidate ↦
      { candidate with status := .expired }) := sameOwners_updateCandidate db _ fun _ ↦ ⟨rfl, rfl⟩
  unfold StoryDb.expireCandidate
  split_ifs
  · exact .refl db
  · dsimp only
    split
    · split_ifs
      · exact hcandidate
      · exact hcandidate.trans (sameOwners_updateCluster _ _ _)
    · exact hcandidate
  · exact .refl db

theorem sameOwners_expireStaleCandidates (db : StoryDb) (tenantId : String) (now : Time) :
    SameOwners db (db.expireStaleCandidates tenantId now) :=
  foldl_invariant (P := SameOwners db)
    (fun _ entry _ hdb ↦ hdb.trans (sameOwners_expireCandidate tenantId now _ entry)) (.refl db)

theorem sameOwners_applyCandidateAction (db : StoryDb) (tenantId : String) (candidateId : ℕ)
    (action : String) (now : Time) :
    SameOwners db ((applyCandidateAction tenantId candidateId action now).final db) := by
  have hkeeps : Keeps (SameOwners db) (applyCandidateAction tenantId candidateId action now) := by
    unfold applyCandidateAction
    refine keeps_atomically (keeps_bind (keeps_modify fun db' h ↦ ?_) fun _ ↦ keeps_bind (keeps_readOr _)
      fun candidate ↦ keeps_bind (keeps_readOr _) fun states ↦ keeps_bind (keeps_modify fun db' h ↦ ?_)
        fun _ ↦ keeps_pure _)
    · exact h.trans (sameOwners_expireStaleCandidates _ _ _)
    · have hdecided : SameOwners db (db'.updateCandidate candidateId fun candidate ↦
          { candidate with status := states.1 }) :=
        h.trans (sameOwners_updateCandidate db' _ fun _ ↦ ⟨rfl, rfl⟩)
      dsimp only
      split_ifs
      · exact hdecided.trans (sameOwners_updateCluster _ _ _)
      · exact hdecided
  exact hkeeps db (.refl db)

/-! ### Scoring -/

theorem find_of_getTrendCandidateForCluster {entry : ℕ × TrendCandidate}
    (h : db.getTrendCandidateForCluster tenantId clusterId = some entry) :
    db.trendCandidates.find entry.1 = some entry.2 ∧ entry.2.storyClusterId = clusterId := by
  obtain ⟨hmem, hpasses⟩ := mem_filter.mp (argmax_mem h)
  exact ⟨(KeyedTable.find_eq_some_iff _ _ _).mpr hmem, (of_decide_eq_true hpasses).2⟩

theorem not_find_of_getTrendCandidateForCluster
    (h : db.getTrendCandidateForCluster tenantId clusterId = none)
    (hfind : db.trendCandidates.find id = some candidate) (htenant : candidate.tenantId = tenantId) :
    candidate.storyClusterId ≠ clusterId := by
  intro hcluster
  have hnil := argmax_eq_none.mp h
  rw [filter_eq_nil_iff] at hnil
  exact hnil _ ((KeyedTable.find_eq_some_iff _ _ _).mp hfind) (decide_eq_true ⟨htenant, hcluster⟩)

/-- The candidate of another cluster is not written. -/
theorem find_syncTrendCandidate_of_ne
    (hfind : db.trendCandidates.find id = some candidate) (hne : candidate.storyClusterId ≠ clusterId)
    (cluster : StoryCluster) (score : ℚ) (blocked : Bool) (now : Time) :
    (db.syncTrendCandidate clusterId cluster score blocked now).trendCandidates.find id = some candidate := by
  unfold StoryDb.syncTrendCandidate
  cases hget : db.getTrendCandidateForCluster cluster.tenantId clusterId with
  | some entry =>
    obtain ⟨hentry, hcluster⟩ := find_of_getTrendCandidateForCluster hget
    change (db.trendCandidates.modify entry.1 _).find id = _
    rw [KeyedTable.find_modify_of_ne _ _ ?_, hfind]
    rintro rfl
    exact hne ((congrArg _ (mem_unique hfind hentry)).trans hcluster)
  | none =>
    change (db.trendCandidates.insertNew _ _).find id = _
    rw [KeyedTable.find_insertNew_of_ne _ _ (KeyedTable.ne_nextKey hfind), hfind]

theorem find_candidate_scoreAndSync_of_ne
    (hfind : db.trendCandidates.find id = some candidate) (hne : candidate.storyClusterId ≠ clusterId)
    (weighted : ℚ) (now : Time) :
    (db.scoreAndSync clusterId weighted now).trendCandidates.find id = some candidate := by
  cases hcluster : db.storyClusters.find clusterId with
  | none =>
    unfold StoryDb.scoreAndSync
    rw [hcluster]
    exact hfind
  | some cluster =>
    rw [StoryDb.scoreAndSync_of_find hcluster]
    refine find_syncTrendCandidate_of_ne ?_ hne _ _ _ _
    exact hfind

theorem CandidatesSound.syncTrendCandidate (h : CandidatesSound db)
    (hcluster : db.storyClusters.find clusterId = some cluster) (score : ℚ) (blocked : Bool) (now : Time) :
    CandidatesSound (db.syncTrendCandidate clusterId cluster score blocked now) := by
  unfold StoryDb.syncTrendCandidate
  cases hget : db.getTrendCandidateForCluster cluster.tenantId clusterId with
  | some entry => exact h.congr (sameOwners_updateCandidate db _ fun _ ↦ ⟨rfl, rfl⟩)
  | none =>
    have hothers : ∀ id candidate, db.trendCandidates.find id = some candidate →
        candidate.storyClusterId ≠ clusterId := by
      intro id candidate hfind hsame
      obtain ⟨owner, howner, htenant⟩ := h.cluster id candidate hfind
      rw [hsame, hcluster] at howner
      cases howner
      exact not_find_of_getTrendCandidateForCluster hget hfind htenant.symm hsame
    have hcandidates : ∀ id candidate, (db.trendCandidates.insertNew db.trendCandidates.nextKey
          { tenantId := cluster.tenantId
            storyClusterId := clusterId
            dateBucket := dateOf now
            primaryTopic := cluster.primaryTopic
            finalScore := score
            status := candidateStatus cluster blocked
            expiresAt := some (now + hours 18)
            createdAt := now }).find id = some candidate →
        id = db.trendCandidates.nextKey ∧ candidate.storyClusterId = clusterId ∧
            candidate.tenantId = cluster.tenantId ∨
          db.trendCandidates.find id = some candidate := by
      intro id candidate hfind
      rw [KeyedTable.find_insertNew] at hfind
      split_ifs at hfind with hnew
      · cases hfind
        exact .inl ⟨hnew.1, rfl, rfl⟩
      · exact .inr hfind
    refine ⟨?_, ?_, h.live⟩
    · intro id candidate id' candidate' hfind hfind' hsame
      rcases hcandidates id candidate hfind with ⟨rfl, hnew, -⟩ | hold <;>
        rcases hcandidates id' candidate' hfind' with ⟨rfl, hnew', -⟩ | hold'
      · rfl
      · exact absurd (hsame.symm.trans hnew) (hothers id' candidate' hold')
      · exact absurd (hsame.trans hnew') (hothers id candidate hold)
      · exact h.single id candidate id' candidate' hold hold' hsame
    · intro id candidate hfind
      rcases hcandidates id candidate hfind with ⟨-, hnew, htenant⟩ | hold
      · rw [hnew, htenant]
        exact ⟨cluster, hcluster, rfl⟩
      · exact h.cluster id candidate hold

theorem CandidatesSound.scoreAndSync (h : CandidatesSound db) (clusterId : ℕ) (weighted : ℚ) (now : Time) :
    CandidatesSound (db.scoreAndSync clusterId weighted now) := by
  cases hcluster : db.storyClusters.find clusterId with
  | none =>
    unfold StoryDb.scoreAndSync
    rw [hcluster]
    exact h
  | some cluster =>
    rw [StoryDb.scoreAndSync_of_find hcluster]
    obtain ⟨htenant, -, -, hdeleted⟩ :=
      scoreCluster_columns weighted (db.listNormalizedForCluster clusterId) cluster
    refine CandidatesSound.syncTrendCandidate (h.congr (sameOwners_of_sameTables
      (sameTables_recordScore hcluster (Prod.ext htenant hdeleted) _ now) rfl)) ?_ _ _ _
    change (db.storyClusters.modify clusterId _).find clusterId = _
    rw [KeyedTable.find_modify_self, hcluster, map_some]

theorem CandidatesSound.rescoreActiveClusters (h : CandidatesSound db) (tenantId : String) (weighted : ℕ → ℚ)
    (now : Time) : CandidatesSound (db.rescoreActiveClusters tenantId weighted now) := by
  refine foldl_invariant (P := CandidatesSound) (fun db' clusterId _ hdb ↦ ?_) h
  unfold StoryDb.rescore
  split_ifs
  · exact hdb
  · exact hdb.scoreAndSync clusterId _ now

/-! ### Every reachable state -/

variable {args : EnrichedArgs} {source : Source} {raw : RawArticle}

theorem CandidatesSound.persisted (h : CandidatesSound db) :
    CandidatesSound (db.persisted isdigit args source raw) := by
  obtain ⟨cluster, hprepared, hcluster⟩ := find_prepared db isdigit args source raw
  have hclusters := find_joined hprepared
  have hcandidates : (db.joined isdigit args source raw).trendCandidates = db.trendCandidates := by
    rw [joined_of_find hprepared]
    rfl
  refine CandidatesSound.scoreAndSync ⟨?_, ?_, ?_⟩ _ _ _
  · rw [hcandidates]
    exact h.single
  · rw [hcandidates]
    intro id candidate hfind
    obtain ⟨owner, howner, htenant⟩ := h.cluster id candidate hfind
    rw [hclusters]
    split_ifs with hid
    · rcases hcluster with ⟨-, hstored⟩ | ⟨-, hnew, -⟩
      · rw [hid, hstored] at howner
        cases howner
        exact ⟨_, rfl, htenant⟩
      · rw [hid, hnew] at howner
        exact absurd howner.symm (some_ne_none owner)
    · exact ⟨owner, howner, htenant⟩
  · intro id found hfind
    rw [hclusters] at hfind
    split_ifs at hfind with hid
    · cases hfind
      rcases hcluster with ⟨-, hstored⟩ | ⟨-, -, rfl⟩
      · exact h.live _ cluster hstored
      · rfl
    · exact h.live id found hfind

theorem CandidatesSound.pass (h : CandidatesSound db) (isdigit : Char → Bool) (pass : Pass) :
    CandidatesSound (pass.apply isdigit db) := by
  cases pass with
  | ingest tables => exact ⟨h.single, h.cluster, h.live⟩
  | persistEnriched args =>
    change CandidatesSound ((persistEnriched isdigit args).final db)
    unfold Action.final
    rcases persistEnriched_cases isdigit args db with ⟨exc, herror⟩ | ⟨source, raw, -, -, -, hok⟩
    · rw [herror]
      exact h
    · rw [hok]
      exact h.persisted
  | rescore tenantId weighted now => exact h.rescoreActiveClusters tenantId weighted now
  | expire tenantId now | list tenantId status limit now => exact h.congr (sameOwners_expireStaleCandidates _ _ _)
  | detail tenantId candidateId now => exact h.congr (sameOwners_expireStaleCandidates _ _ _)

theorem CandidatesSound.apply (h : CandidatesSound db) (isdigit : Char → Bool) (op : StoryOp) :
    CandidatesSound (op.apply isdigit db) := by
  cases op with
  | automatic pass => exact h.pass isdigit pass
  | act tenantId candidateId action now => exact h.congr (sameOwners_applyCandidateAction _ _ _ _ _)

theorem candidatesSound_empty : CandidatesSound {} where
  single _ candidate _ _ hfind := absurd hfind.symm (some_ne_none candidate)
  cluster _ candidate hfind := absurd hfind.symm (some_ne_none candidate)
  live _ cluster hfind := absurd hfind.symm (some_ne_none cluster)

theorem candidatesSound_play (isdigit : Char → Bool) (ops : List StoryOp) :
    CandidatesSound (play (StoryOp.apply isdigit) ops {}) := by
  have hstep : ∀ (db : StoryDb) (op : StoryOp), CandidatesSound db → CandidatesSound (op.apply isdigit db) :=
    fun _ op h ↦ h.apply isdigit op
  exact play_invariant hstep ops candidatesSound_empty

/-- After any ingestion, enrichment, rescoring, expiry and decision a cluster has one candidate at most, which
belongs to the tenant of the cluster. -/
theorem one_candidate (isdigit : Char → Bool) (ops : List StoryOp) :
    let db := play (StoryOp.apply isdigit) ops {}
    (∀ id candidate id' candidate', db.trendCandidates.find id = some candidate →
        db.trendCandidates.find id' = some candidate' → candidate.storyClusterId = candidate'.storyClusterId → id = id') ∧
      ∀ id candidate, db.trendCandidates.find id = some candidate → ∃ cluster,
        db.storyClusters.find candidate.storyClusterId = some cluster ∧ cluster.tenantId = candidate.tenantId :=
  ⟨(candidatesSound_play isdigit ops).single, (candidatesSound_play isdigit ops).cluster⟩

end ContentGenerator.StoryIntelligence

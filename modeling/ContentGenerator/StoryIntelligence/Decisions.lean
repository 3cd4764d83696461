import ContentGenerator.StoryIntelligence.Candidates

/-!
# What becomes of an editorial decision

An operator approves or rejects a candidate; expiry leaves it and its cluster alone, and a scoring pass writes
both as if nothing had been decided. Main result: `decision_kept_iff`, a decision stands in every later state
exactly when no later pass scores its cluster.
-/

namespace ContentGenerator.StoryIntelligence

open Lib Lib.Action Workflows SourceIngestion List KeyedTable
open Char (isDigit)
open Option (map_some mem_unique some_ne_none)
open StoryOp (apply)
open TrendCandidateStatus (approvedTopic)
open TrendWorkflowState (expired new)

variable {candidate : TrendCandidate}

/-! ### Decisions -/

def Decides (action : String) (status : TrendCandidateStatus) : Prop :=
  pyLower action = "approve" ∧ status = .approvedTopic ∨ pyLower action = "reject" ∧ status = .rejectedTopic

/-- The candidate has the status, and its cluster is not back in the review nor expired. -/
structure Stands (candidateId clusterId : ℕ) (status : TrendCandidateStatus) (db : StoryDb) : Prop where
  candidate : ∃ candidate, db.trendCandidates.find candidateId = some candidate ∧
    candidate.storyClusterId = clusterId ∧ candidate.status = status
  cluster : ∃ cluster, db.storyClusters.find clusterId = some cluster ∧
    cluster.workflowState ∉ [new, .queuedForReview, .expired]

/-- The pass scores the cluster: an article joins it, or it is among those of the tenant that are scored again. -/
def Pass.Scores (isdigit : Char → Bool) (db : StoryDb) (clusterId : ℕ) : Pass → Prop
  | .persistEnriched args => db.matchedCluster args = some clusterId ∧
      ∃ source raw, db.ingestion.getSource args.tenantId args.sourceId = some source ∧
        db.ingestion.rawArticles.find args.rawId = some raw ∧ db.Admits isdigit args source raw
  | .rescore tenantId _ _ => clusterId ∈ (db.listClusters tenantId).map Prod.fst ∧
      db.listNormalizedForCluster clusterId ≠ []
  | _ => False

variable {isdigit : Char → Bool} {db db' : StoryDb} {candidateId clusterId : ℕ} {status : TrendCandidateStatus}
  {tenantId action : String} {now : Time}

theorem Decides.states (h : Decides action status) :
    ∃ state, actionStates action = some (status, state) ∧
      state ∉ [new, .queuedForReview, .expired] := by
  unfold actionStates
  rcases h with ⟨happrove, rfl⟩ | ⟨hreject, rfl⟩
  · exact ⟨_, if_pos happrove, by decide⟩
  · refine ⟨.rejected, ?_, by decide⟩
    rw [hreject, if_neg (by decide), if_pos rfl]

theorem Decides.final (h : Decides action status) :
    status ∈ [approvedTopic, .rejectedTopic, .expired] := by
  rcases h with ⟨-, rfl⟩ | ⟨-, rfl⟩ <;> decide

def StoryDb.actioned (db : StoryDb) (tenantId : String) (candidateId clusterId : ℕ)
    (states : TrendCandidateStatus × TrendWorkflowState) : StoryDb :=
  let decided := db.updateCandidate candidateId fun candidate ↦ { candidate with status := states.1 }
  if (db.getCluster tenantId clusterId).isSome then
    decided.updateCluster clusterId fun cluster ↦ { cluster with workflowState := states.2 }
  else decided

/-- An action that returns has found its candidate and is one of the three. -/
theorem applyCandidateAction_of_ok
    (hacts : applyCandidateAction tenantId candidateId action now db = (.ok candidate, db')) :
    ∃ found states,
      (db.expireStaleCandidates tenantId now).getTrendCandidate tenantId candidateId = some found ∧
      actionStates action = some states ∧ candidate = { found with status := states.1 } ∧
      db' = (db.expireStaleCandidates tenantId now).actioned tenantId candidateId found.storyClusterId states := by
  unfold applyCandidateAction atomically at hacts
  rw [modify_bind] at hacts
  cases hget : (db.expireStaleCandidates tenantId now).getTrendCandidate tenantId candidateId with
  | none =>
    rw [readOr_bind_of_error (by rw [hget]; rfl)] at hacts
    cases (Prod.mk.inj hacts).1
  | some found =>
    rw [readOr_bind_of_ok (a := found) (by rw [hget]; rfl)] at hacts
    cases hstates : actionStates action with
    | none =>
      rw [readOr_bind_of_error (by rw [hstates]; rfl)] at hacts
      cases (Prod.mk.inj hacts).1
    | some states =>
      rw [readOr_bind_of_ok (a := states) (by rw [hstates]; rfl), modify_bind, pure_apply] at hacts
      obtain ⟨hcandidate, hdb⟩ := Prod.mk.inj hacts
      exact ⟨found, states, rfl, rfl, (Except.ok.inj hcandidate).symm, hdb.symm⟩

/-- A decision that has been made stands. -/
theorem stands_applyCandidateAction (hsound : CandidatesSound db) (hdecides : Decides action status)
    (hacts : applyCandidateAction tenantId candidateId action now db = (.ok candidate, db')) :
    Stands candidateId candidate.storyClusterId status db' := by
  obtain ⟨state, hstates, hstate⟩ := hdecides.states
  have hexpired : CandidatesSound (db.expireStaleCandidates tenantId now) :=
    hsound.congr (sameOwners_expireStaleCandidates _ _ _)
  obtain ⟨found, states, hget, hsome, rfl, rfl⟩ := applyCandidateAction_of_ok hacts
  obtain rfl := mem_unique hsome hstates
  obtain ⟨hfind, htenant⟩ := Option.filter_eq_some_iff.mp hget
  obtain ⟨cluster, hcluster, howner⟩ := hexpired.cluster _ _ hfind
  have hlive := hexpired.live _ _ hcluster
  have hgetCluster : ((db.expireStaleCandidates tenantId now).getCluster tenantId found.storyClusterId).isSome := by
    unfold StoryDb.getCluster
    rw [hcluster, Option.filter_some, if_pos]
    · exact Option.isSome_some
    · exact decide_eq_true ⟨howner.trans (of_decide_eq_true htenant), hlive⟩
  unfold StoryDb.actioned
  rw [if_pos hgetCluster]
  refine ⟨⟨{ found with status }, ?_, rfl, rfl⟩, ⟨{ cluster with workflowState := state }, ?_, hstate⟩⟩
  · change ((db.expireStaleCandidates tenantId now).trendCandidates.modify candidateId _).find candidateId = _
    rw [find_modify_self, hfind, map_some]
  · change ((db.expireStaleCandidates tenantId now).storyClusters.modify found.storyClusterId _).find
      found.storyClusterId = _
    rw [find_modify_self, hcluster, map_some]

/-! ### Expiry -/

def Untouched (candidateId clusterId : ℕ) (db db' : StoryDb) : Prop :=
  db'.trendCandidates.find candidateId = db.trendCandidates.find candidateId ∧
    db'.storyClusters.find clusterId = db.storyClusters.find clusterId

theorem Stands.untouched (h : Stands candidateId clusterId status db)
    (hsame : Untouched candidateId clusterId db db') : Stands candidateId clusterId status db' := by
  refine ⟨?_, ?_⟩
  · rw [hsame.1]
    exact h.candidate
  · rw [hsame.2]
    exact h.cluster

/-- Another candidate of another cluster expires. -/
theorem untouched_expireCandidate {entry : ℕ × TrendCandidate}
    (hother : entry.2.status ∈ [approvedTopic, .rejectedTopic, .expired] ∨
      entry.1 ≠ candidateId ∧ entry.2.storyClusterId ≠ clusterId) :
    Untouched candidateId clusterId db (db.expireCandidate tenantId now entry) := by
  unfold StoryDb.expireCandidate
  split_ifs with hskip
  · exact ⟨rfl, rfl⟩
  · obtain ⟨hcandidate, hcluster⟩ := hother.resolve_left hskip
    have hexpired : (db.trendCandidates.modify entry.1 fun candidate ↦ { candidate with status := .expired }).find
        candidateId = db.trendCandidates.find candidateId := find_modify_of_ne _ _ hcandidate.symm
    dsimp only
    split
    · split_ifs
      · exact ⟨hexpired, rfl⟩
      · exact ⟨hexpired, find_modify_of_ne _ _ hcluster.symm⟩
    · exact ⟨hexpired, rfl⟩
  · exact ⟨rfl, rfl⟩

theorem untouched_expireStaleCandidates (hsound : CandidatesSound db)
    (hfinal : status ∈ [approvedTopic, .rejectedTopic, .expired])
    (h : Stands candidateId clusterId status db) :
    Untouched candidateId clusterId db (db.expireStaleCandidates tenantId now) := by
  refine foldl_invariant (P := Untouched candidateId clusterId db) (fun db' entry hentry hsame ↦ ?_) ⟨rfl, rfl⟩
  unfold StoryDb.listTrendCandidates at hentry
  have hmem := (mem_filter.mp ((mem_insertionSort _).mp (mem_of_mem_take hentry))).1
  have hfind := (find_eq_some_iff _ _ _).mpr hmem
  obtain ⟨candidate, hcandidate, hcluster, hstatus⟩ := h.candidate
  have hother : entry.2.status ∈ [approvedTopic, .rejectedTopic, .expired] ∨
      entry.1 ≠ candidateId ∧ entry.2.storyClusterId ≠ clusterId := by
    by_cases hid : entry.1 = candidateId
    · left
      rw [hid] at hfind
      rw [mem_unique hfind hcandidate, hstatus]
      exact hfinal
    · exact .inr ⟨hid, fun hsameCluster ↦
        hid (hsound.single _ _ _ _ hfind hcandidate (hsameCluster.trans hcluster.symm))⟩
  have hstep : Untouched candidateId clusterId db' (db'.expireCandidate tenantId now entry) :=
    untouched_expireCandidate hother
  exact ⟨hstep.1.trans hsame.1, hstep.2.trans hsame.2⟩

theorem Stands.expireStaleCandidates (h : Stands candidateId clusterId status db) (hsound : CandidatesSound db)
    (hfinal : status ∈ [approvedTopic, .rejectedTopic, .expired]) (tenantId : String)
    (now : Time) : Stands candidateId clusterId status (db.expireStaleCandidates tenantId now) :=
  h.untouched (untouched_expireStaleCandidates hsound hfinal h)

/-! ### Scoring passes -/

def BackInReview (clusterId : ℕ) (db : StoryDb) : Prop :=
  ∃ cluster, db.storyClusters.find clusterId = some cluster ∧
    cluster.workflowState ∈ [new, .queuedForReview]

theorem BackInReview.not_stands (h : BackInReview clusterId db) : ¬ Stands candidateId clusterId status db := by
  intro hstands
  obtain ⟨cluster, hfind, hin⟩ := h
  obtain ⟨cluster', hfind', hout⟩ := hstands.cluster
  obtain rfl := mem_unique hfind hfind'
  exact hout (mem_append_left [expired] hin)

/-- Scoring the cluster takes the decision back. -/
theorem backInReview_scoreAndSync {cluster : StoryCluster} (hfind : db.storyClusters.find clusterId = some cluster)
    (weighted : ℚ) (now : Time) : BackInReview clusterId (db.scoreAndSync clusterId weighted now) := by
  refine ⟨scoreCluster weighted (db.listNormalizedForCluster clusterId) cluster, ?_, workflowState_scoreCluster _ _ _⟩
  rw [find_scoreAndSync, if_pos rfl, hfind, map_some]

/-- Scoring another cluster does not touch the decision. -/
theorem Stands.scoreAndSync_of_ne (h : Stands candidateId clusterId status db) {other : ℕ}
    (hother : clusterId ≠ other) (weighted : ℚ) (now : Time) :
    Stands candidateId clusterId status (db.scoreAndSync other weighted now) := by
  obtain ⟨candidate, hfind, hcluster, hstatus⟩ := h.candidate
  refine ⟨⟨candidate, ?_, hcluster, hstatus⟩, ?_⟩
  · exact find_candidate_scoreAndSync_of_ne hfind (hcluster ▸ hother) _ _
  · rw [find_scoreAndSync, if_neg hother]
    exact h.cluster

theorem BackInReview.rescore (h : BackInReview clusterId db) (weighted : ℕ → ℚ) (now : Time) (other : ℕ) :
    BackInReview clusterId (db.rescore weighted now other) := by
  unfold StoryDb.rescore
  split_ifs
  · exact h
  · obtain ⟨cluster, hfind, hin⟩ := h
    by_cases hother : clusterId = other
    · rw [← hother]
      exact backInReview_scoreAndSync hfind _ _
    · refine ⟨cluster, ?_, hin⟩
      rw [find_scoreAndSync, if_neg hother, hfind]

/-- The loop over the clusters of a tenant, with the articles that the cluster has at its start. -/
theorem stands_foldl_rescore_iff {articles : List NormalizedArticle} (weighted : ℕ → ℚ) (now : Time)
    (clusterIds : List ℕ) (h : Stands candidateId clusterId status db)
    (harticles : db.listNormalizedForCluster clusterId = articles) :
    Stands candidateId clusterId status (clusterIds.foldl (StoryDb.rescore weighted now) db) ↔
      ¬ (clusterId ∈ clusterIds ∧ articles ≠ []) := by
  induction clusterIds generalizing db with
  | nil => exact iff_of_true h fun hin ↦ not_mem_nil hin.1
  | cons other rest ih =>
    rw [foldl_cons, mem_cons]
    by_cases hother : clusterId = other
    · obtain ⟨cluster, hfind, -⟩ := h.cluster
      by_cases hnil : articles = []
      · have hskips : db.rescore weighted now other = db := by
          unfold StoryDb.rescore
          rw [← hother, if_pos (harticles.trans hnil)]
        rw [hskips, ih h harticles]
        exact iff_of_true (fun hin ↦ hin.2 hnil) fun hin ↦ hin.2 hnil
      · have hback : BackInReview clusterId (db.rescore weighted now other) := by
          unfold StoryDb.rescore
          rw [← hother, if_neg fun hempty ↦ hnil (harticles.symm.trans hempty)]
          exact backInReview_scoreAndSync hfind _ _
        have hfinal : BackInReview clusterId (rest.foldl (StoryDb.rescore weighted now)
            (db.rescore weighted now other)) :=
          foldl_invariant (fun _ id _ h ↦ h.rescore weighted now id) hback
        exact iff_of_false hfinal.not_stands fun hnot ↦ hnot ⟨.inl hother, hnil⟩
    · have hsame : SameTables (fun cluster : StoryCluster ↦ cluster.tenantId) db (db.rescore weighted now other) := by
        unfold StoryDb.rescore
        split_ifs
        · exact .refl db
        · exact sameTables_scoreAndSync (fun _ _ cluster ↦ (scoreCluster_columns _ _ cluster).1) _ _ _ _
      have hstands : Stands candidateId clusterId status (db.rescore weighted now other) := by
        unfold StoryDb.rescore
        split_ifs
        · exact h
        · exact h.scoreAndSync_of_ne hother _ _
      rw [ih hstands ((hsame.listNormalizedForCluster clusterId).trans harticles), or_iff_right hother]

/-! ### Articles that join -/

variable {args : EnrichedArgs} {source : Source} {raw : RawArticle}

/-- An article that joins the cluster takes the decision back, one that joins another cluster does not. -/
theorem stands_persisted_iff (h : Stands candidateId clusterId status db) :
    Stands candidateId clusterId status (db.persisted isdigit args source raw) ↔
      db.matchedCluster args ≠ some clusterId := by
  obtain ⟨cluster, hprepared, hcluster⟩ := find_prepared db isdigit args source raw
  have hclusters := find_joined hprepared
  obtain ⟨owner, howner, -⟩ := h.cluster
  have hmatched : db.matchedCluster args = some clusterId ↔ clusterId = db.clusterFor args := by
    rcases hcluster with ⟨hmatch, -⟩ | ⟨hmatch, hnew, -⟩
    · rw [hmatch, Option.some.injEq]
      exact eq_comm
    · refine iff_of_false (fun hsome ↦ ?_) fun hid ↦ ?_
      · exact some_ne_none _ (hsome.symm.trans hmatch)
      · rw [← hid, howner] at hnew
        exact some_ne_none owner hnew
  rw [ne_eq, hmatched]
  unfold StoryDb.persisted
  by_cases hid : clusterId = db.clusterFor args
  · refine iff_of_false (BackInReview.not_stands ?_) (not_not_intro hid)
    rw [← hid] at hclusters ⊢
    exact backInReview_scoreAndSync ((hclusters clusterId).trans (if_pos rfl)) _ _
  · refine iff_of_true (Stands.scoreAndSync_of_ne (h.untouched ⟨?_, ?_⟩) hid _ _) hid
    · rw [joined_of_find hprepared]
      rfl
    · rw [hclusters, if_neg hid]

/-! ### Runs -/

theorem Stands.apply_iff (h : Stands candidateId clusterId status db) (hsound : CandidatesSound db)
    (hfinal : status ∈ [approvedTopic, .rejectedTopic, .expired]) (pass : Pass) :
    Stands candidateId clusterId status (pass.apply isdigit db) ↔ ¬ pass.Scores isdigit db clusterId := by
  cases pass with
  | ingest tables => exact iff_of_true ⟨h.candidate, h.cluster⟩ id
  | persistEnriched args =>
    change Stands candidateId clusterId status (persistEnriched isdigit args db).2 ↔ _
    rcases persistEnriched_cases isdigit args db with
      ⟨exc, herror⟩ | ⟨source, raw, hsource, hraw, hadmits, hok⟩
    · rw [herror]
      refine iff_of_true h ?_
      rintro ⟨-, source, raw, hsource, hraw, hadmits⟩
      have hok := persistEnriched_of_admits hsource hraw hadmits
      rw [herror] at hok
      cases (Prod.mk.inj hok).1
    · rw [hok]
      refine (stands_persisted_iff h).trans ⟨fun hne hscores ↦ hne hscores.1, fun hnot hmatch ↦ ?_⟩
      exact hnot ⟨hmatch, source, raw, hsource, hraw, hadmits⟩
  | rescore tenantId weighted now => exact stands_foldl_rescore_iff weighted now _ h rfl
  | expire tenantId now => exact iff_of_true (h.expireStaleCandidates hsound hfinal tenantId now) id
  | list tenantId status' limit now => exact iff_of_true (h.expireStaleCandidates hsound hfinal tenantId now) id
  | detail tenantId candidateId' now => exact iff_of_true (h.expireStaleCandidates hsound hfinal tenantId now) id

/-- A decision made in any state stands in every later state exactly when no later pass scores its cluster. -/
theorem decision_kept_iff (isdigit : Char → Bool) (ops : List StoryOp) (tenantId : String) (candidateId : ℕ)
    (action : String) (now : Time) (status : TrendCandidateStatus) (hdecides : Decides action status)
    (candidate : TrendCandidate) (decided : StoryDb)
    (hacts : applyCandidateAction tenantId candidateId action now (play (apply isdigit) ops {}) =
      (.ok candidate, decided)) (passes : List Pass) :
    (∀ before after, passes = before ++ after →
        Stands candidateId candidate.storyClusterId status (play (Pass.apply isdigit) before decided)) ↔
      Along (Pass.apply isdigit) (fun db pass ↦ ¬ pass.Scores isdigit db candidate.storyClusterId) passes
        decided := by
  have hsound : CandidatesSound decided := by
    have hkept := (candidatesSound_play isdigit ops).congr
      (sameOwners_applyCandidateAction _ tenantId candidateId action now)
    unfold Action.final at hkept
    rw [hacts] at hkept
    exact hkept
  have hstart : CandidatesSound decided ∧ Stands candidateId candidate.storyClusterId status decided :=
    ⟨hsound, stands_applyCandidateAction (candidatesSound_play isdigit ops) hdecides hacts⟩
  have hstates : Along (Pass.apply isdigit)
        (fun db pass ↦ Stands candidateId candidate.storyClusterId status (pass.apply isdigit db)) passes decided ↔
      ∀ before after, passes = before ++ after →
        Stands candidateId candidate.storyClusterId status (play (Pass.apply isdigit) before decided) :=
    along_apply_iff passes hstart.2
  have hkept : ∀ (db : StoryDb) (pass : Pass),
      CandidatesSound db ∧ Stands candidateId candidate.storyClusterId status db →
      Stands candidateId candidate.storyClusterId status (pass.apply isdigit db) →
      CandidatesSound (pass.apply isdigit db) ∧
        Stands candidateId candidate.storyClusterId status (pass.apply isdigit db) :=
    fun db pass h hstands ↦ ⟨h.1.pass isdigit pass, hstands⟩
  have hstep : ∀ (db : StoryDb) (pass : Pass),
      CandidatesSound db ∧ Stands candidateId candidate.storyClusterId status db →
      (Stands candidateId candidate.storyClusterId status (pass.apply isdigit db) ↔
        ¬ pass.Scores isdigit db candidate.storyClusterId) :=
    fun db pass h ↦ h.2.apply_iff h.1 hdecides.final pass
  rw [← hstates]
  exact along_congr hkept hstep passes hstart

/-! ### An approved topic is scored again -/

/-- A tenant with one candidate, for the story it has ingested. -/
def oneStory : List StoryOp :=
  let story : RawArticle :=
    { tenantId := "t1", sourceId := 0, fetchRunId := none, url := "https://a", canonicalUrl := "https://a"
      dedupeKey := none, titleNormalized := none, contentHash := "a", title := "Quay opens", summary := none
      body := none, author := none, language := none, publishedAt := none, sourceMetadata := [], createdAt := 0 }
  [.automatic (.ingest
      { sources := .single 0 { tenantId := "t1", name := "Gazette" }, rawArticles := .single 0 story }),
    .automatic (.persistEnriched
      { tenantId := "t1", sourceId := 0, rawId := 0, embedding := [1], matchedClusterId := none
        clusterSummary := some "A quay.", reuseNormalizedId := none, weighted := 1 / 2, now := 1 })]

/-- The candidate of the story can be approved. -/
theorem approves_oneStory : ∃ candidate decided,
    applyCandidateAction "t1" 1 "approve" 2 (play (apply isDigit) oneStory {}) =
      (.ok candidate, decided) := by
  have hok : (applyCandidateAction "t1" 1 "approve" 2
      (play (apply isDigit) oneStory {})).1.toOption.isSome = true := by decide +kernel
  cases hacts : applyCandidateAction "t1" 1 "approve" 2 (play (apply isDigit) oneStory {}) with
  | mk result decided =>
    cases result with
    | ok candidate => exact ⟨candidate, decided, rfl⟩
    | error exc =>
      rw [hacts] at hok
      exact absurd hok Bool.false_ne_true

/-- The approval stands when candidates expire. -/
theorem decision_kept_through_expiry : ∃ candidate decided,
    applyCandidateAction "t1" 1 "approve" 2 (play (apply isDigit) oneStory {}) =
        (.ok candidate, decided) ∧
      ∀ before after, [Pass.expire "t1" (hours 48)] = before ++ after →
        Stands 1 candidate.storyClusterId .approvedTopic (play (Pass.apply isDigit) before decided) := by
  obtain ⟨candidate, decided, hacts⟩ := approves_oneStory
  have hdecides : Decides "approve" .approvedTopic := .inl ⟨by decide +kernel, rfl⟩
  refine ⟨candidate, decided, hacts, ?_⟩
  exact (decision_kept_iff isDigit oneStory "t1" 1 "approve" 2 .approvedTopic hdecides candidate decided hacts
    [.expire "t1" (hours 48)]).mpr ⟨id, trivial⟩

/-- The next scoring pass puts the approved candidate back into the review. -/
theorem approved_topic_requeued :
    ¬ ∀ candidate decided, applyCandidateAction "t1" 1 "approve" 2
        (play (apply isDigit) oneStory {}) = (.ok candidate, decided) →
      ∀ before after, [Pass.rescore "t1" (fun _ ↦ 1 / 2) 3] = before ++ after →
        Stands 1 candidate.storyClusterId .approvedTopic (play (Pass.apply isDigit) before decided) := by
  intro h
  obtain ⟨candidate, decided, hacts⟩ := approves_oneStory
  obtain ⟨found, hfind, -, hstatus⟩ := (h candidate decided hacts _ [] (append_nil _).symm).candidate
  have hqueued : ((Pass.apply isDigit (applyCandidateAction "t1" 1 "approve" 2
      (play (apply isDigit) oneStory {})).2 (.rescore "t1" (fun _ ↦ 1 / 2) 3)).trendCandidates.find
        1).map (·.status) = some .queuedForReview := by decide +kernel
  rw [hacts] at hqueued
  have hfinal : (Pass.apply isDigit decided (.rescore "t1" (fun _ ↦ 1 / 2) 3)).trendCandidates.find 1 =
      some found := hfind
  rw [hfinal, map_some, hstatus] at hqueued
  cases hqueued

end ContentGenerator.StoryIntelligence

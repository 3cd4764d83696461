import ContentGenerator.SourceIngestion.Phases

/-!
# Which fetch runs are closed

The second transaction of a failed fetch marks the run as failed and then raises, so that the mark is rolled
back and the run stays running; a paused circuit leaves a queued run queued. Main result:
`fetch_run_closed_iff`, when the run of a call is closed after it, and what `queue_ingestion` makes of a run
that is open.
-/

namespace ContentGenerator.SourceIngestion

open Lib Lib.Action Workflows Option FetchedArticle

variable {sourceId : ℕ} {tenantId : String}

def FetchRunStatus.isClosed (status : FetchRunStatus) : Bool := status ∈ [.success, .partialFetch, .failed]

/-- The run is stored with a final status. -/
def Database.Closed (db : Database) (fetchRunId : ℕ) : Prop :=
  ∃ run, db.fetchRuns.find fetchRunId = some run ∧ run.status.isClosed

/-- The run of the call: the queued one it names, or the one it creates. -/
def IngestionCall.WorksOn (call : IngestionCall) (db db' : Database) (fetchRunId : ℕ) : Prop :=
  match call.fetchRunId with
  | some id => id = fetchRunId ∧
      ∃ run, db.getFetchRun call.tenantId call.sourceId id = some run ∧ run.status = .queued
  | none => db.fetchRuns.find fetchRunId = none ∧ (db'.fetchRuns.find fetchRunId).isSome

/-- The call closes its run: a call for a queued run finds the source and its circuit not paused, and
whatever run is claimed, the second transaction is committed. -/
def ClosesRun (p : Platform) (call : IngestionCall) (db : Database) : Prop :=
  (∀ id run, call.fetchRunId = some id → db.getFetchRun call.tenantId call.sourceId id = some run →
      run.status = .queued →
      ∃ source, db.getSource call.tenantId call.sourceId = some source ∧
        source.circuitOpenAt call.preparedAt = false) ∧
    ∀ source, Claims call db source → Commits p call db source

variable {p : Platform} {call : IngestionCall} {db : Database} {source : Source} {fetchRunId : ℕ}

theorem closingStatus_isClosed (call : IngestionCall) : call.closingStatus.isClosed := by
  unfold IngestionCall.closingStatus
  cases call.fetch <;> rfl

/-- A run the call works on, if it claims one. -/
theorem worksOn_iff_of_claims (h : Claims call db source)
    (hothers : ∀ other, other ≠ call.runId db →
      ((runIngestionWorkflow p call).final db).fetchRuns.find other = db.fetchRuns.find other)
    (hrun : (((runIngestionWorkflow p call).final db).fetchRuns.find (call.runId db)).isSome) :
    call.WorksOn db ((runIngestionWorkflow p call).final db) fetchRunId ↔ fetchRunId = call.runId db := by
  unfold IngestionCall.WorksOn IngestionCall.runId
  unfold IngestionCall.runId at hothers hrun
  cases hid : call.fetchRunId with
  | some id =>
    dsimp only
    rw [getD_some]
    exact ⟨fun hworks ↦ hworks.1.symm, fun heq ↦ ⟨heq.symm, h.2.2 id hid⟩⟩
  | none =>
    rw [hid, getD_none] at hothers hrun
    dsimp only
    rw [getD_none]
    constructor
    · rintro ⟨hnew, hsome⟩
      by_contra hne
      rw [hothers fetchRunId hne, hnew] at hsome
      exact Bool.false_ne_true hsome
    · rintro rfl
      exact ⟨db.fetchRuns.find_nextKey, hrun⟩

/-- The run of a call that claims one is closed exactly when the second transaction is committed. -/
theorem closed_iff_commits (h : Claims call db source) :
    (∀ id, call.WorksOn db ((runIngestionWorkflow p call).final db) id →
      ((runIngestionWorkflow p call).final db).Closed id) ↔ Commits p call db source := by
  obtain ⟨run, hrun, hstatus⟩ := find_claimed (p := p) h
  by_cases hcommits : Commits p call db source
  · refine iff_of_true (fun id hid ↦ ?_) hcommits
    have hstored := persistFetch_of_commits h hcommits
    rw [← run_of_claims h] at hstored
    obtain ⟨final, hfinal, hclosing⟩ := hstored.run
    have hothers : ∀ other, other ≠ call.runId db →
        ((runIngestionWorkflow p call).final db).fetchRuns.find other = db.fetchRuns.find other :=
      fun other hother ↦ (hstored.others other hother).trans (find_claimed_of_ne hother)
    obtain rfl := (worksOn_iff_of_claims h hothers (hfinal ▸ rfl)).mp hid
    exact ⟨final, hfinal, hclosing ▸ closingStatus_isClosed call⟩
  · refine iff_of_false (fun hall ↦ ?_) hcommits
    have hfinal : (runIngestionWorkflow p call).final db = claimed p call db source :=
      (run_of_claims h).trans (persistFetch_of_not_commits h hcommits)
    rw [hfinal] at hall
    have hworks : call.WorksOn db (claimed p call db source) (call.runId db) := by
      rw [← hfinal]
      refine (worksOn_iff_of_claims h (fun other hother ↦ ?_) ?_).mpr rfl
      · rw [hfinal, find_claimed_of_ne hother]
      · rw [hfinal, hrun, isSome_some]
    obtain ⟨closed, hclosed, hisClosed⟩ := hall _ hworks
    rw [← mem_unique hrun hclosed, hstatus] at hisClosed
    exact Bool.false_ne_true hisClosed

theorem closed_iff_of_not_claims (h : ∀ source, ¬ Claims call db source) :
    (∀ id, call.WorksOn db ((runIngestionWorkflow p call).final db) id →
      ((runIngestionWorkflow p call).final db).Closed id) ↔
    ∀ id run, call.fetchRunId = some id → db.getFetchRun call.tenantId call.sourceId id = some run →
      run.status ≠ .queued := by
  rw [run_of_not_claims h]
  unfold IngestionCall.WorksOn
  cases hid : call.fetchRunId with
  | none =>
    refine iff_of_true (fun id hnew ↦ ?_) fun _ _ hsome ↦ absurd hsome (some_ne_none _).symm
    dsimp only at hnew
    rw [hnew.1] at hnew
    exact absurd hnew.2 Bool.false_ne_true
  | some id =>
    dsimp only
    constructor
    · rintro hclosed other run hother hrun hqueued
      cases hother
      obtain ⟨closed, hfind, hisClosed⟩ := hclosed id ⟨rfl, run, hrun, hqueued⟩
      rw [(Database.getFetchRun_eq_some_iff.mp hrun).1] at hfind
      rw [← Option.some.inj hfind, hqueued] at hisClosed
      exact Bool.false_ne_true hisClosed
    · rintro hnone other ⟨-, run, hrun, hqueued⟩
      exact absurd hqueued (hnone id run rfl hrun)

theorem closed_iff_closesRun :
    (∀ id, call.WorksOn db ((runIngestionWorkflow p call).final db) id →
      ((runIngestionWorkflow p call).final db).Closed id) ↔ ClosesRun p call db := by
  by_cases hclaims : ∃ source, Claims call db source
  · obtain ⟨source, hclaims⟩ := hclaims
    rw [closed_iff_commits hclaims]
    constructor
    · refine fun hcommits ↦ ⟨fun id run _ _ _ ↦ ⟨source, hclaims.1, hclaims.2.1⟩, fun other hother ↦ ?_⟩
      rwa [← mem_unique hclaims.1 hother.1]
    · exact fun hcloses ↦ hcloses.2 source hclaims
  · replace hclaims := not_exists.mp hclaims
    rw [closed_iff_of_not_claims hclaims]
    constructor
    · refine fun hnone ↦ ⟨fun id run hid hrun hqueued ↦ absurd hqueued (hnone id run hid hrun),
        fun source hsource ↦ absurd hsource (hclaims source)⟩
    · rintro hcloses id run hid hrun hqueued
      obtain ⟨source, hsource, hcircuit⟩ := hcloses.1 id run hid hrun hqueued
      refine hclaims source ⟨hsource, hcircuit, fun other hother ↦ ?_⟩
      obtain rfl := mem_unique hid hother
      exact ⟨run, hrun, hqueued⟩

/-! ### Queueing after it -/

theorem isOpen_eq_false_iff (status : FetchRunStatus) : status.isOpen = false ↔ status.isClosed := by
  cases status <;> decide

theorem getOpenFetchRun_eq_none_iff :
    db.getOpenFetchRun tenantId sourceId = none ↔
      ∀ id run, db.fetchRuns.find id = some run → run.tenantId = tenantId → run.sourceId = sourceId →
        run.status.isClosed := by
  unfold Database.getOpenFetchRun
  rw [List.find?_eq_none]
  constructor
  · intro hnone id run hrun htenant hsource
    have hentry := hnone (id, run) (List.mem_reverse.mpr ((KeyedTable.find_eq_some_iff _ _ _).mp hrun))
    rw [decide_eq_true_eq] at hentry
    refine (isOpen_eq_false_iff _).mp (Bool.eq_false_iff.mpr fun hopen ↦ ?_)
    exact hentry ⟨htenant, hsource, hopen⟩
  · rintro hclosed ⟨id, run⟩ hentry hopen
    obtain ⟨htenant, hsource, hstatus⟩ := of_decide_eq_true hopen
    have hrun := (KeyedTable.find_eq_some_iff _ _ _).mpr (List.mem_reverse.mp hentry)
    have hisClosed := (isOpen_eq_false_iff _).mpr (hclosed id run hrun htenant hsource)
    exact Bool.false_ne_true (hisClosed.symm.trans hstatus)

theorem queueIngestion_new_iff
    (hsource : (db.getSource tenantId sourceId).isSome) (correlationId : Option String) (celeryTaskId : String) :
    (∃ id, (queueIngestion tenantId sourceId correlationId celeryTaskId db).1 = .ok (id, true)) ↔
      ∀ id run, db.fetchRuns.find id = some run → run.tenantId = tenantId → run.sourceId = sourceId →
        run.status.isClosed := by
  obtain ⟨source, hsource⟩ := isSome_iff_exists.mp hsource
  rw [← getOpenFetchRun_eq_none_iff]
  unfold queueIngestion
  rw [readOr_bind_of_ok (by rw [hsource, map_some, getD_some]), read_bind]
  cases db.getOpenFetchRun tenantId sourceId with
  | none => exact iff_of_true ⟨_, rfl⟩ rfl
  | some entry =>
    refine iff_of_false ?_ (some_ne_none entry)
    rintro ⟨id, hid⟩
    have hkept := (Prod.mk.inj (Except.ok.inj hid)).2
    exact Bool.false_ne_true hkept

/-- The run of a call is closed after it exactly when the call closes it, and `queue_ingestion` returns an old
run as long as one is open. -/
theorem fetch_run_closed_iff (p : Platform) (call : IngestionCall) (db : Database) :
    ((∀ id, call.WorksOn db ((runIngestionWorkflow p call).final db) id →
        ((runIngestionWorkflow p call).final db).Closed id) ↔ ClosesRun p call db) ∧
      ∀ correlationId celeryTaskId,
        (((runIngestionWorkflow p call).final db).getSource call.tenantId call.sourceId).isSome →
        ((∃ id, (queueIngestion call.tenantId call.sourceId correlationId celeryTaskId
            ((runIngestionWorkflow p call).final db)).1 = .ok (id, true)) ↔
          ∀ id run, ((runIngestionWorkflow p call).final db).fetchRuns.find id = some run →
            run.tenantId = call.tenantId → run.sourceId = call.sourceId → run.status.isClosed) :=
  ⟨closed_iff_closesRun, fun correlationId celeryTaskId hsource ↦
    queueIngestion_new_iff hsource correlationId celeryTaskId⟩

/-! ### A failed fetch without a cache -/

/-- Connectors without text functions, and a database that takes every row. -/
def plainPlatform : Platform where
  getSourceAdapter _ _ :=
    { connectorName := "rss", rateLimitPolicy := .null, sourceMetadata := .null, dedupeKey := url }
  normalizeTitle := id
  contentHash := url
  tokenizeForSimilarity _ := []
  storable _ := true
  disableAfterFailures := 5

def queuedDatabase : Database where
  sources := .single 1 { tenantId := "t1", name := "Feed" }
  fetchRuns := .single 7 { tenantId := "t1", sourceId := 1 }

def failedFetch (fetchRunId : Option ℕ) : IngestionCall where
  tenantId := "t1"
  sourceId := 1
  fetchRunId := fetchRunId
  preparedAt := minutes 1
  persistedAt := minutes 2
  finishedAt := minutes 2
  fetch := .error { exc := { className := "HTTPError", message := "503" } }

/-- The run of a fetch that fails stays running, and `queue_ingestion` returns it from then on. -/
theorem failed_fetch_stays_open :
    ¬ (∀ id, (failedFetch (some 7)).WorksOn queuedDatabase
        ((runIngestionWorkflow plainPlatform (failedFetch (some 7))).final queuedDatabase) id →
      ((runIngestionWorkflow plainPlatform (failedFetch (some 7))).final queuedDatabase).Closed id) ∧
    (queueIngestion "t1" 1 none "task"
      ((runIngestionWorkflow plainPlatform (failedFetch (some 7))).final queuedDatabase)).1.toOption =
        some (7, false) := by
  refine ⟨fun h ↦ ?_, by decide +kernel⟩
  obtain ⟨run, hrun, hclosed⟩ := h 7 ⟨rfl, _, rfl, rfl⟩
  have hstatus : (((runIngestionWorkflow plainPlatform (failedFetch (some 7))).final
      queuedDatabase).fetchRuns.find 7).map SourceFetchRun.status = some .running := by decide +kernel
  rw [hrun, map_some, Option.some.injEq] at hstatus
  rw [hstatus] at hclosed
  exact Bool.false_ne_true hclosed

end ContentGenerator.SourceIngestion

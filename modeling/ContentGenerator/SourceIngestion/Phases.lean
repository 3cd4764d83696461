import ContentGenerator.SourceIngestion.Workflow

/-!
# What the phases of a fetch do

`Claims` says when a call claims a run and asks the network, `Commits` when its second transaction is
committed. A call that claims nothing leaves the database as it is (`run_of_not_claims`), one that is not
committed leaves the claim (`persistFetch_of_not_commits`), and one that is committed leaves the row of its
run and the row of its source as `Stored` says (`persistFetch_of_commits`).
-/

namespace ContentGenerator.SourceIngestion

open Lib Lib.Action Workflows KeyedTable
open Option (getD_none getD_some map_none map_some)
open SourceFetchRun (finish)

variable {cached articles : List FetchedArticle} {error : FetchError} {rows : List RawArticle}
  {status : FetchRunStatus} {p : Platform} {call : IngestionCall} {db : Database} {source : Source}
  {sourceId fetchRunId : ℕ} {now : Time}

/-! ### The claim -/

/-- The call claims a run of the source: the source can be read, its circuit is not open, and the run of the
call, if it has one, is queued. -/
def Claims (call : IngestionCall) (db : Database) (source : Source) : Prop :=
  db.getSource call.tenantId call.sourceId = some source ∧
    source.circuitOpenAt call.preparedAt = false ∧
    ∀ id, call.fetchRunId = some id →
      ∃ run, db.getFetchRun call.tenantId call.sourceId id = some run ∧ run.status = .queued

/-- The run that a call works on: its own one or the next new one. -/
def IngestionCall.runId (call : IngestionCall) (db : Database) : ℕ :=
  call.fetchRunId.getD db.fetchRuns.nextKey

def claimed (p : Platform) (call : IngestionCall) (db : Database) (source : Source) : Database :=
  match call.fetchRunId with
  | none => db.createFetchRun (createdRun p call source)
  | some id => db.updateFetchRun id (claimedRun p call source)

@[simp] theorem sources_claimed : (claimed p call db source).sources = db.sources := by
  unfold claimed
  cases call.fetchRunId <;> rfl

@[simp] theorem rawArticles_claimed : (claimed p call db source).rawArticles = db.rawArticles := by
  unfold claimed
  cases call.fetchRunId <;> rfl

/-- The claimed run is running. -/
theorem find_claimed (h : Claims call db source) :
    ∃ run, (claimed p call db source).fetchRuns.find (call.runId db) = some run ∧ run.status = .running := by
  unfold claimed IngestionCall.runId
  cases hid : call.fetchRunId with
  | none => exact ⟨_, find_insertNew_self _ _ db.fetchRuns.find_nextKey, rfl⟩
  | some id =>
    obtain ⟨run, hrun, -⟩ := h.2.2 id hid
    refine ⟨claimedRun p call source run, ?_, rfl⟩
    change (db.fetchRuns.modify id _).find id = _
    rw [find_modify_self, (Database.getFetchRun_eq_some_iff.mp hrun).1, map_some]

theorem find_claimed_of_ne {id : ℕ} (hid : id ≠ call.runId db) :
    (claimed p call db source).fetchRuns.find id = db.fetchRuns.find id := by
  unfold IngestionCall.runId at hid
  unfold claimed
  cases hrun : call.fetchRunId with
  | none =>
    rw [hrun] at hid
    exact find_insertNew_of_ne _ _ hid
  | some other =>
    rw [hrun] at hid
    exact find_modify_of_ne _ _ hid

/-- What is handed to the second transaction. -/
def IngestionCall.prepared (call : IngestionCall) (db : Database) (source : Source) : PreparedIngestion :=
  let run := call.fetchRunId.bind fun id ↦ db.getFetchRun call.tenantId call.sourceId id
  { tenantId := call.tenantId
    sourceId := call.sourceId
    fetchRunId := call.runId db
    source
    celeryTaskId := (given call.celeryTaskId).or
      (run.bind fun run ↦ metaStr run.fetchMetadata "celery_task_id")
    correlationId := (given call.correlationId).or
      (run.bind fun run ↦ metaStr run.fetchMetadata "correlation_id") }

theorem prepareIngestion_of_claims (h : Claims call db source) :
    prepareIngestion p call db = (.ok (.inl (call.prepared db source)), claimed p call db source) := by
  obtain ⟨hsource, hcircuit, hrun⟩ := h
  unfold prepareIngestion
  refine atomically_of_ok ?_
  rw [readOr_bind_of_ok (by rw [hsource, map_some, getD_some])]
  unfold claimed IngestionCall.prepared IngestionCall.runId
  cases hid : call.fetchRunId with
  | none =>
    dsimp only
    unfold prepareSource
    rw [if_neg (by rw [hcircuit]; exact Bool.false_ne_true)]
    rfl
  | some id =>
    obtain ⟨run, hrow, hqueued⟩ := hrun id hid
    dsimp only
    rw [readOr_bind_of_ok (by rw [hrow, map_some, getD_some]), if_neg (not_not.mpr hqueued)]
    unfold prepareSource
    rw [if_neg (by rw [hcircuit]; exact Bool.false_ne_true)]
    simp only [claimRun, read_bind, modify_bind, pure_apply, Option.bind_some, hid, getD_some, hrow]

/-- The circuit ends the preparation, whatever the cache says. -/
theorem prepareSource_of_open (hopen : source.circuitOpenAt call.preparedAt = true)
    (run : Option SourceFetchRun) :
    ∃ result, prepareSource p call source run db = (result, db) ∧ ∀ prepared, result ≠ .ok (.inl prepared) := by
  unfold prepareSource
  rw [if_pos hopen]
  cases call.openCircuitCache with
  | error exc => exact ⟨.error exc, rfl, fun prepared h ↦ by cases h⟩
  | ok cached =>
    refine ⟨.ok (.inr (openCircuitResponse call run cached)), rfl, fun prepared h ↦ ?_⟩
    exact absurd (Except.ok.inj h) Sum.inr_ne_inl

theorem prepareIngestion_of_not_claims (h : ∀ source, ¬ Claims call db source) :
    ∃ result, prepareIngestion p call db = (result, db) ∧ ∀ prepared, result ≠ .ok (.inl prepared) := by
  unfold prepareIngestion
  -- a block that changes nothing is the same committed or rolled back
  have hblock : ∀ act : Ingestion (PreparedIngestion ⊕ IngestionTriggerResponse),
      (∃ result, act db = (result, db) ∧ ∀ prepared, result ≠ .ok (.inl prepared)) →
      ∃ result, Action.atomically act db = (result, db) ∧ ∀ prepared, result ≠ .ok (.inl prepared) := by
    rintro act ⟨result, hact, hresult⟩
    refine ⟨result, ?_, hresult⟩
    cases result with
    | ok value => exact atomically_of_ok hact
    | error exc => exact atomically_of_error hact
  refine hblock _ ?_
  cases hsource : db.getSource call.tenantId call.sourceId with
  | none =>
    refine ⟨.error (httpException 404 "Source not found"), readOr_bind_of_error ?_, fun prepared h ↦ by cases h⟩
    rw [hsource, map_none, getD_none]
  | some source =>
    rw [readOr_bind_of_ok (by rw [hsource, map_some, getD_some])]
    cases hid : call.fetchRunId with
    | none =>
      dsimp only
      refine prepareSource_of_open ?_ none
      by_contra hopen
      refine h source ⟨hsource, Bool.not_eq_true _ ▸ hopen, fun id hsome ↦ ?_⟩
      exact absurd (hid.symm.trans hsome) (Option.some_ne_none id).symm
    | some id =>
      dsimp only
      cases hrow : db.getFetchRun call.tenantId call.sourceId id with
      | none =>
        refine ⟨.error (httpException 404 "Ingestion run not found"), readOr_bind_of_error ?_,
          fun prepared h ↦ by cases h⟩
        rw [hrow, map_none, getD_none]
      | some run =>
        rw [readOr_bind_of_ok (by rw [hrow, map_some, getD_some])]
        by_cases hqueued : run.status = .queued
        · rw [if_neg (not_not.mpr hqueued)]
          refine prepareSource_of_open ?_ (some run)
          by_contra hopen
          refine h source ⟨hsource, Bool.not_eq_true _ ▸ hopen, fun other hother ↦ ?_⟩
          obtain rfl := Option.mem_unique hid hother
          exact ⟨run, hrow, hqueued⟩
        · rw [if_pos hqueued]
          exact ⟨_, pure_apply _ db, fun prepared h ↦ absurd (Except.ok.inj h) Sum.inr_ne_inl⟩

/-! ### Storing the articles -/

/-- The database can hold the rows of a batch. -/
def Storable (p : Platform) (db : Database) (source : Source) (sourceId fetchRunId : ℕ) (now : Time)
    (articles : List FetchedArticle) : Prop :=
  (pendingInserts p source sourceId fetchRunId now articles db).all p.storable

def Source.pollStored (live : Bool) (polledAt now : Time) (source : Source) : Source :=
  if live then (source.recordPoll polledAt).recordSuccess now else source.recordPoll polledAt

theorem insertRawArticlesConflictSafe_of_storable (h : rows.all p.storable) :
    insertRawArticlesConflictSafe p rows db =
      (.ok (rows.foldl insertConflictSafe (db.rawArticles, [])).2,
        { db with rawArticles := (rows.foldl insertConflictSafe (db.rawArticles, [])).1 }) := by
  unfold insertRawArticlesConflictSafe
  rw [if_pos h]
  rfl

theorem insertRawArticlesConflictSafe_of_not_storable (h : ¬ rows.all p.storable) :
    ∃ exc, insertRawArticlesConflictSafe p rows db = (.error exc, db) := by
  unfold insertRawArticlesConflictSafe
  rw [if_neg h]
  exact ⟨_, rfl⟩

theorem persistSuccessBody_of_storable (live : Bool) (polledAt : Time)
    (h : Storable p db source sourceId fetchRunId now articles) :
    ∃ result db' inserted,
      persistSuccessBody p source sourceId fetchRunId articles live polledAt now db = (.ok result, db') ∧
        db'.fetchRuns = db.fetchRuns.modify fetchRunId (finish articles.length inserted now) ∧
        db'.sources = db.sources.modify sourceId (Source.pollStored live polledAt now) := by
  unfold persistSuccessBody
  rw [read_bind, bind_of_ok (insertRawArticlesConflictSafe_of_storable h)]
  simp only [modify_bind, read_bind, pure_apply]
  cases live with
  | true => exact ⟨_, _, _, rfl, rfl, modify_modify _ _ _ _⟩
  | false => exact ⟨_, _, _, rfl, rfl, rfl⟩

theorem persistSuccessBody_of_not_storable (live : Bool) (polledAt : Time)
    (h : ¬ Storable p db source sourceId fetchRunId now articles) :
    ∃ exc, persistSuccessBody p source sourceId fetchRunId articles live polledAt now db = (.error exc, db) := by
  obtain ⟨exc, hexc⟩ : ∃ exc, insertRawArticlesConflictSafe p _ db = (.error exc, db) :=
    insertRawArticlesConflictSafe_of_not_storable h
  refine ⟨exc, ?_⟩
  unfold persistSuccessBody
  rw [read_bind]
  exact bind_of_error hexc

theorem loadClaim_of_found {prepared : PreparedIngestion} {run : SourceFetchRun}
    (hsource : db.getSource prepared.tenantId prepared.sourceId = some source)
    (hrun : db.fetchRuns.find prepared.fetchRunId = some run) : loadClaim prepared db = (.ok (source, run), db) := by
  simp only [loadClaim, readOr, hsource, hrun]

/-- What follows the commit is outside of the database. -/
theorem enrichAfterPersist_state (response : IngestionTriggerResponse) (newIds : List ℕ) :
    (enrichAfterPersist call response newIds db).2 = db := by
  unfold enrichAfterPersist
  split_ifs
  · rfl
  · cases call.enrich newIds <;> rfl

/-! ### The second transaction -/

/-- The second transaction of the call is committed: the fetch has brought articles, or has failed with
articles in the cache, and the database can hold them. -/
def Commits (p : Platform) (call : IngestionCall) (db : Database) (source : Source) : Prop :=
  match call.fetch with
  | .ok (articles, _) =>
    Storable p db source call.sourceId (call.runId db) call.finishedAt articles
  | .error error => ∃ cached, call.staleCache = .ok cached ∧ cached ≠ [] ∧
      Storable p db (source.recordFailure p.disableAfterFailures call.persistedAt (describeFetchError error))
        call.sourceId (call.runId db) call.finishedAt cached

/-- The columns of the source after the second transaction. -/
def Source.fetched (p : Platform) (call : IngestionCall) (polledAt : Time) (source : Source) : Source :=
  match call.fetch with
  | .ok _ => source.pollStored true polledAt call.finishedAt
  | .error error =>
    (source.recordFailure p.disableAfterFailures call.persistedAt (describeFetchError error)).pollStored false
      polledAt call.finishedAt

def IngestionCall.closingStatus (call : IngestionCall) : FetchRunStatus :=
  match call.fetch with
  | .ok _ => .success
  | .error _ => .partialFetch

def Database.RunAt (db : Database) (fetchRunId : ℕ) (status : FetchRunStatus) : Prop :=
  ∃ run, db.fetchRuns.find fetchRunId = some run ∧ run.status = status

/-- The database after the second transaction: the run is closed, the source updated, and the other runs are
as they were. -/
structure Stored (p : Platform) (call : IngestionCall) (fetchRunId : ℕ) (db db' : Database) : Prop where
  run : db'.RunAt fetchRunId call.closingStatus
  others : ∀ other, other ≠ fetchRunId → db'.fetchRuns.find other = db.fetchRuns.find other
  sources : ∃ polledAt, db'.sources = db.sources.modify call.sourceId (Source.fetched p call polledAt)

theorem Database.RunAt.updateFetchRun {status' : FetchRunStatus} (h : db.RunAt fetchRunId status)
    {f : SourceFetchRun → SourceFetchRun}
    (hf : ∀ run : SourceFetchRun, run.status = status → (f run).status = status') :
    (db.updateFetchRun fetchRunId f).RunAt fetchRunId status' := by
  obtain ⟨run, hrun, hstatus⟩ := h
  refine ⟨f run, ?_, hf run hstatus⟩
  rw [Database.fetchRuns_updateFetchRun, find_modify_self, hrun, map_some]

theorem Storable.congr {db' : Database} (h : db'.rawArticles = db.rawArticles) :
    Storable p db' source sourceId fetchRunId now articles ↔
      Storable p db source sourceId fetchRunId now articles := by
  unfold Storable pendingInserts existingRows recentRawArticles
  rw [h]

/-- The end of a committed second transaction. -/
theorem Stored.of_persistSuccessBody {db₁ db₂ : Database} {found inserted : ℕ}
    (hrun : db₁.RunAt fetchRunId status)
    (hstatus : (if status = .running then .success else status) = call.closingStatus)
    (hothers : ∀ other, other ≠ fetchRunId → db₁.fetchRuns.find other = db.fetchRuns.find other)
    (hruns₂ : db₂.fetchRuns = db₁.fetchRuns.modify fetchRunId (finish found inserted now))
    (hsources₂ : ∃ polledAt, db₂.sources = db.sources.modify call.sourceId (Source.fetched p call polledAt)) :
    Stored p call fetchRunId db db₂ := by
  refine ⟨?_, fun other hother ↦ ?_, hsources₂⟩
  · obtain ⟨run, hfind, hrunStatus⟩ := hrun
    refine ⟨finish found inserted now run, ?_, ?_⟩
    · rw [hruns₂, find_modify_self, hfind, map_some]
    · rw [← hstatus, ← hrunStatus]
      rfl
  · rw [hruns₂, find_modify_of_ne _ _ hother, hothers other hother]

/-- The health check leaves the source, the articles and the statuses of the runs. -/
theorem recordHealthcheck_frame (source : Source) (sourceId fetchRunId : ℕ) (health : JsonObject)
    (db : Database) :
    (recordHealthcheck source sourceId fetchRunId health db).sources = db.sources ∧
      (recordHealthcheck source sourceId fetchRunId health db).rawArticles = db.rawArticles ∧
      (∀ status, db.RunAt fetchRunId status →
        (recordHealthcheck source sourceId fetchRunId health db).RunAt fetchRunId status) ∧
      ∀ other, other ≠ fetchRunId →
        (recordHealthcheck source sourceId fetchRunId health db).fetchRuns.find other =
          db.fetchRuns.find other := by
  unfold recordHealthcheck
  split_ifs
  · exact ⟨rfl, rfl, fun _ h ↦ h, fun _ _ ↦ rfl⟩
  · exact ⟨rfl, rfl, fun _ h ↦ h.updateFetchRun fun _ hrun ↦ hrun,
      fun other hother ↦ find_modify_of_ne _ _ hother⟩

section Claimed

variable (hclaims : Claims call db source)

include hclaims

theorem loadClaim_claimed :
    ∃ run, loadClaim (call.prepared db source) (claimed p call db source) =
        (.ok (source, run), claimed p call db source) ∧
      (claimed p call db source).RunAt (call.runId db) .running := by
  obtain ⟨run, hrun, hstatus⟩ := find_claimed (p := p) hclaims
  refine ⟨run, loadClaim_of_found ?_ hrun, run, hrun, hstatus⟩
  unfold Database.getSource
  rw [sources_claimed]
  exact hclaims.1

/-! ### A successful fetch -/

theorem storeSuccess_of_storable {health : JsonObject} (hfetch : call.fetch = .ok (articles, health))
    (h : Storable p db source call.sourceId (call.runId db) call.finishedAt articles) :
    ∃ result db', storeSuccess p call (call.prepared db source) articles health (claimed p call db source) =
        (.ok result, db') ∧ Stored p call (call.runId db) (claimed p call db source) db' := by
  obtain ⟨run, hload, hrun⟩ := loadClaim_claimed (p := p) hclaims
  obtain ⟨hsources, hraw, hrunning, hothers⟩ :=
    recordHealthcheck_frame source call.sourceId (call.runId db) health (claimed p call db source)
  obtain ⟨result, db', inserted, hbody, hruns', hsources'⟩ :=
    persistSuccessBody_of_storable true (run.startedAt.getD call.persistedAt)
      ((Storable.congr (hraw.trans rawArticles_claimed)).mpr h)
  refine ⟨result, db', ?_, ?_⟩
  · unfold storeSuccess
    exact atomically_of_ok ((bind_of_ok hload).trans hbody)
  · refine Stored.of_persistSuccessBody (hrunning .running hrun) ?_ hothers hruns' ?_
    · rw [IngestionCall.closingStatus, hfetch]
      rfl
    · refine ⟨run.startedAt.getD call.persistedAt, ?_⟩
      rw [hsources', hsources]
      unfold Source.fetched
      rw [hfetch]

theorem storeSuccess_of_not_storable (health : JsonObject)
    (h : ¬ Storable p db source call.sourceId (call.runId db) call.finishedAt articles) :
    ∃ exc, storeSuccess p call (call.prepared db source) articles health (claimed p call db source) =
        (.error exc, claimed p call db source) := by
  obtain ⟨run, hload, hrun⟩ := loadClaim_claimed (p := p) hclaims
  obtain ⟨-, hraw, -, -⟩ :=
    recordHealthcheck_frame source call.sourceId (call.runId db) health (claimed p call db source)
  obtain ⟨exc, hbody⟩ := persistSuccessBody_of_not_storable true (run.startedAt.getD call.persistedAt)
    (mt (Storable.congr (hraw.trans rawArticles_claimed)).mp h)
  refine ⟨exc, ?_⟩
  unfold storeSuccess
  exact atomically_of_error ((bind_of_ok hload).trans hbody)

/-! ### A failed fetch -/

theorem storeFailure_of_cache (hcache : call.staleCache = .ok cached)
    (errorMessage : String) :
    ∃ db₁, (db₁.sources = db.sources.modify call.sourceId
          (Source.recordFailure p.disableAfterFailures call.persistedAt errorMessage) ∧
        db₁.rawArticles = db.rawArticles ∧ db₁.RunAt (call.runId db) .failed ∧
        ∀ other, other ≠ call.runId db →
          db₁.fetchRuns.find other = (claimed p call db source).fetchRuns.find other) ∧
      storeFailure p call (call.prepared db source) errorMessage (claimed p call db source) =
        Action.atomically (fun _ ↦ fallBack p call (call.prepared db source)
          (source.recordFailure p.disableAfterFailures call.persistedAt errorMessage) errorMessage cached db₁)
          (claimed p call db source) := by
  obtain ⟨run, hload, hrun⟩ := loadClaim_claimed (p := p) hclaims
  refine ⟨recordFetchFailure p call source call.sourceId (call.runId db) errorMessage
    (claimed p call db source), ⟨?_, rawArticles_claimed, hrun.updateFetchRun fun _ _ ↦ rfl,
      fun other hother ↦ find_modify_of_ne _ _ hother⟩, ?_⟩
  · change (claimed p call db source).sources.modify _ _ = _
    rw [sources_claimed]
  · refine atomically_congr ((bind_of_ok hload).trans ?_)
    exact (modify_bind _ _ _).trans (readOr_bind_of_ok hcache)

theorem storeFailure_of_storable
    (hfetch : call.fetch = .error error) (hcache : call.staleCache = .ok cached) (hcached : cached ≠ [])
    (h : Storable p db
      (source.recordFailure p.disableAfterFailures call.persistedAt (describeFetchError error)) call.sourceId
      (call.runId db) call.finishedAt cached) :
    ∃ result db', storeFailure p call (call.prepared db source) (describeFetchError error)
        (claimed p call db source) = (.ok result, db') ∧
      Stored p call (call.runId db) (claimed p call db source) db' := by
  obtain ⟨db₁, ⟨hsources, hraw, hrun, hothers⟩, hstore⟩ :=
    storeFailure_of_cache (p := p) hclaims hcache (describeFetchError error)
  -- the cache is noted before its articles are stored
  let db₂ := recordCacheFallback
    (source.recordFailure p.disableAfterFailures call.persistedAt (describeFetchError error)) call.sourceId
    (call.runId db) cached db₁
  have hraw₂ : db₂.rawArticles = db.rawArticles := hraw
  obtain ⟨result, db', inserted, hbody, hruns', hsources'⟩ :=
    persistSuccessBody_of_storable false call.persistedAt ((Storable.congr hraw₂).mpr h)
  refine ⟨result, db', ?_, ?_⟩
  · rw [hstore]
    unfold fallBack
    rw [if_neg hcached]
    exact atomically_of_ok hbody
  · have hrun₂ : db₂.RunAt (call.runId db) .partialFetch := hrun.updateFetchRun fun _ _ ↦ rfl
    refine Stored.of_persistSuccessBody hrun₂ ?_ (fun other hother ↦ ?_) hruns' ⟨call.persistedAt, ?_⟩
    · rw [IngestionCall.closingStatus, hfetch]
      rfl
    · exact (find_modify_of_ne _ _ hother).trans (hothers other hother)
    · rw [hsources']
      change db₁.sources.modify _ _ = _
      rw [hsources, sources_claimed, modify_modify]
      unfold Source.fetched
      rw [hfetch]

theorem storeFailure_of_not_commits (hfetch : call.fetch = .error error)
    (h : ¬ Commits p call db source) :
    ∃ exc, storeFailure p call (call.prepared db source) (describeFetchError error) (claimed p call db source) =
      (.error exc, claimed p call db source) := by
  unfold Commits at h
  rw [hfetch] at h
  cases hcache : call.staleCache with
  | error exc =>
    obtain ⟨run, hload, -⟩ := loadClaim_claimed (p := p) hclaims
    exact ⟨exc, atomically_of_error ((bind_of_ok hload).trans
      ((modify_bind _ _ _).trans (readOr_bind_of_error hcache)))⟩
  | ok cached =>
    obtain ⟨db₁, ⟨-, hraw, -, -⟩, hstore⟩ :=
      storeFailure_of_cache (p := p) hclaims hcache (describeFetchError error)
    rw [hstore]
    unfold fallBack
    by_cases hcached : cached = []
    · rw [if_pos hcached]
      exact ⟨_, atomically_of_error rfl⟩
    · rw [if_neg hcached]
      let db₂ := recordCacheFallback
        (source.recordFailure p.disableAfterFailures call.persistedAt (describeFetchError error)) call.sourceId
        (call.runId db) cached db₁
      have hraw₂ : db₂.rawArticles = db.rawArticles := hraw
      obtain ⟨exc, hbody⟩ := persistSuccessBody_of_not_storable false call.persistedAt
        (mt (Storable.congr hraw₂).mp fun hstorable ↦ h ⟨cached, hcache, hcached, hstorable⟩)
      exact ⟨exc, atomically_of_error hbody⟩

/-! ### What follows the claim -/

/-- A committed second transaction. -/
theorem persistFetch_of_commits (h : Commits p call db source) :
    Stored p call (call.runId db) (claimed p call db source)
      ((persistFetch p call (call.prepared db source)).final (claimed p call db source)) := by
  unfold Commits at h
  unfold persistFetch Action.final
  cases hfetch : call.fetch with
  | ok fetched =>
    obtain ⟨articles, health⟩ := fetched
    rw [hfetch] at h
    obtain ⟨⟨response, newIds⟩, db', hstore, hstored⟩ := storeSuccess_of_storable hclaims hfetch h
    dsimp only
    unfold persistFetchSuccess
    rw [bind_of_ok hstore]
    exact (enrichAfterPersist_state response newIds).symm ▸ hstored
  | error error =>
    rw [hfetch] at h
    obtain ⟨cached, hcache, hcached, hstorable⟩ := h
    obtain ⟨⟨response, newIds⟩, db', hstore, hstored⟩ :=
      storeFailure_of_storable hclaims hfetch hcache hcached hstorable
    dsimp only
    unfold persistFetchFailure
    rw [bind_of_ok hstore]
    exact (enrichAfterPersist_state response newIds).symm ▸ hstored

/-- A second transaction that is rolled back leaves the claim. -/
theorem persistFetch_of_not_commits (h : ¬ Commits p call db source) :
    (persistFetch p call (call.prepared db source)).final (claimed p call db source) =
      claimed p call db source := by
  unfold persistFetch Action.final
  cases hfetch : call.fetch with
  | ok fetched =>
    obtain ⟨articles, health⟩ := fetched
    unfold Commits at h
    rw [hfetch] at h
    obtain ⟨exc, hstore⟩ := storeSuccess_of_not_storable hclaims health h
    dsimp only
    unfold persistFetchSuccess
    rw [bind_of_error hstore]
  | error error =>
    obtain ⟨exc, hstore⟩ := storeFailure_of_not_commits hclaims hfetch h
    dsimp only
    unfold persistFetchFailure
    rw [bind_of_error hstore]

theorem run_of_claims :
    (runIngestionWorkflow p call).final db =
      (persistFetch p call (call.prepared db source)).final (claimed p call db source) := by
  unfold runIngestionWorkflow Action.final
  rw [bind_of_ok (prepareIngestion_of_claims hclaims)]
  dsimp only
  cases hfetch : persistFetch p call (call.prepared db source) (claimed p call db source) with
  | mk result db' =>
    cases result with
    | ok response =>
      rw [bind_of_ok hfetch]
      rfl
    | error exc => rw [bind_of_error hfetch]

end Claimed

/-- A call that claims nothing changes nothing. -/
theorem run_of_not_claims (h : ∀ source, ¬ Claims call db source) :
    (runIngestionWorkflow p call).final db = db := by
  obtain ⟨result, hprepare, hresult⟩ := prepareIngestion_of_not_claims (p := p) h
  unfold runIngestionWorkflow Action.final
  cases result with
  | error exc => rw [bind_of_error hprepare]
  | ok prepared =>
    rw [bind_of_ok hprepare]
    cases prepared with
    | inl prepared => exact absurd rfl (hresult prepared)
    | inr response => rfl

end ContentGenerator.SourceIngestion

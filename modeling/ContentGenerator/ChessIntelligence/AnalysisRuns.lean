import ContentGenerator.ChessIntelligence.AnalysisJobs

/-!
# Analysis jobs over a run

`Sound` holds of the tables in every state: one active job for each tenant and fingerprint, and for each
completed job one row for each ply of its game. A call of `enqueue` dispatches exactly the job that it makes
QUEUED (`DispatchesOnce`). `Keeps` says which events may move a job that is completed or cancelled: a forced
call of `enqueue` cancels the completed job that it has found, and what a delivery does to a job that is not
QUEUED any more is left out, except that one that gets through the analysis again leaves a completed job alone.

`analysis_jobs_sound` puts the three together for every run.
-/

namespace ContentGenerator.ChessIntelligence

open Lib List Option KeyedTable
open Function (update_of_ne update_self)

variable {middle db db' : AnalysisDb} {other id jobId moves : ℕ} {tenantId : String} {game : ChessGame}
  {outcome : AnalysisEnqueueOutcome} {env : AnalysisEnv} {job row loaded : ChessAnalysisJob}

/-! ### The tables -/

namespace AnalysisDb

def statusOf (db : AnalysisDb) (id : ℕ) : Option ChessAnalysisJobStatus := (db.jobs.find id).map (·.status)

/-- At most one job for each tenant and fingerprint is queued, running or completed. -/
def OneActive (db : AnalysisDb) : Prop :=
  ∀ id other job row, db.jobs.find id = some job → db.jobs.find other = some row → job.status ∈ activeStatuses →
    row.status ∈ activeStatuses → job.SameKey row → id = other

/-- A job has exactly one row for each ply of its game, and no others. -/
def Analysed (env : AnalysisEnv) (db : AnalysisDb) (id gameId : ℕ) : Prop :=
  ∃ game moves, env.games gameId = some game ∧ env.parseChessInput game.normalizedPgn = .ok moves ∧
    ∀ ply, db.positions.count (id, ply) = if 1 ≤ ply ∧ ply ≤ moves then 1 else 0

/-- Every completed job has exactly one row for each ply. -/
def CompletedAnalysed (env : AnalysisEnv) (db : AnalysisDb) : Prop :=
  ∀ id job, db.jobs.find id = some job → job.status = .completed → db.Analysed env id job.chessGameId

/-- What holds of the tables in every state: the rows of a job are all there or none is. -/
structure Sound (env : AnalysisEnv) (db : AnalysisDb) : Prop where
  oneActive : db.OneActive
  completed : db.CompletedAnalysed env
  positions : ∀ id, (∀ ply, (id, ply) ∉ db.positions) ∨
    ∃ job, db.jobs.find id = some job ∧ db.Analysed env id job.chessGameId

/-- The jobs of the first table are those of the second one, for the same games. -/
def Extends (db db' : AnalysisDb) : Prop :=
  ∀ id job, db.jobs.find id = some job → ∃ job', db'.jobs.find id = some job' ∧ job'.chessGameId = job.chessGameId

theorem Extends.refl (db : AnalysisDb) : db.Extends db :=
  fun _ job hjob ↦ ⟨job, hjob, rfl⟩

theorem Extends.trans {db'' : AnalysisDb} (h : db.Extends db') (h' : db'.Extends db'') : db.Extends db'' := by
  intro id job hjob
  obtain ⟨job', hjob', hgame⟩ := h id job hjob
  obtain ⟨job'', hjob'', hgame'⟩ := h' id job' hjob'
  exact ⟨job'', hjob'', hgame'.trans hgame⟩

theorem Analysed.congr {gameId : ℕ} (h : db.Analysed env id gameId)
    (hcount : ∀ ply, db'.positions.count (id, ply) = db.positions.count (id, ply)) : db'.Analysed env id gameId := by
  obtain ⟨game, moves, hgame, hparse, hrows⟩ := h
  exact ⟨game, moves, hgame, hparse, fun ply ↦ (hcount ply).trans (hrows ply)⟩

end AnalysisDb

/-- An assignment that leaves the key of a job and its game alone. -/
def KeepsIdentity (assign : ChessAnalysisJob → ChessAnalysisJob) : Prop :=
  ∀ job, (assign job).SameKey job ∧ (assign job).chessGameId = job.chessGameId

/-! ### Statements -/

namespace AnalysisDb

variable {assignments : ChessAnalysisJob → ChessAnalysisJob}

theorem updateJob_eq_some (h : db.updateJob id assignments = some db') : ∃ job, db.jobs.find id = some job ∧
    ((assignments job).status ∈ activeStatuses → ¬ db.Conflicts id (assignments job)) ∧
      db' = { db with jobs := db.jobs.modify id assignments } := by
  unfold updateJob at h
  cases hjob : db.jobs.find id with
  | none =>
    rw [hjob] at h
    cases h
  | some job =>
    rw [hjob] at h
    dsimp only at h
    by_cases hconflict : (assignments job).status ∈ activeStatuses ∧ db.Conflicts id (assignments job)
    · rw [if_pos hconflict] at h
      cases h
    · rw [if_neg hconflict] at h
      exact ⟨job, rfl, fun hactive hother ↦ hconflict ⟨hactive, hother⟩, (Option.some.inj h).symm⟩

theorem insertJob_eq_some (h : db.insertJob job = some db') :
    (job.status ∈ activeStatuses → ¬ db.Conflicts db.jobs.nextKey job) ∧
      db' = { db with jobs := db.jobs.insertNew db.jobs.nextKey job } := by
  unfold insertJob at h
  by_cases hconflict : job.status ∈ activeStatuses ∧ db.Conflicts db.jobs.nextKey job
  · rw [if_pos hconflict] at h
    cases h
  · rw [if_neg hconflict] at h
    exact ⟨fun hactive hother ↦ hconflict ⟨hactive, hother⟩, (Option.some.inj h).symm⟩

theorem insertPositions_eq_some (h : db.insertPositions jobId moves = some db') :
    (∀ ply ∈ range' 1 moves, (jobId, ply) ∉ db.positions) ∧
      db' = { db with positions := db.positions ++ (range' 1 moves).map fun ply ↦ (jobId, ply) } := by
  unfold insertPositions at h
  by_cases hconflict : ∃ ply ∈ range' 1 moves, (jobId, ply) ∈ db.positions
  · rw [if_pos hconflict] at h
    cases h
  · rw [if_neg hconflict] at h
    exact ⟨fun ply hply hmem ↦ hconflict ⟨ply, hply, hmem⟩, (Option.some.inj h).symm⟩

theorem statusOf_updateJob (h : db.updateJob id assignments = some db') :
    ∃ job, db.jobs.find id = some job ∧ db'.statusOf id = some (assignments job).status := by
  obtain ⟨job, hjob, -, rfl⟩ := updateJob_eq_some h
  refine ⟨job, hjob, ?_⟩
  unfold statusOf
  rw [find_modify_self, hjob]
  rfl

theorem statusOf_updateJob_of_ne (h : db.updateJob id assignments = some db') (hother : other ≠ id) :
    db'.statusOf other = db.statusOf other := by
  obtain ⟨job, -, -, rfl⟩ := updateJob_eq_some h
  unfold statusOf
  rw [find_modify_of_ne _ _ hother]

theorem extends_updateJob (h : db.updateJob id assignments = some db') (hkeeps : KeepsIdentity assignments) :
    db.Extends db' := by
  obtain ⟨-, -, -, rfl⟩ := updateJob_eq_some h
  intro other job hjob
  dsimp only
  rw [find_modify]
  by_cases hother : other = id
  · rw [if_pos hother, hjob]
    exact ⟨assignments job, rfl, (hkeeps job).2⟩
  · rw [if_neg hother]
    exact ⟨job, hjob, rfl⟩

theorem extends_insertJob (h : db.insertJob job = some db') : db.Extends db' := by
  obtain ⟨-, rfl⟩ := insertJob_eq_some h
  intro other row hrow
  refine ⟨row, ?_, rfl⟩
  dsimp only
  rw [find_insertNew_of_ne _ _ (ne_nextKey hrow)]
  exact hrow

theorem conflicts_of_find (hrow : db.jobs.find other = some row) (hother : other ≠ id)
    (hactive : row.status ∈ activeStatuses) (hkey : row.SameKey job) : db.Conflicts id job :=
  ⟨(other, row), (find_eq_some_iff _ _ _).mp hrow, hother, hactive, hkey⟩

end AnalysisDb

theorem ChessAnalysisJob.SameKey.symm (h : job.SameKey row) : row.SameKey job := ⟨h.1.symm, h.2.symm⟩

namespace AnalysisDb

variable {assignments : ChessAnalysisJob → ChessAnalysisJob}

/-- One job is written that the index lets through. -/
theorem Sound.of_written (h : db.Sound env) (hextends : db.Extends db')
    (hfree : job.status ∈ activeStatuses → ¬ db.Conflicts id job)
    (hcompleted : job.status = .completed → db.Analysed env id job.chessGameId)
    (hpositions : db'.positions = db.positions)
    (hfind : ∀ other row, db'.jobs.find other = some row →
      other = id ∧ row = job ∨ other ≠ id ∧ db.jobs.find other = some row) : db'.Sound env := by
  refine ⟨fun first second a b ha hb hactive hactive' hkey ↦ ?_, fun other row hrow hstatus ↦ ?_, fun other ↦ ?_⟩
  · rcases hfind first a ha with ⟨rfl, rfl⟩ | ⟨hfirst, hold⟩
    · rcases hfind second b hb with ⟨rfl, -⟩ | ⟨hsecond, hold⟩
      · rfl
      · exact absurd (conflicts_of_find hold hsecond hactive' hkey.symm) (hfree hactive)
    · rcases hfind second b hb with ⟨rfl, rfl⟩ | ⟨-, hold'⟩
      · exact absurd (conflicts_of_find hold hfirst hactive hkey) (hfree hactive')
      · exact h.oneActive first second a b hold hold' hactive hactive' hkey
  · rcases hfind other row hrow with ⟨rfl, rfl⟩ | ⟨-, hold⟩
    · exact (hcompleted hstatus).congr fun _ ↦ by rw [hpositions]
    · exact (h.completed other row hold hstatus).congr fun _ ↦ by rw [hpositions]
  · rw [hpositions]
    refine (h.positions other).imp_right ?_
    rintro ⟨row, hrow, hrows⟩
    obtain ⟨row', hrow', hgame⟩ := hextends other row hrow
    refine ⟨row', hrow', ?_⟩
    rw [hgame]
    exact hrows.congr fun _ ↦ by rw [hpositions]

/-- An update that the index lets through. -/
theorem Sound.updateJob (h : db.Sound env) (hkeeps : KeepsIdentity assignments)
    (hupdate : db.updateJob id assignments = some db')
    (hcompleted : ∀ job, db.jobs.find id = some job → (assignments job).status = .completed →
      db.Analysed env id job.chessGameId) : db'.Sound env := by
  obtain ⟨job, hjob, hfree, hdb⟩ := updateJob_eq_some hupdate
  refine h.of_written (extends_updateJob hupdate hkeeps) hfree (fun hstatus ↦ ?_) (by rw [hdb]) fun other row hrow ↦ ?_
  · rw [(hkeeps job).2]
    exact hcompleted job hjob hstatus
  · rw [hdb, find_modify] at hrow
    by_cases hother : other = id
    · rw [if_pos hother, hother, hjob] at hrow
      exact .inl ⟨hother, (Option.some.inj hrow).symm⟩
    · rw [if_neg hother] at hrow
      exact .inr ⟨hother, hrow⟩

/-- An insert that the index lets through. -/
theorem Sound.insertJob (h : db.Sound env) (hinsert : db.insertJob job = some db') (hstatus : job.status ≠ .completed) :
    db'.Sound env := by
  obtain ⟨hfree, hdb⟩ := insertJob_eq_some hinsert
  refine h.of_written (extends_insertJob hinsert) hfree (fun hcompleted ↦ absurd hcompleted hstatus) (by rw [hdb])
    fun other row hrow ↦ ?_
  rw [hdb] at hrow
  by_cases hother : other = db.jobs.nextKey
  · rw [hother, find_insertNew_self _ _ db.jobs.find_nextKey] at hrow
    exact .inl ⟨hother, (Option.some.inj hrow).symm⟩
  · rw [find_insertNew_of_ne _ _ hother] at hrow
    exact .inr ⟨hother, hrow⟩

/-- The rows of a job are inserted together, one for each ply. -/
theorem Sound.insertPositions (h : db.Sound env) (hjob : db.jobs.find jobId = some job)
    (hgame : env.games job.chessGameId = some game) (hparse : env.parseChessInput game.normalizedPgn = .ok moves)
    (hinsert : db.insertPositions jobId moves = some db') :
    db'.Sound env ∧ db'.jobs = db.jobs ∧ db'.Analysed env jobId job.chessGameId := by
  obtain ⟨hfree, rfl⟩ := insertPositions_eq_some hinsert
  have hnew : ∀ other ply, ((range' 1 moves).map fun ply ↦ (jobId, ply)).count (other, ply) =
      if other = jobId ∧ 1 ≤ ply ∧ ply ≤ moves then 1 else 0 := by
    intro other ply
    have hinjective : Function.Injective fun ply : ℕ ↦ (jobId, ply) := fun _ _ hpair ↦ (Prod.mk.inj hpair).2
    have hnodup : ((range' 1 moves).map fun ply ↦ (jobId, ply)).Nodup := (nodup_range').map hinjective
    rw [hnodup.count]
    refine if_congr ?_ rfl rfl
    rw [List.mem_map]
    constructor
    · rintro ⟨ply', hply, hpair⟩
      cases hpair
      rw [mem_range'_1] at hply
      exact ⟨rfl, hply.1, by omega⟩
    · rintro ⟨rfl, hlow, hhigh⟩
      exact ⟨ply, mem_range'_1.mpr ⟨hlow, by omega⟩, rfl⟩
  -- a job that has rows has them all, so the index lets new rows through only when there are none
  have hold : ∀ ply, db.positions.count (jobId, ply) = 0 := by
    intro ply
    rcases h.positions jobId with hnone | ⟨row, hrow, game', moves', hgame', hparse', hrows⟩
    · exact count_eq_zero.mpr (hnone ply)
    · obtain rfl := mem_unique hjob hrow
      obtain rfl := mem_unique hgame hgame'
      obtain rfl := Except.ok.inj (hparse.symm.trans hparse')
      by_cases hply : 1 ≤ ply ∧ ply ≤ moves
      · exact count_eq_zero.mpr (hfree ply (mem_range'_1.mpr ⟨hply.1, by omega⟩))
      · rw [hrows ply, if_neg hply]
  have hself : { db with positions := db.positions ++ (range' 1 moves).map fun ply ↦ (jobId, ply) }.Analysed
      env jobId job.chessGameId := by
    refine ⟨game, moves, hgame, hparse, fun ply ↦ ?_⟩
    dsimp only
    rw [count_append, hold ply, hnew, Nat.zero_add]
    exact if_congr (and_iff_right rfl) rfl rfl
  have hother : ∀ other, other ≠ jobId → ∀ ply,
      (db.positions ++ (range' 1 moves).map fun ply ↦ (jobId, ply)).count (other, ply) =
        db.positions.count (other, ply) := by
    intro other hne ply
    rw [count_append, hnew, if_neg fun hall ↦ hne hall.1, Nat.add_zero]
  refine ⟨⟨h.oneActive, fun other row hrow hcompleted ↦ ?_, fun other ↦ ?_⟩, rfl, hself⟩
  · by_cases hne : other = jobId
    · subst hne
      obtain rfl := mem_unique hjob hrow
      exact hself
    · exact (h.completed other row hrow hcompleted).congr (hother other hne)
  · by_cases hne : other = jobId
    · subst hne
      exact .inr ⟨job, hjob, hself⟩
    · refine (h.positions other).imp (fun hnone ply hmem ↦ ?_) ?_
      · have hpositive := count_pos_iff.mpr hmem
        rw [hother other hne ply, count_eq_zero.mpr (hnone ply)] at hpositive
        exact Nat.lt_irrefl _ hpositive
      · rintro ⟨row, hrow, hrows⟩
        exact ⟨row, hrow, hrows.congr (hother other hne)⟩

end AnalysisDb

/-! ### One call of `enqueue` -/

open AnalysisDb

/-- What a call of `enqueue` does to the job under an id: it makes it QUEUED and is told to dispatch it, cancels it
under `force`, or leaves its status alone. -/
inductive Enqueued (db db' : AnalysisDb) (request : EnqueueRequest) (existing : Option (ℕ × ChessAnalysisJob))
    (outcome : AnalysisEnqueueOutcome) (id : ℕ) : Prop
  | queued (hdispatch : outcome.shouldDispatch = true) (hid : outcome.jobId = id)
      (hbefore : db.statusOf id = none ∨ db.statusOf id = some .failed) (hafter : db'.statusOf id = some .queued)
  | cancelled (hdispatch : outcome.shouldDispatch = true → outcome.jobId ≠ id) (hforce : request.force = true)
      (hfound : ∃ found, existing = some (id, found)) (hafter : db'.statusOf id = some .cancelled)
  | same (hdispatch : outcome.shouldDispatch = true → outcome.jobId ≠ id) (hafter : db'.statusOf id = db.statusOf id)

/-- What holds after a call of `enqueue`. -/
structure EnqueueSound (env : AnalysisEnv) (db db' : AnalysisDb) (request : EnqueueRequest)
    (existing : Option (ℕ × ChessAnalysisJob)) (outcome : AnalysisEnqueueOutcome) : Prop where
  sound : db'.Sound env
  grows : db.Extends db'
  jobs : ∀ id, Enqueued db db' request existing outcome id

theorem enqueueSound_reused (h : db.Sound env) (request : EnqueueRequest) (existing : Option (ℕ × ChessAnalysisJob))
    (jobId : ℕ) : EnqueueSound env db db request existing ⟨jobId, true, false⟩ :=
  ⟨h, .refl db, fun _ ↦ .same (fun hdispatch ↦ by cases hdispatch) rfl⟩

theorem statusOf_insertJob (h : db.insertJob job = some db') (id : ℕ) :
    db.statusOf db.jobs.nextKey = none ∧
      db'.statusOf id = if id = db.jobs.nextKey then some job.status else db.statusOf id := by
  obtain ⟨-, rfl⟩ := insertJob_eq_some h
  unfold statusOf
  refine ⟨by rw [db.jobs.find_nextKey]; rfl, ?_⟩
  by_cases hid : id = db.jobs.nextKey
  · rw [if_pos hid, hid, find_insertNew_self _ _ db.jobs.find_nextKey]
    rfl
  · rw [if_neg hid, find_insertNew_of_ne _ _ hid]

/-- The insert, or the job that has been there first. -/
theorem enqueueSound_insertQueuedJob (h : db.Sound env) (hstatus : job.status = .queued) (request : EnqueueRequest)
    (existing : Option (ℕ × ChessAnalysisJob))
    (hinsert : insertQueuedJob db job = .ok (outcome, db')) : EnqueueSound env db db' request existing outcome := by
  unfold insertQueuedJob at hinsert
  cases hrow : db.insertJob job with
  | some inserted =>
    rw [hrow] at hinsert
    cases hinsert
    refine ⟨h.insertJob hrow (by rw [hstatus]; decide), extends_insertJob hrow, fun id ↦ ?_⟩
    obtain ⟨hnone, hafter⟩ := statusOf_insertJob hrow id
    by_cases hid : id = db.jobs.nextKey
    · rw [if_pos hid, hstatus] at hafter
      exact .queued rfl hid.symm (.inl (hid ▸ hnone)) hafter
    · rw [if_neg hid] at hafter
      exact .same (fun _ ↦ Ne.symm hid) hafter
  | none =>
    rw [hrow] at hinsert
    dsimp only at hinsert
    cases hraced : db.findMatchingJob job.tenantId job.analysisFingerprint with
    | none =>
      rw [hraced] at hinsert
      cases hinsert
    | some raced =>
      rw [hraced] at hinsert
      cases hinsert
      exact enqueueSound_reused h request existing raced.1

/-- One of the calls that want to reclaim a failed job finds it failed. -/
theorem enqueueSound_reclaimFailedJob (h : db.Sound env) {analysisFingerprint : String}
    (request : EnqueueRequest) (existing : Option (ℕ × ChessAnalysisJob))
    (hreclaim : reclaimFailedJob db id tenantId analysisFingerprint = .ok (outcome, db')) :
    EnqueueSound env db db' request existing outcome := by
  unfold reclaimFailedJob at hreclaim
  by_cases hfailed : ((db.jobs.find id).any fun job ↦ job.status = .failed) = true
  · rw [if_pos hfailed] at hreclaim
    obtain ⟨job, hjob, hstatus⟩ := (Option.any_eq_true _ _).mp hfailed
    cases hupdate : db.updateJob id fun job ↦ { job with status := .queued, errorMessage := none } with
    | none =>
      rw [hupdate] at hreclaim
      cases hreclaim
    | some updated =>
      rw [hupdate] at hreclaim
      cases hreclaim
      have hkeeps : KeepsIdentity fun job ↦ { job with status := .queued, errorMessage := none } :=
        fun job ↦ ⟨⟨rfl, rfl⟩, rfl⟩
      refine ⟨h.updateJob hkeeps hupdate fun _ _ hcompleted ↦ (by cases hcompleted), extends_updateJob hupdate hkeeps,
        fun other ↦ ?_⟩
      by_cases hother : other = id
      · obtain ⟨_, _, hafter⟩ := statusOf_updateJob hupdate
        refine .queued rfl hother.symm (.inr ?_) (hother ▸ hafter)
        unfold statusOf
        rw [hother, hjob]
        exact congrArg some (of_decide_eq_true hstatus)
      · exact .same (fun _ ↦ Ne.symm hother) (statusOf_updateJob_of_ne hupdate hother)
  · rw [if_neg hfailed] at hreclaim
    cases hraced : db.findMatchingJob tenantId analysisFingerprint with
    | none =>
      rw [hraced] at hreclaim
      cases hreclaim
    | some raced =>
      rw [hraced] at hreclaim
      cases hreclaim
      exact enqueueSound_reused h request existing raced.1

/-- A call of `enqueue`, from whatever it has found. -/
theorem enqueueSound_enqueueWrites (h : db.Sound env) {request : EnqueueRequest}
    {existing : Option (ℕ × ChessAnalysisJob)}
    (hwrites : enqueueWrites env db request game existing = .ok (outcome, db')) :
    EnqueueSound env db db' request existing outcome := by
  unfold enqueueWrites at hwrites
  cases existing with
  | none => exact enqueueSound_insertQueuedJob h rfl request none hwrites
  | some existing =>
    obtain ⟨id, found⟩ := existing
    dsimp only at hwrites
    by_cases hactive : found.status ∈ activeStatuses
    · rw [if_pos hactive] at hwrites
      by_cases hforce : request.force = true
      · rw [if_pos hforce] at hwrites
        cases hupdate : db.updateJob id fun row ↦
          { row with status := .cancelled, errorMessage := some "superseded by force=true reanalysis" } with
        | none =>
          rw [hupdate] at hwrites
          cases hwrites
        | some superseded =>
          rw [hupdate] at hwrites
          have hkeeps : KeepsIdentity fun row ↦
              { row with status := .cancelled, errorMessage := some "superseded by force=true reanalysis" } :=
            fun job ↦ ⟨⟨rfl, rfl⟩, rfl⟩
          have hsound : superseded.Sound env :=
            h.updateJob hkeeps hupdate fun _ _ hcompleted ↦ (by cases hcompleted)
          have hinserted := enqueueSound_insertQueuedJob hsound rfl request (some (id, found)) hwrites
          refine ⟨hinserted.sound, (extends_updateJob hupdate hkeeps).trans hinserted.grows, fun other ↦ ?_⟩
          obtain ⟨_, _, hcancelled⟩ := statusOf_updateJob hupdate
          by_cases hother : other = id
          · subst hother
            cases hinserted.jobs other with
            | queued hdispatch hid hbefore hafter =>
              rw [hcancelled] at hbefore
              rcases hbefore with hbefore | hbefore
              · cases hbefore
              · cases hbefore
            | cancelled hdispatch _ _ hafter => exact .cancelled hdispatch hforce ⟨found, rfl⟩ hafter
            | same hdispatch hafter => exact .cancelled hdispatch hforce ⟨found, rfl⟩ (hafter.trans hcancelled)
          · have hsame := statusOf_updateJob_of_ne hupdate hother
            cases hinserted.jobs other with
            | queued hdispatch hid hbefore hafter => exact .queued hdispatch hid (hsame ▸ hbefore) hafter
            | cancelled hdispatch _ hfound hafter => exact .cancelled hdispatch hforce hfound hafter
            | same hdispatch hafter => exact .same hdispatch (hafter.trans hsame)
      · rw [if_neg hforce] at hwrites
        cases hwrites
        exact enqueueSound_reused h request (some (id, found)) id
    · rw [if_neg hactive] at hwrites
      by_cases hreclaim : found.status = .failed ∧ ¬ request.force = true
      · rw [if_pos hreclaim] at hwrites
        exact enqueueSound_reclaimFailedJob h request (some (id, found)) hwrites
      · rw [if_neg hreclaim] at hwrites
        exact enqueueSound_insertQueuedJob h rfl request (some (id, found)) hwrites

/-! ### One delivery -/

/-- What holds after a delivery has been processed: no other job has moved, and this one has failed or is completed
with its rows, unless its status is what it was. -/
structure ProcessSound (env : AnalysisEnv) (db db' : AnalysisDb) (jobId : ℕ) : Prop where
  sound : db'.Sound env
  grows : db.Extends db'
  others : ∀ id, id ≠ jobId → db'.statusOf id = db.statusOf id
  self : db'.statusOf jobId = db.statusOf jobId ∨ db'.statusOf jobId = some .failed ∨
    db'.statusOf jobId = some .completed

theorem keepsIdentity_failJob (loaded : ChessAnalysisJob) (message : String) : KeepsIdentity fun row ↦
    { row with status := .failed, errorMessage := assign loaded.errorMessage (some message) row.errorMessage } :=
  fun _ ↦ ⟨⟨rfl, rfl⟩, rfl⟩

/-- A job that fails in the middle of its transaction. -/
theorem processSound_failJob {message : String} (h : middle.Sound env)
    (hgrows : db.Extends middle) (hothers : ∀ id, id ≠ jobId → middle.statusOf id = db.statusOf id)
    (hfail : middle.failJob jobId loaded message = some db') : ProcessSound env db db' jobId := by
  have hkeeps := keepsIdentity_failJob loaded message
  obtain ⟨_, _, hafter⟩ := statusOf_updateJob hfail
  exact ⟨h.updateJob hkeeps hfail fun _ _ hcompleted ↦ (by cases hcompleted), hgrows.trans (extends_updateJob hfail hkeeps),
    fun id hid ↦ (statusOf_updateJob_of_ne hfail hid).trans (hothers id hid), .inr (.inl hafter)⟩

theorem assign_eq_or (loaded new current : ChessAnalysisJobStatus) :
    assign loaded new current = current ∨ assign loaded new current = new := by
  unfold assign
  split
  · exact .inl rfl
  · exact .inr rfl

/-- The rows of the positions go in together, or the transaction is rolled back. -/
theorem processSound_positions {after : AnalysisDb} (h : middle.Sound env)
    (hgrows : db.Extends middle) (hothers : ∀ id, id ≠ jobId → middle.statusOf id = db.statusOf id)
    (hjob : middle.jobs.find jobId = some job) (hgame : env.games job.chessGameId = some game)
    (hparse : env.parseChessInput game.normalizedPgn = .ok moves)
    (hinsert : middle.insertPositions jobId moves = some after) :
    after.Sound env ∧ db.Extends after ∧ (∀ id, id ≠ jobId → after.statusOf id = db.statusOf id) ∧
      after.jobs.find jobId = some job ∧ after.Analysed env jobId job.chessGameId := by
  obtain ⟨hsound, hjobs, hanalysed⟩ := h.insertPositions hjob hgame hparse hinsert
  refine ⟨hsound, fun id row hrow ↦ ?_, fun id hid ↦ ?_, ?_, hanalysed⟩
  · rw [hjobs]
    exact hgrows id row hrow
  · rw [← hothers id hid]
    unfold statusOf
    rw [hjobs]
  · rw [hjobs]
    exact hjob

/-- A delivery, whatever the job has become since it was loaded; one that gets through the analysis leaves a job
that is completed as it is. -/
theorem processSound_processWrites (h : db.Sound env) {gameDeleted : Bool} {run : EngineRun}
    (hloaded : ∃ row, db.jobs.find jobId = some row ∧ row.chessGameId = loaded.chessGameId)
    (hwrites : processWrites env db tenantId jobId loaded gameDeleted run = some db') :
    ProcessSound env db db' jobId ∧ (env.getGame tenantId loaded.chessGameId gameDeleted ≠ none → run = .analysed →
      db.statusOf jobId = some .completed → db'.statusOf jobId = some .completed) := by
  obtain ⟨row, hrow, hrowGame⟩ := hloaded
  unfold processWrites at hwrites
  cases hgame : env.getGame tenantId loaded.chessGameId gameDeleted with
  | none =>
    rw [hgame] at hwrites
    dsimp only at hwrites
    have hkeeps : KeepsIdentity fun row ↦
        { row with
          status := assign loaded.status .failed row.status
          errorMessage := assign loaded.errorMessage (some "Game not found") row.errorMessage } :=
      fun _ ↦ ⟨⟨rfl, rfl⟩, rfl⟩
    refine ⟨⟨h.updateJob hkeeps hwrites fun job hjob hcompleted ↦ ?_, extends_updateJob hwrites hkeeps,
      fun id hid ↦ statusOf_updateJob_of_ne hwrites hid, ?_⟩, fun hfound ↦ absurd rfl hfound⟩
    · rcases assign_eq_or loaded.status .failed job.status with hsame | hfailed
      · exact h.completed jobId job hjob (hsame.symm.trans hcompleted)
      · cases hfailed.symm.trans hcompleted
    · obtain ⟨job, hjob, hafter⟩ := statusOf_updateJob hwrites
      rcases assign_eq_or loaded.status .failed job.status with hsame | hfailed
      · refine .inl (hafter.trans ?_)
        unfold statusOf
        rw [hjob]
        exact congrArg some hsame
      · exact .inr (.inl (hafter.trans (congrArg some hfailed)))
  | some game =>
    rw [hgame] at hwrites
    obtain ⟨middle, hmiddle, hwrites⟩ := bind_eq_some_iff.mp hwrites
    have hgame' : env.games loaded.chessGameId = some game := (filter_eq_some_iff.mp hgame).1
    have hkeeps : KeepsIdentity fun row ↦ { row with status := assign loaded.status .running row.status } :=
      fun _ ↦ ⟨⟨rfl, rfl⟩, rfl⟩
    have hgrows := extends_updateJob hmiddle hkeeps
    have hothers : ∀ id, id ≠ jobId → middle.statusOf id = db.statusOf id := fun id hid ↦
      statusOf_updateJob_of_ne hmiddle hid
    have hsound : middle.Sound env := h.updateJob hkeeps hmiddle fun job hjob hcompleted ↦ by
      rcases assign_eq_or loaded.status .running job.status with hsame | hrunning
      · exact h.completed jobId job hjob (hsame.symm.trans hcompleted)
      · cases hrunning.symm.trans hcompleted
    obtain ⟨job, hjob, hjobGame⟩ := hgrows jobId row hrow
    have hjobGame : job.chessGameId = loaded.chessGameId := hjobGame.trans hrowGame
    rw [← hjobGame] at hgame'
    cases hparse : env.parseChessInput game.normalizedPgn with
    | error message =>
      rw [hparse] at hwrites
      refine ⟨processSound_failJob hsound hgrows hothers hwrites, fun _ _ hcompleted ↦ ?_⟩
      -- the game of a completed job has been parsed
      have hstatus : row.status = .completed := by
        unfold statusOf at hcompleted
        rw [hrow] at hcompleted
        exact Option.some.inj hcompleted
      obtain ⟨parsed, moves, hparsed, hok, -⟩ := h.completed jobId row hrow hstatus
      rw [hrowGame, ← hjobGame, hgame'] at hparsed
      cases hparsed
      cases hparse.symm.trans hok
    | ok moves =>
      rw [hparse] at hwrites
      cases run with
      | configError message =>
        exact ⟨processSound_failJob hsound hgrows hothers hwrites, fun _ hrun ↦ by cases hrun⟩
      | raises message =>
        exact ⟨processSound_failJob hsound hgrows hothers hwrites, fun _ hrun ↦ by cases hrun⟩
      | persistRaises message =>
        obtain ⟨after, hinsert, hfail⟩ := bind_eq_some_iff.mp hwrites
        obtain ⟨hsound', hgrows', hothers', -⟩ := processSound_positions hsound hgrows hothers hjob hgame' hparse hinsert
        exact ⟨processSound_failJob hsound' hgrows' hothers' hfail, fun _ hrun ↦ by cases hrun⟩
      | analysed =>
        obtain ⟨after, hinsert, hcomplete⟩ := bind_eq_some_iff.mp hwrites
        obtain ⟨hsound', hgrows', hothers', hjob', hanalysed⟩ :=
          processSound_positions hsound hgrows hothers hjob hgame' hparse hinsert
        have hkeeps' : KeepsIdentity fun row ↦
            { row with
              status := .completed
              errorMessage := assign loaded.errorMessage none row.errorMessage
              plyCount := moves } :=
          fun _ ↦ ⟨⟨rfl, rfl⟩, rfl⟩
        obtain ⟨_, _, hafter⟩ := statusOf_updateJob hcomplete
        refine ⟨⟨hsound'.updateJob hkeeps' hcomplete fun other hother _ ↦ ?_,
          hgrows'.trans (extends_updateJob hcomplete hkeeps'),
          fun id hid ↦ (statusOf_updateJob_of_ne hcomplete hid).trans (hothers' id hid), .inr (.inr hafter)⟩,
          fun _ _ _ ↦ hafter⟩
        obtain rfl := mem_unique hjob' hother
        exact hanalysed

/-! ### One event -/

namespace AnalysisSystem

variable {s : AnalysisSystem}

def BecomesQueued (s s' : AnalysisSystem) (id : ℕ) : Prop :=
  s'.db.statusOf id = some .queued ∧ s.db.statusOf id ≠ some .queued

/-- A message is sent exactly for the job that has become QUEUED, and there is none without such a job. -/
def DispatchesOnce (s s' : AnalysisSystem) : Prop :=
  (s'.dispatched = s.dispatched ∧ ∀ id, ¬ BecomesQueued s s' id) ∨
    ∃ jobId, s'.dispatched = jobId :: s.dispatched ∧ ∀ id, BecomesQueued s s' id ↔ id = jobId

/-- The event is the commit of a forced call of `enqueue` that has found the job. -/
def Supersedes (s : AnalysisSystem) (event : AnalysisEvent) (id : ℕ) : Prop :=
  ∃ call request game found, event = .enqueueCommits call ∧
    s.call call = some (.enqueuing request game (some (id, found))) ∧ request.force = true

/-- The event ends a delivery for the job. -/
def Processes (s : AnalysisSystem) (event : AnalysisEvent) (id : ℕ) : Prop :=
  ∃ call gameDeleted run tenantId loaded, event = .finishes call gameDeleted run ∧
    s.call call = some (.processing tenantId id loaded)

/-- The event ends a delivery for the job that does not get through the analysis. -/
def FailsOn (env : AnalysisEnv) (s : AnalysisSystem) (event : AnalysisEvent) (id : ℕ) : Prop :=
  ∃ call gameDeleted run tenantId loaded, event = .finishes call gameDeleted run ∧
    s.call call = some (.processing tenantId id loaded) ∧
      (env.getGame tenantId loaded.chessGameId gameDeleted = none ∨ run ≠ .analysed)

/-- A completed job stays completed or is superseded, and a cancelled job stays cancelled; what a delivery does to
such a job is left out, but for the one that gets through the analysis of a completed job again. -/
structure Keeps (env : AnalysisEnv) (s : AnalysisSystem) (event : AnalysisEvent) : Prop where
  completed : ∀ id, s.db.statusOf id = some .completed → ¬ FailsOn env s event id →
    (s.step env event).db.statusOf id = some .completed ∨
      (s.step env event).db.statusOf id = some .cancelled ∧ s.Supersedes event id
  cancelled : ∀ id, s.db.statusOf id = some .cancelled → ¬ s.Processes event id →
    (s.step env event).db.statusOf id = some .cancelled

/-- What holds in every state: the jobs that are being processed have been loaded from the table. -/
structure Sound (env : AnalysisEnv) (s : AnalysisSystem) : Prop where
  db : s.db.Sound env
  loaded : ∀ call tenantId jobId loaded, s.call call = some (.processing tenantId jobId loaded) →
    ∃ row, s.db.jobs.find jobId = some row ∧ row.chessGameId = loaded.chessGameId

theorem Sound.commits (h : s.Sound env) (hdb : db'.Sound env) (hgrows : s.db.Extends db') (call : ℕ)
    (dispatched : List ℕ) : { s.ends call with db := db', dispatched := dispatched }.Sound env := by
  refine ⟨hdb, fun other tenantId jobId loaded hother ↦ ?_⟩
  dsimp only [ends] at hother
  by_cases hsame : other = call
  · rw [hsame, update_self] at hother
    cases hother
  · rw [update_of_ne hsame] at hother
    obtain ⟨row, hrow, hgame⟩ := h.loaded other tenantId jobId loaded hother
    obtain ⟨row', hrow', hgame'⟩ := hgrows jobId row hrow
    exact ⟨row', hrow', hgame'.trans hgame⟩

theorem Sound.ends (h : s.Sound env) (call : ℕ) : (s.ends call).Sound env :=
  h.commits h.db (.refl s.db) call s.dispatched

theorem Sound.step (h : s.Sound env) (event : AnalysisEvent) : (s.step env event).Sound env := by
  cases event with
  | enqueueReads call request =>
    dsimp only [AnalysisSystem.step]
    cases enqueueFinds env s.db request with
    | error error => exact h
    | ok found =>
      refine ⟨h.db, fun other tenantId jobId loaded hother ↦ ?_⟩
      dsimp only [reads] at hother
      by_cases hsame : other = call
      · rw [hsame, update_self] at hother
        cases hother
      · rw [update_of_ne hsame] at hother
        exact h.loaded other tenantId jobId loaded hother
  | enqueueCommits call =>
    dsimp only [AnalysisSystem.step]
    split
    · next request game existing hcall =>
      cases hwrites : enqueueWrites env s.db request game existing with
      | error error => exact h.ends call
      | ok written =>
        have hsound := enqueueSound_enqueueWrites h.db hwrites
        exact h.commits hsound.sound hsound.grows call _
    · exact h
  | delivers call tenantId jobId =>
    dsimp only [AnalysisSystem.step]
    cases hjob : (s.db.jobs.find jobId).filter fun job ↦ job.tenantId = tenantId with
    | none => exact h
    | some job =>
      refine ⟨h.db, fun other tenantId' jobId' loaded hother ↦ ?_⟩
      dsimp only [reads] at hother
      by_cases hsame : other = call
      · rw [hsame, update_self] at hother
        obtain ⟨-, rfl, rfl⟩ := AnalysisCall.processing.inj (Option.some.inj hother)
        exact ⟨job, (filter_eq_some_iff.mp hjob).1, rfl⟩
      · rw [update_of_ne hsame] at hother
        exact h.loaded other tenantId' jobId' loaded hother
  | finishes call gameDeleted run =>
    dsimp only [AnalysisSystem.step]
    split
    · next tenantId jobId loaded hcall =>
      cases hwrites : processWrites env s.db tenantId jobId loaded gameDeleted run with
      | none => exact h.ends call
      | some written =>
        have hsound := (processSound_processWrites h.db (h.loaded call tenantId jobId loaded hcall) hwrites).1
        exact h.commits hsound.sound hsound.grows call s.dispatched
    · exact h
  | aborts call => exact h.ends call

theorem dispatchesOnce_of_same {s' : AnalysisSystem} (hdispatched : s'.dispatched = s.dispatched)
    (hstatus : ∀ id, s'.db.statusOf id = some .queued → s.db.statusOf id = some .queued) : DispatchesOnce s s' :=
  .inl ⟨hdispatched, fun id hqueued ↦ hqueued.2 (hstatus id hqueued.1)⟩

/-- A message is sent exactly when a job becomes QUEUED, and for this job. -/
theorem Sound.dispatchesOnce_step (h : s.Sound env) (event : AnalysisEvent) : DispatchesOnce s (s.step env event) := by
  cases event with
  | enqueueReads call request =>
    dsimp only [AnalysisSystem.step]
    cases enqueueFinds env s.db request with
    | error error | ok found => exact dispatchesOnce_of_same rfl fun _ hqueued ↦ hqueued
  | enqueueCommits call =>
    dsimp only [AnalysisSystem.step]
    split
    · next request game existing hcall =>
      cases hwrites : enqueueWrites env s.db request game existing with
      | error error => exact dispatchesOnce_of_same rfl fun _ hqueued ↦ hqueued
      | ok written =>
        obtain ⟨outcome, db⟩ := written
        have hjobs := (enqueueSound_enqueueWrites h.db hwrites).jobs
        by_cases hdispatch : outcome.shouldDispatch = true
        · refine .inr ⟨outcome.jobId, if_pos hdispatch, fun id ↦ ?_⟩
          cases hjobs id with
          | queued _ hid hbefore hafter =>
            refine iff_of_true ⟨hafter, fun hqueued ↦ ?_⟩ hid.symm
            rcases hbefore with hbefore | hbefore
            · cases hbefore.symm.trans hqueued
            · cases hbefore.symm.trans hqueued
          | cancelled hother _ _ hafter =>
            refine iff_of_false (fun hqueued ↦ ?_) (Ne.symm (hother hdispatch))
            cases hafter.symm.trans hqueued.1
          | same hother hafter =>
            refine iff_of_false (fun hqueued ↦ ?_) (Ne.symm (hother hdispatch))
            exact hqueued.2 (hafter.symm.trans hqueued.1)
        · refine dispatchesOnce_of_same (if_neg hdispatch) fun id hqueued ↦ ?_
          cases hjobs id with
          | queued hdispatched _ _ _ => exact absurd hdispatched hdispatch
          | cancelled _ _ _ hafter => cases hafter.symm.trans hqueued
          | same _ hafter => exact hafter.symm.trans hqueued
    · exact dispatchesOnce_of_same rfl fun _ hqueued ↦ hqueued
  | delivers call tenantId jobId =>
    dsimp only [AnalysisSystem.step]
    cases (s.db.jobs.find jobId).filter fun job ↦ job.tenantId = tenantId with
    | none | some job => exact dispatchesOnce_of_same rfl fun _ hqueued ↦ hqueued
  | finishes call gameDeleted run =>
    dsimp only [AnalysisSystem.step]
    split
    · next tenantId jobId loaded hcall =>
      cases hwrites : processWrites env s.db tenantId jobId loaded gameDeleted run with
      | none => exact dispatchesOnce_of_same rfl fun _ hqueued ↦ hqueued
      | some written =>
        have hsound := (processSound_processWrites h.db (h.loaded call tenantId jobId loaded hcall) hwrites).1
        refine dispatchesOnce_of_same rfl fun id hqueued ↦ ?_
        by_cases hid : id = jobId
        · subst hid
          rcases hsound.self with hsame | hfailed | hcompleted
          · exact hsame.symm.trans hqueued
          · cases hfailed.symm.trans hqueued
          · cases hcompleted.symm.trans hqueued
        · exact (hsound.others id hid).symm.trans hqueued
    · exact dispatchesOnce_of_same rfl fun _ hqueued ↦ hqueued
  | aborts call => exact dispatchesOnce_of_same rfl fun _ hqueued ↦ hqueued

theorem keeps_of_same {event : AnalysisEvent} (hdb : (s.step env event).db = s.db) : Keeps env s event := by
  refine ⟨fun id hcompleted _ ↦ .inl ?_, fun id hcancelled _ ↦ ?_⟩
  · rw [hdb]
    exact hcompleted
  · rw [hdb]
    exact hcancelled

/-- Completed and cancelled jobs over one event. -/
theorem Sound.keeps_step (h : s.Sound env) (event : AnalysisEvent) : Keeps env s event := by
  cases event with
  | enqueueReads call request =>
    refine keeps_of_same ?_
    dsimp only [AnalysisSystem.step]
    cases enqueueFinds env s.db request <;> rfl
  | enqueueCommits call =>
    cases hcall : s.call call with
    | none => exact keeps_of_same (by simp only [AnalysisSystem.step, hcall])
    | some read =>
      cases read with
      | processing tenantId jobId loaded => exact keeps_of_same (by simp only [AnalysisSystem.step, hcall])
      | enqueuing request game existing =>
        cases hwrites : enqueueWrites env s.db request game existing with
        | error error => exact keeps_of_same (by simp only [AnalysisSystem.step, hcall, hwrites]; rfl)
        | ok written =>
          obtain ⟨outcome, db⟩ := written
          have hjobs := (enqueueSound_enqueueWrites h.db hwrites).jobs
          have hstep : (s.step env (.enqueueCommits call)).db = db := by
            simp only [AnalysisSystem.step, hcall, hwrites]
            rfl
          refine ⟨fun id hcompleted _ ↦ ?_, fun id hcancelled _ ↦ ?_⟩
          · rw [hstep]
            cases hjobs id with
            | queued _ _ hbefore _ =>
              rcases hbefore with hbefore | hbefore
              · cases hbefore.symm.trans hcompleted
              · cases hbefore.symm.trans hcompleted
            | cancelled _ hforce hfound hafter =>
              obtain ⟨found, rfl⟩ := hfound
              exact .inr ⟨hafter, call, request, game, found, rfl, hcall, hforce⟩
            | same _ hafter => exact .inl (hafter.trans hcompleted)
          · rw [hstep]
            cases hjobs id with
            | queued _ _ hbefore _ =>
              rcases hbefore with hbefore | hbefore
              · cases hbefore.symm.trans hcancelled
              · cases hbefore.symm.trans hcancelled
            | cancelled _ _ _ hafter => exact hafter
            | same _ hafter => exact hafter.trans hcancelled
  | delivers call tenantId jobId =>
    refine keeps_of_same ?_
    dsimp only [AnalysisSystem.step]
    cases (s.db.jobs.find jobId).filter fun job ↦ job.tenantId = tenantId <;> rfl
  | finishes call gameDeleted run =>
    cases hcall : s.call call with
    | none => exact keeps_of_same (by simp only [AnalysisSystem.step, hcall])
    | some read =>
      cases read with
      | enqueuing request game existing => exact keeps_of_same (by simp only [AnalysisSystem.step, hcall])
      | processing tenantId jobId loaded =>
        cases hwrites : processWrites env s.db tenantId jobId loaded gameDeleted run with
        | none => exact keeps_of_same (by simp only [AnalysisSystem.step, hcall, hwrites]; rfl)
        | some db =>
          obtain ⟨hsound, hagain⟩ :=
            processSound_processWrites h.db (h.loaded call tenantId jobId loaded hcall) hwrites
          have hstep : (s.step env (.finishes call gameDeleted run)).db = db := by
            simp only [AnalysisSystem.step, hcall, hwrites]
          refine ⟨fun id hcompleted hsucceeds ↦ .inl ?_, fun id hcancelled hother ↦ ?_⟩
          · rw [hstep]
            by_cases hid : id = jobId
            · subst hid
              refine hagain (fun hnone ↦ hsucceeds ?_) ?_ hcompleted
              · exact ⟨call, gameDeleted, run, tenantId, loaded, rfl, hcall, .inl hnone⟩
              · by_contra hrun
                exact hsucceeds ⟨call, gameDeleted, run, tenantId, loaded, rfl, hcall, .inr hrun⟩
            · exact (hsound.others id hid).trans hcompleted
          · rw [hstep]
            have hid : id ≠ jobId := by
              rintro rfl
              exact hother ⟨call, gameDeleted, run, tenantId, loaded, rfl, hcall⟩
            exact (hsound.others id hid).trans hcancelled
  | aborts call => exact keeps_of_same rfl

theorem sound_empty (env : AnalysisEnv) : Sound env {} where
  db :=
    { oneActive := fun id other job row hjob ↦ by cases hjob
      completed := fun id job hjob ↦ by cases hjob
      positions := fun id ↦ .inl fun ply hrow ↦ not_mem_nil hrow }
  loaded := fun call tenantId jobId loaded hcall ↦ by cases hcall

end AnalysisSystem

/-! ### Runs -/

/-- In every run of calls of `enqueue` and deliveries, late or repeated, at most one job for each tenant and
fingerprint is active and every completed job has one row for each ply; a message is sent once for
each job that becomes QUEUED; and completed and cancelled jobs are kept, as far as `Keeps` says. -/
theorem analysis_jobs_sound (env : AnalysisEnv) (events : List AnalysisEvent) :
    (∀ before after, events = before ++ after →
        (play (AnalysisSystem.step env) before {}).db.OneActive ∧
          (play (AnalysisSystem.step env) before {}).db.CompletedAnalysed env) ∧
      Along (AnalysisSystem.step env) (fun s event ↦ AnalysisSystem.DispatchesOnce s (s.step env event) ∧
        AnalysisSystem.Keeps env s event) events {} := by
  constructor
  · intro before after _
    have hsound := play_invariant (fun s event (hs : s.Sound env) ↦ hs.step event) before
      (AnalysisSystem.sound_empty env)
    exact ⟨hsound.db.oneActive, hsound.db.completed⟩
  · refine (along_true events ({} : AnalysisSystem)).mono_invariant (fun s event (hs : s.Sound env) _ ↦ hs.step event)
      (fun s event hs _ ↦ ?_) (AnalysisSystem.sound_empty env)
    exact ⟨hs.dispatchesOnce_step event, hs.keeps_step event⟩

/-- In every state a job, completed or not, has no position or one for each ply of its game. -/
theorem positions_all_or_none (env : AnalysisEnv) (events : List AnalysisEvent) (id : ℕ) :
    let db := (play (AnalysisSystem.step env) events {}).db
    (∀ ply, (id, ply) ∉ db.positions) ∨
      ∃ job, db.jobs.find id = some job ∧ db.Analysed env id job.chessGameId :=
  (play_invariant (fun s event (hs : s.Sound env) ↦ hs.step event) events
    (AnalysisSystem.sound_empty env)).db.positions id

/-- Completed and cancelled jobs do not move at all. -/
def AnalysisSystem.StaysPut (s s' : AnalysisSystem) : Prop :=
  ∀ id, (s.db.statusOf id = some .completed → s'.db.statusOf id = some .completed) ∧
    (s.db.statusOf id = some .cancelled → s'.db.statusOf id = some .cancelled)

def oneGameEnv : AnalysisEnv where
  games := fun id ↦ if id = 7 then
    some { tenantId := "t", gameFingerprint := "g", contentHash := "", normalizedPgn := "1. e4 *",
           startingFen := "", moveCount := 1 } else none
  parseChessInput := fun _ ↦ .ok 1
  computeAnalysisFingerprint := fun game settings ↦ game ++ settings
  engineConfigured := true

def queuedOnce : List AnalysisEvent := [.enqueueReads 1 { tenantId := "t", gameId := 7 }, .enqueueCommits 1]

def analysedOnce : List AnalysisEvent := queuedOnce ++ [.delivers 2 "t" 1, .finishes 2 false .analysed]

/-- A forced call of `enqueue`. -/
def forcedCall : List AnalysisEvent :=
  [.enqueueReads 3 { tenantId := "t", gameId := 7, force := true }, .enqueueCommits 3]

/-- A forced call cancels a completed job. A second delivery whose engine fails makes a completed job FAILED, and
the late message of a job that has been superseded makes it COMPLETED once the job in its place has failed. -/
theorem finished_jobs_move :
    ¬ Along (AnalysisSystem.step oneGameEnv) (fun s event ↦ s.StaysPut (s.step oneGameEnv event))
        (analysedOnce ++ forcedCall) {} ∧
      ¬ Along (AnalysisSystem.step oneGameEnv) (fun s event ↦ s.StaysPut (s.step oneGameEnv event))
        (analysedOnce ++ [.delivers 4 "t" 1, .finishes 4 false (.raises "engine terminated")]) {} ∧
      ¬ Along (AnalysisSystem.step oneGameEnv) (fun s event ↦ s.StaysPut (s.step oneGameEnv event))
        (queuedOnce ++ forcedCall ++ [.delivers 5 "t" 2, .finishes 5 false (.raises "engine terminated")] ++
          [.delivers 6 "t" 1, .finishes 6 false .analysed]) {} := by
  refine ⟨fun h ↦ ?_, fun h ↦ ?_, fun h ↦ ?_⟩
  · have hlast := ((along_append _ _ _).mp h).2.2.1 1
    exact absurd (hlast.1 (by decide +kernel)) (by decide +kernel)
  · have hlast := ((along_append _ _ _).mp h).2.2.1 1
    exact absurd (hlast.1 (by decide +kernel)) (by decide +kernel)
  · have hlast := ((along_append _ _ _).mp h).2.2.1 1
    exact absurd (hlast.2 (by decide +kernel)) (by decide +kernel)

end ContentGenerator.ChessIntelligence

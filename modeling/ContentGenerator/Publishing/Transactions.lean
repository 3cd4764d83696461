import ContentGenerator.Publishing.Consistency

/-!
# Every step keeps the tables consistent

One lemma for each kind of transaction: the insertion of the jobs of a request (`Sound.commitCreated`),
a change of status (`Sound.writeStatus`), the claim of due jobs, the two boundaries of an attempt. They
are put together in `Sound.apply`.

Main result: `publishing_consistent`.
-/

namespace ContentGenerator.Publishing

open Lib List Option KeyedTable PublishingJob Function
open PublishingAttempt (attemptNumber)

variable {attempts : KeyedTable String PublishingAttempt} {copy : PublishingJob}
  {created : List (ℕ × PublishingJob)} {status : PublishingAttemptStatus} {workerId : Option String}

namespace PublishingState

variable {env : PublishingEnv} {now : Time} {s s' : PublishingState} {id : ℕ}
  {job stored base new : PublishingJob} {who : ℕ} {p : Publisher}

/-! ### Sessions only -/

theorem TablesSound.of_tables (h : s.TablesSound) (hjobs : s'.jobs = s.jobs)
    (hattempts : s'.attempts = s.attempts) (hposts : s'.posts = s.posts) : s'.TablesSound where
  keys := by
    rw [hjobs]
    exact h.keys
  known := by
    rw [hjobs, hattempts]
    exact h.known
  posted := by
    rw [hjobs, hposts]
    exact h.posted
  job := by
    rw [hjobs]
    intro other row hrow
    refine (h.job other row hrow).of_same rfl rfl (fun n ↦ ?_) ?_
      (fun hambiguous ↦ ((h.job other row hrow).taken hambiguous).1) fun hrunning ↦ hrunning
    · unfold statusAt
      rw [hattempts]
    · unfold postsOf
      rw [hposts]

theorem Sound.update (h : s.Sound) (who : ℕ) (session : Option Session)
    (hown : ∀ new, session = some new → s.SessionSound new) :
    s.SoundStep { s with session := update s.session who session } := by
  refine h.step (h.tables.of_tables rfl rfl rfl) (.of_tables rfl rfl rfl) who ?_ ?_
  · intro other hother
    exact update_of_ne hother _ _
  · intro new hnew
    have hsession : session = some new := by
      rw [← hnew]
      exact (update_self who session s.session).symm
    exact (hown new hsession).rely (.of_tables rfl rfl rfl)

theorem Sound.close (h : s.Sound) (who : ℕ) : s.SoundStep (s.close who) :=
  h.update who none fun _ hnone ↦ absurd hnone (by simp)

theorem Sound.proceed (h : s.Sound) (who : ℕ) (hp : s.SessionSound (.publisher p)) :
    s.SoundStep (s.proceed who p) := by
  refine h.update who _ fun new hnew ↦ ?_
  rw [← Option.some.inj hnew]
  exact hp

/-! ### The jobs of a request -/

theorem create_status (scheduledFor : Option Time) (account : JobRequest) :
    (account.create scheduledFor).status = if scheduledFor.isSome then .scheduled else .pending :=
  rfl

variable {jobs : KeyedTable ℕ PublishingJob} {rest : List (ℕ × PublishingJob)} {n : ℕ}
  {existing : Option PublishingAttempt} {attempt : PublishingAttempt}

theorem rely_insertJobs
    (hjobs : insertJobs created s.jobs = some jobs) : s.Rely { s with jobs := jobs } where
  row := fun _ row hrow ↦
    ⟨row, insertJobs_find hjobs hrow, rfl, .inr ⟨rfl, rfl, .inl rfl, rfl, fun _ ↦ rfl⟩⟩

theorem TablesSound.find_attempt_of_new (h : s.TablesSound)
    (hnew : ¬ hasIdempotencyKey s.jobs.entries job.idempotencyKey) (n : ℕ) :
    s.attempts.find (buildAttemptKey job n) = none := by
  cases hattempt : s.attempts.find (buildAttemptKey job n) with
  | none => rfl
  | some attempt =>
    obtain ⟨-, row, hrow, hsame⟩ := h.known _ _ hattempt
    exact absurd (hasIdempotencyKey_iff.mpr ⟨_, row, hrow, (attemptKey_inj hsame).1.symm⟩) hnew

theorem TablesSound.postsOf_of_new (h : s.TablesSound) (hnone : s.jobs.find id = none) :
    s.postsOf id = [] := by
  unfold postsOf
  rw [filter_eq_nil_iff]
  intro post hpost hid
  have hsome := h.posted post hpost
  rw [of_decide_eq_true hid, hnone] at hsome
  simp at hsome

theorem TablesSound.insertJobs (h : s.TablesSound)
    {scheduledFor : Option Time} (hcreated : ∀ entry ∈ created, ∃ account : JobRequest,
      entry = (account.id, account.create scheduledFor))
    (hjobs : insertJobs created s.jobs = some jobs) :
    ({ s with jobs := jobs } : PublishingState).TablesSound where
  keys := by
    refine insertJobs_invariant (P := fun jobs ↦ ∀ id job id' job', jobs.find id = some job →
      jobs.find id' = some job' → job.idempotencyKey = job'.idempotencyKey → id = id') ?_ hjobs h.keys
    intro id job jobs hnone hnew hkeys first row second row' hrow hrow' hsame
    rw [find_insertNew] at hrow hrow'
    split_ifs at hrow hrow' with hfirst hsecond hsecond
    · exact hfirst.1.trans hsecond.1.symm
    · cases hrow
      exact absurd (hasIdempotencyKey_iff.mpr ⟨second, row', hrow', hsame.symm⟩) hnew
    · cases hrow'
      exact absurd (hasIdempotencyKey_iff.mpr ⟨first, row, hrow, hsame⟩) hnew
    · exact hkeys _ _ _ _ hrow hrow' hsame
  known := by
    intro key attempt hattempt
    obtain ⟨hkey, row, hrow, hsame⟩ := h.known key attempt hattempt
    exact ⟨hkey, row, insertJobs_find hjobs hrow, hsame⟩
  posted := by
    intro post hpost
    obtain ⟨row, hrow⟩ := isSome_iff_exists.mp (h.posted post hpost)
    exact isSome_iff_exists.mpr ⟨row, insertJobs_find hjobs hrow⟩
  job := by
    intro other row hrow
    rcases insertJobs_mem hjobs hrow with hold | hnew
    · exact (h.job other row hold).of_same rfl rfl (fun _ ↦ rfl) rfl
        (fun hambiguous ↦ ((h.job other row hold).taken hambiguous).1) fun hrunning ↦ hrunning
    · obtain ⟨hnone, hkey, -⟩ := insertJobs_created hjobs hnew
      obtain ⟨account, haccount⟩ := hcreated _ hnew
      cases haccount
      refine .fresh rfl (fun n ↦ ?_) (h.postsOf_of_new hnone) ?_
      · unfold statusAt
        rw [h.find_attempt_of_new hkey n]
        rfl
      · rw [create_status]
        split_ifs <;> decide

theorem Sound.commitCreated (h : s.Sound) (hsession : s.session who = some (.publisher p))
    (haccounts : p.accounts = [])
    (hjobs : Publishing.insertJobs p.created s.jobs = some jobs) :
    s.SoundStep ({ s with jobs := jobs }.proceed who { p with created := [] }) := by
  obtain ⟨hcreated, -, htodo, hphase⟩ := h.session who _ hsession
  have hrely := rely_insertJobs hjobs
  have htables := h.tables.insertJobs hcreated hjobs
  -- a job of the request is held as it was inserted, any other one as it was before
  have hhand : ∀ other copy, s.InHand p.created other copy →
      ({ s with jobs := jobs } : PublishingState).InHand [] other copy := by
    rintro other copy ⟨hpublishable, hheld, hmem⟩
    refine ⟨hpublishable, fun _ ↦ ?_, fun hne ↦ absurd rfl hne⟩
    by_cases hnil : p.created = []
    · exact (hheld hnil).rely hrely
    · obtain ⟨-, -, hfind⟩ := insertJobs_created hjobs (hmem hnil)
      exact ⟨copy, hfind, rfl, .current rfl ⟨rfl, .inl rfl⟩⟩
  refine h.step (htables.of_tables rfl rfl rfl) ⟨hrely.row⟩ who ?_ ?_
  · intro other hother
    exact (session_proceed _ who other _).trans (if_neg hother)
  · intro session hsession'
    rw [session_proceed, if_pos rfl] at hsession'
    rw [← Option.some.inj hsession']
    refine SessionSound.rely (s := { s with jobs := jobs }) ⟨fun entry hentry ↦ absurd hentry
      not_mem_nil, fun hne ↦ absurd haccounts hne, fun entry hentry ↦ hhand _ _
        (htodo entry hentry), ?_⟩ (.of_tables rfl rfl rfl)
    -- nothing was known of a job that was not there, and nothing is stored about it
    have hfresh : ∀ other copy, s.InHand p.created other copy → p.created ≠ [] →
        s.postsOf other = [] ∧ ¬ hasIdempotencyKey s.jobs.entries copy.idempotencyKey := by
      intro other copy hcopy hne
      obtain ⟨hnone, hkey, -⟩ := insertJobs_created hjobs (hcopy.2.2 hne)
      exact ⟨h.tables.postsOf_of_new hnone, hkey⟩
    cases hcase : p.phase with
    | ready => trivial
    | looked other copy =>
      rw [hcase] at hphase
      refine ⟨hhand _ _ hphase.1, fun _ ↦ ?_⟩
      by_cases hnil : p.created = []
      · exact (hphase.2 hnil).rely (hphase.1.2.1 hnil) hrely fun _ _ hpost _ hnone ↦ hpost.trans hnone
      · exact fun _ _ _ ↦ publishedPost_eq_none_iff.mpr (hfresh _ _ hphase.1 hnil).1
    | preparing other copy existing =>
      rw [hcase] at hphase
      obtain ⟨hinHand, hcurrent, hexisting⟩ := hphase
      refine ⟨hhand _ _ hinHand, fun _ ↦ ?_, fun attempt hattempt ↦ ?_⟩
      · by_cases hnil : p.created = []
        · obtain ⟨row, hrow, hkey, htracks⟩ := hinHand.2.1 hnil
          refine (hcurrent hnil).rely ⟨row, hrow, hkey, htracks⟩ hrely fun _ _ hpost _ hfact ↦ ?_
          exact ⟨hpost.trans hfact.1, hfact.2⟩
        · obtain ⟨hposts, hkey⟩ := hfresh _ _ hinHand hnil
          refine fun _ _ _ ↦ ⟨publishedPost_eq_none_iff.mpr hposts, ?_⟩
          refine (h.tables.find_attempt_of_new hkey _).trans ?_
          cases existing with
          | none => rfl
          | some attempt =>
            obtain ⟨owner, row, hrow, hsame⟩ := hexisting attempt rfl
            exact absurd (hasIdempotencyKey_iff.mpr ⟨owner, row, hrow, hsame⟩) hkey
      · obtain ⟨owner, row, hrow, hsame⟩ := hexisting attempt hattempt
        exact ⟨owner, row, insertJobs_find hjobs hrow, hsame⟩
    | attempting other copy attempt sent =>
      rw [hcase] at hphase
      obtain ⟨hnil, hheld, hrunning, hattemptKey, hnumber, hstatus, hcurrent⟩ := hphase
      refine ⟨rfl, hheld.rely hrely, hrunning, hattemptKey, hnumber, hstatus, ?_⟩
      exact hcurrent.rely hheld hrely fun _ _ _ _ hfact ↦ hfact

/-! ### A change of status -/

theorem Writes.of_job (htables : s.TablesSound) (hrow : s.jobs.find id = some stored)
    (hjobs : s'.jobs = s.jobs.modify id (flush base new))
    (hattempts : s'.attempts = s.attempts) (hposts : s'.posts = s.posts) :
    Writes id stored (flush base new stored) s s' where
  row := hrow
  jobs := by
    intro other
    rw [hjobs, find_modify]
    split_ifs with hother
    · rw [hother, hrow]
      rfl
    · rfl
  key := rfl
  version := Nat.lt_succ_self _
  attempts := fun key _ ↦ by rw [hattempts]
  known := by
    intro n attempt hattempt
    rw [hattempts] at hattempt
    exact htables.owned hrow hattempt
  posts := ⟨[], by rw [hposts, append_nil], by simp⟩

theorem Sound.writeStatus (h : s.Sound) (who : ℕ) (hrow : s.jobs.find id = some stored)
    (hjobs : s'.jobs = s.jobs.modify id (flush base new))
    (hattempts : s'.attempts = s.attempts) (hposts : s'.posts = s.posts)
    (hcount : new.retryCount = base.retryCount) (hchanged : new.status ≠ base.status)
    (hstopped : new.status ≠ .running)
    (htaken : s.statusAt stored stored.retryCount ≠ some .ambiguous)
    (hothers : ∀ other, other ≠ who → s'.session other = s.session other)
    (hown : s.Rely s' → ∀ session, s'.session who = some session → s'.SessionSound session) :
    s.SoundStep s' := by
  have hwrites := Writes.of_job h.tables hrow hjobs hattempts hposts
  have hstatus : (flush base new stored).status = new.status :=
    flushColumn_of_ne hchanged _
  have hretry : (flush base new stored).retryCount = stored.retryCount := by
    change flushColumn base.retryCount new.retryCount stored.retryCount = _
    rw [hcount, flushColumn_unchanged]
  have hjob : s'.JobSound id (flush base new stored) := by
    refine (h.tables.job id stored hrow).of_same rfl hretry (fun n ↦ ?_) ?_
      (fun hambiguous ↦ absurd hambiguous htaken) fun hrunning ↦ absurd (hstatus ▸ hrunning) hstopped
    · unfold statusAt
      rw [hattempts]
    · unfold postsOf
      rw [hposts]
  have hrely := hwrites.rely h.tables htaken
  exact h.step (hwrites.tablesSound h.tables hjob) hrely who hothers (hown hrely)

/-- A copy of the stored version tells the retry count, and the status up to a claim. -/
theorem Held.agrees (h : s.Held id base) (hrow : s.jobs.find id = some stored)
    (hversion : stored.version = base.version) : Agrees base stored := by
  obtain ⟨row, hrow', -, htracks⟩ := h
  obtain rfl := mem_unique hrow' hrow
  exact htracks.same hversion.symm

/-- The next attempt of a current copy is the next one of the job. -/
theorem Held.attemptKey_eq_iff (h : s.Held id base) (hrow : s.jobs.find id = some stored)
    (hversion : stored.version = base.version) (n : ℕ) :
    buildAttemptKey stored n = buildAttemptKey base (base.retryCount + 1) ↔ n = stored.retryCount + 1 := by
  rw [← h.attemptKeys hrow, ← (h.agrees hrow hversion).1]
  exact ⟨fun hsame ↦ (attemptKey_inj hsame).2, fun hn ↦ by rw [hn]⟩

/-- Nobody has begun the job since a session loaded it, if the versions are the same. -/
theorem Held.not_running (h : s.Held id base) (hrow : s.jobs.find id = some stored)
    (hversion : stored.version = base.version) (hbase : base.status ≠ .running) :
    stored.status ≠ .running := by
  intro hrunning
  rcases (h.agrees hrow hversion).2 with hsame | ⟨-, hclaimed⟩
  · exact hbase (hsame.symm.trans hrunning)
  · exact absurd (hrunning.symm.trans hclaimed) (by decide)

/-- The latest attempt of a job that nobody has to look at has a known outcome. -/
theorem TablesSound.not_ambiguous (h : s.TablesSound) (hrow : s.jobs.find id = some stored)
    (hstatus : stored.status ≠ .manualRequired) :
    s.statusAt stored stored.retryCount ≠ some .ambiguous :=
  fun hambiguous ↦ hstatus ((h.job id stored hrow).taken hambiguous).1

/-! ### The claim of due jobs -/

theorem recover_spec (env : PublishingEnv) (now : Time) (latest : Option PublishingAttempt)
    (job : PublishingJob) :
    (job.recover env now latest).idempotencyKey = job.idempotencyKey ∧
      (job.recover env now latest).retryCount = job.retryCount ∧
      (job.recover env now latest).version = job.version + 1 ∧
      (job.recover env now latest).status ≠ .running := by
  unfold recover
  split <;> exact ⟨rfl, rfl, rfl, PublishingJobStatus.noConfusion⟩

/-- What recovery and claim do to a job: nothing; or the job was not out for a person, is not running
afterwards, and has a new version or is claimed. -/
theorem claimRow_cases (s : PublishingState) (env : PublishingEnv) (now : Time) (workerId : String)
    (stale due : List ℕ) (id : ℕ) (job : PublishingJob) :
    claimRow env now workerId due id (s.recoverRow env now stale id job) = job ∨
      job.status ≠ .manualRequired ∧
        (claimRow env now workerId due id (s.recoverRow env now stale id job)).status ≠ .running ∧
        (claimRow env now workerId due id (s.recoverRow env now stale id job)).idempotencyKey =
          job.idempotencyKey ∧
        (claimRow env now workerId due id (s.recoverRow env now stale id job)).retryCount =
          job.retryCount ∧
        (job.version <
            (claimRow env now workerId due id (s.recoverRow env now stale id job)).version ∨
          (claimRow env now workerId due id (s.recoverRow env now stale id job)).version =
              job.version ∧
            job.status.isDue ∧
            (claimRow env now workerId due id (s.recoverRow env now stale id job)).status =
              .claimed) := by
  unfold recoverRow
  split_ifs with hstale
  · obtain ⟨hkey, hcount, hversion, hstatus⟩ := recover_spec env now (s.latestAttempt id) job
    have hactive : job.status.isActive := by
      have hboth := hstale.2
      unfold isStale at hboth
      exact (of_decide_eq_true hboth).1
    have hmanual : job.status ≠ .manualRequired := by
      intro hmanual
      rw [hmanual] at hactive
      exact absurd hactive (by decide)
    refine .inr ⟨hmanual, ?_⟩
    unfold claimRow
    split_ifs
    · exact ⟨PublishingJobStatus.noConfusion, hkey, hcount, .inl (by rw [claim, hversion]; omega)⟩
    · exact ⟨hstatus, hkey, hcount, .inl (by omega)⟩
  · unfold claimRow
    split_ifs with hclaimed
    · have hdue : job.status.isDue := by
        have hall := hclaimed.2
        unfold isDue at hall
        exact (of_decide_eq_true hall).1
      have hmanual : job.status ≠ .manualRequired := by
        intro hmanual
        rw [hmanual] at hdue
        exact absurd hdue (by decide)
      exact .inr ⟨hmanual, PublishingJobStatus.noConfusion, rfl, rfl, .inr ⟨rfl, hdue, rfl⟩⟩
    · exact .inl rfl

theorem find_executeDueJobs (env : PublishingEnv) (now : Time) (who : ℕ) (workerId : String)
    (stale due : List ℕ) (id : ℕ) :
    (s.executeDueJobs env now who workerId stale due).jobs.find id =
      (s.jobs.find id).map fun job ↦ claimRow env now workerId due id (s.recoverRow env now stale id job) := by
  change ((s.jobs.mapValues _).mapValues _).find id = _
  rw [find_mapValues, find_mapValues, Option.map_map]
  rfl

theorem TablesSound.rely_executeDueJobs (h : s.TablesSound) (env : PublishingEnv) (now : Time)
    (who : ℕ) (workerId : String) (stale due : List ℕ) :
    s.Rely (s.executeDueJobs env now who workerId stale due) where
  row := by
    intro id row hrow
    refine ⟨claimRow env now workerId due id (s.recoverRow env now stale id row), ?_, ?_⟩
    · rw [find_executeDueJobs, hrow]
      rfl
    rcases claimRow_cases s env now workerId stale due id row with
      hsame | ⟨hmanual, -, hkey, hcount, hrest⟩
    · rw [hsame]
      exact ⟨rfl, .inr ⟨rfl, rfl, .inl rfl, rfl, fun _ ↦ rfl⟩⟩
    · refine ⟨hkey, ?_⟩
      rcases hrest with hwritten | ⟨hversion, hdue, hclaimed⟩
      · exact .inl ⟨hwritten, h.not_ambiguous hrow hmanual⟩
      · exact .inr ⟨hversion, hcount, .inr ⟨hdue, hclaimed⟩, rfl, fun _ ↦ rfl⟩

theorem TablesSound.executeDueJobs (h : s.TablesSound) (env : PublishingEnv) (now : Time) (who : ℕ)
    (workerId : String) (stale due : List ℕ) :
    (s.executeDueJobs env now who workerId stale due).TablesSound := by
  have hback : ∀ id row', (s.executeDueJobs env now who workerId stale due).jobs.find id = some row' →
      ∃ row, s.jobs.find id = some row ∧
        row' = claimRow env now workerId due id (s.recoverRow env now stale id row) := by
    intro id row' hrow'
    rw [find_executeDueJobs] at hrow'
    obtain ⟨row, hrow, hsame⟩ := map_eq_some_iff.mp hrow'
    exact ⟨row, hrow, hsame.symm⟩
  have hkey : ∀ id row, (claimRow env now workerId due id
      (s.recoverRow env now stale id row)).idempotencyKey = row.idempotencyKey := by
    intro id row
    rcases claimRow_cases s env now workerId stale due id row with hsame | ⟨-, -, hkey, -⟩
    · rw [hsame]
    · exact hkey
  constructor
  · intro first row second row' hrow hrow' hsame
    obtain ⟨old, hold, rfl⟩ := hback first row hrow
    obtain ⟨old', hold', rfl⟩ := hback second row' hrow'
    rw [hkey, hkey] at hsame
    exact h.keys _ _ _ _ hold hold' hsame
  · intro key attempt hattempt
    obtain ⟨hattemptKey, row, hrow, hsame⟩ := h.known key attempt hattempt
    exact ⟨hattemptKey, _, by rw [find_executeDueJobs, hrow]; rfl,
      hsame.trans (buildAttemptKey_congr (hkey _ _) _).symm⟩
  · intro post hpost
    rw [find_executeDueJobs, isSome_map]
    exact h.posted post hpost
  · intro id row' hrow'
    obtain ⟨row, hrow, rfl⟩ := hback id row' hrow'
    have hjob := h.job id row hrow
    rcases claimRow_cases s env now workerId stale due id row with
      hsame | ⟨hmanual, hstopped, hkey, hcount, -⟩
    · rw [hsame]
      exact hjob.of_same rfl rfl (fun _ ↦ rfl) rfl (fun hambiguous ↦ (hjob.taken hambiguous).1)
        fun hrunning ↦ hrunning
    · exact hjob.of_same hkey hcount (fun _ ↦ rfl) rfl
        (fun hambiguous ↦ absurd (hjob.taken hambiguous).1 hmanual)
        fun hrunning ↦ absurd hrunning hstopped

theorem Sound.executeDueJobs (h : s.Sound) (env : PublishingEnv) (now : Time) (who : ℕ)
    (workerId : String) (stale due : List ℕ) :
    s.SoundStep (s.executeDueJobs env now who workerId stale due) := by
  refine h.step (h.tables.executeDueJobs env now who workerId stale due)
    (h.tables.rely_executeDueJobs env now who workerId stale due) who ?_ ?_
  · intro other hother
    exact (session_proceed _ who other _).trans (if_neg hother)
  · intro session hsession
    unfold PublishingState.executeDueJobs at hsession
    dsimp only at hsession
    rw [session_proceed, if_pos rfl] at hsession
    rw [← Option.some.inj hsession]
    refine ⟨by simp, fun hne ↦ absurd rfl hne, ?_, trivial⟩
    -- a claimed job is held as it is stored now
    intro entry hentry
    obtain ⟨⟨id, row⟩, hmem, rfl⟩ := List.mem_map.mp hentry
    obtain ⟨hrow, hdue⟩ := mem_filter.mp hmem
    refine ⟨by rfl, fun _ ↦ ?_, fun hne ↦ absurd rfl hne⟩
    refine ⟨row.claim env now workerId, ?_, rfl, .current rfl ⟨rfl, .inl rfl⟩⟩
    have hfind := (find_eq_some_iff _ _ _).mpr hrow
    change ((s.jobs.mapValues _).mapValues _).find id = _
    rw [find_mapValues, hfind, map_some, claimRow, if_pos (of_decide_eq_true hdue)]

/-! ### Deferral -/

theorem Agrees.status_of_publishable (h : Agrees copy stored)
    (hpublishable : isPublishable copy) : stored.status = .pending ∨ stored.status = .claimed := by
  unfold isPublishable at hpublishable
  rcases h.2 with hsame | ⟨-, hclaimed⟩
  · rw [hsame]
    simpa using hpublishable
  · exact .inr hclaimed

theorem isPublishable_ne (h : isPublishable copy)
    {status : PublishingJobStatus} (hpending : status ≠ .pending) (hclaimed : status ≠ .claimed) :
    status ≠ copy.status := by
  unfold isPublishable at h
  rcases of_decide_eq_true h with hcopy | hcopy <;> rw [hcopy]
  · exact hpending
  · exact hclaimed

/-- A publisher whose write of the next job succeeds has a current copy. -/
theorem Sound.deferring (h : s.Sound) (hsession : s.session who = some (.publisher p))
    (haccounts : p.accounts = []) (htodo : p.todo = (id, job) :: rest)
    (hjobs : (Publishing.insertJobs p.created s.jobs).bind (writeJob id job new) = some jobs) :
    ∃ inserted stored, Publishing.insertJobs p.created s.jobs = some inserted ∧
      inserted.find id = some stored ∧ stored.version = job.version ∧
      jobs = inserted.modify id (flush job new) ∧ isPublishable job ∧
      ({ s with jobs := inserted }.proceed who { p with created := [] }).Held id job := by
  obtain ⟨inserted, hinsert, hwrite⟩ := bind_eq_some_iff.mp hjobs
  obtain ⟨stored, hstored, hversion, hmodified⟩ := writeJob_eq_some_iff.mp hwrite
  obtain ⟨-, -, hhands, -⟩ := (h.commitCreated hsession haccounts hinsert).sound.session who _
    ((session_proceed _ who who _).trans (if_pos rfl))
  have hmem : (id, job) ∈ p.todo := htodo ▸ mem_cons_self
  obtain ⟨hpublishable, hheld, -⟩ := hhands (id, job) hmem
  exact ⟨inserted, stored, hinsert, hstored, hversion, hmodified, hpublishable, hheld rfl⟩

theorem Sound.deferNext (h : s.Sound) (hsession : s.session who = some (.publisher p))
    (haccounts : p.accounts = []) (hphase : p.phase = .ready)
    (htodo : p.todo = (id, job) :: rest) {retryAfterSeconds : ℕ}
    (hjobs : (Publishing.insertJobs p.created s.jobs).bind
      (writeJob id job (job.deferRateLimit env now retryAfterSeconds)) = some jobs) :
    s.SoundStep ({ s with jobs := jobs }.proceed who { p with created := [], todo := rest }) := by
  obtain ⟨inserted, stored, hinsert, hstored, hversion, rfl, hpublishable, hheld⟩ :=
    h.deferring hsession haccounts htodo hjobs
  have hcommit := h.commitCreated hsession haccounts hinsert
  have hcommitted := hcommit.sound
  obtain ⟨hcreated, hresolving, hhands, -⟩ := hcommitted.session who _
    ((session_proceed _ who who _).trans (if_pos rfl))
  have hstatus := (hheld.agrees hstored hversion).status_of_publishable hpublishable
  refine hcommit.trans (hcommitted.writeStatus who hstored rfl rfl rfl rfl
    (isPublishable_ne hpublishable PublishingJobStatus.noConfusion PublishingJobStatus.noConfusion)
    PublishingJobStatus.noConfusion (hcommitted.tables.not_ambiguous hstored ?_) ?_ ?_)
  · rcases hstatus with hstatus | hstatus <;> rw [hstatus] <;> decide
  · intro other hother
    rw [session_proceed, if_neg hother]
    exact ((session_proceed _ who other _).trans (if_neg hother)).symm
  · intro hrely session hsession'
    rw [session_proceed, if_pos rfl] at hsession'
    rw [← Option.some.inj hsession']
    refine ⟨hcreated, fun hne ↦ absurd haccounts hne, fun entry hentry ↦ ?_, ?_⟩
    · have hmem : entry ∈ p.todo := htodo ▸ mem_cons_of_mem _ hentry
      exact (hhands entry hmem).rely hrely
    · show PhaseSound _ _ p.phase
      rw [hphase]
      trivial

/-! ### The lookups of a publisher -/

theorem Sound.lookUpPost (h : s.Sound) (hsession : s.session who = some (.publisher p))
    (haccounts : p.accounts = [])
    (htodo : p.todo = (id, job) :: rest) (hpost : s.publishedPost id = none) :
    s.SoundStep (s.proceed who { p with todo := rest, phase := .looked id job }) := by
  obtain ⟨hcreated, -, hhands, -⟩ := h.session who _ hsession
  rw [htodo] at hhands
  refine h.proceed who ⟨hcreated, fun hne ↦ absurd haccounts hne, fun entry hentry ↦ ?_, ?_⟩
  · exact hhands entry (mem_cons_of_mem _ hentry)
  · exact ⟨hhands (id, job) mem_cons_self, fun _ _ _ _ ↦ hpost⟩

/-- A publisher in the middle of a job has resolved its accounts. -/
theorem SessionSound.accounts_eq_nil (h : s.SessionSound (.publisher p)) (hphase : p.phase ≠ .ready) :
    p.accounts = [] := by
  by_contra hne
  exact hphase (h.2.1 hne).1

theorem Sound.lookUpAttempt (h : s.Sound) (hsession : s.session who = some (.publisher p))
    (hphase : p.phase = .looked id job) :
    s.SoundStep (s.proceed who
      { p with
        phase :=
          .preparing id job (s.attempts.find (buildAttemptKey job (job.retryCount + 1))) }) := by
  have hsound := h.session who _ hsession
  have haccounts := hsound.accounts_eq_nil (by rw [hphase]; exact Phase.noConfusion)
  obtain ⟨hcreated, -, hhands, hlooked⟩ := hsound
  rw [hphase] at hlooked
  refine h.proceed who ⟨hcreated, fun hne ↦ absurd haccounts hne, hhands, hlooked.1, ?_, ?_⟩
  · exact fun hnil stored hstored hversion ↦ ⟨hlooked.2 hnil stored hstored hversion, rfl⟩
  · intro attempt hattempt
    obtain ⟨-, row, hrow, hsame⟩ := h.tables.known _ _ hattempt
    exact ⟨_, row, hrow, (attemptKey_inj hsame).1.symm⟩

/-! ### The boundaries of an attempt -/

theorem PublishingAttempt.flush_prepareAttempt (now : Time) (workerId : Option String) (id : ℕ)
    (job : PublishingJob) (base : PublishingAttempt) :
    PublishingAttempt.flush base (prepareAttempt now workerId id job (some base)) base =
      prepareAttempt now workerId id job (some base) := by
  unfold PublishingAttempt.flush
  simp only [flushColumn_self]
  rfl

theorem TablesSound.existing_spec (h : s.TablesSound) (hstored : s.jobs.find id = some stored)
    (hkeys : ∀ n, buildAttemptKey stored n = buildAttemptKey job n)
    (hfound : s.attempts.find (buildAttemptKey job n) = existing) :
    ∀ base ∈ existing, base.publishingJobId = id ∧ base.attemptNumber = n ∧
      base.attemptKey = buildAttemptKey job n := by
  intro base hbase
  rw [hbase, ← hkeys] at hfound
  rw [← hkeys]
  exact h.owned hstored hfound

theorem prepareAttempt_spec (now : Time) (workerId : Option String)
    (hexisting : ∀ base ∈ existing, base.publishingJobId = id ∧
      base.attemptNumber = job.retryCount + 1 ∧
      base.attemptKey = buildAttemptKey job (job.retryCount + 1)) :
    (prepareAttempt now workerId id job existing).publishingJobId = id ∧
      (prepareAttempt now workerId id job existing).attemptNumber = job.retryCount + 1 ∧
      (prepareAttempt now workerId id job existing).attemptKey =
        buildAttemptKey job (job.retryCount + 1) ∧
      (prepareAttempt now workerId id job existing).status = .prepared := by
  cases existing with
  | none => exact ⟨rfl, rfl, rfl, rfl⟩
  | some base =>
    obtain ⟨hid, hnumber, hkey⟩ := hexisting base rfl
    exact ⟨hid, hnumber, hkey, rfl⟩

theorem find_writeAttempt {attempts' : KeyedTable String PublishingAttempt}
    (h : writeAttempt existing (prepareAttempt now workerId id job existing) attempts = some attempts')
    (hfound : attempts.find (prepareAttempt now workerId id job existing).attemptKey = existing)
    (key : String) :
    attempts'.find key =
      if key = (prepareAttempt now workerId id job existing).attemptKey then
        some (prepareAttempt now workerId id job existing)
      else attempts.find key := by
  cases existing with
  | none =>
    unfold writeAttempt at h
    dsimp only at h
    rw [hfound, if_neg (by simp)] at h
    cases h
    split_ifs with hkey
    · rw [hkey, find_insertNew_self _ _ hfound]
    · exact find_insertNew_of_ne _ _ hkey
  | some base =>
    cases h
    rw [find_modify]
    have hbase : (prepareAttempt now workerId id job (some base)).attemptKey = base.attemptKey := rfl
    rw [hbase] at hfound ⊢
    split_ifs with hkey
    · rw [hkey, hfound, map_some, PublishingAttempt.flush_prepareAttempt]
    · rfl

/-- The transaction of `prepare_attempt` on a current copy of the job. -/
theorem Sound.beginAttempt (h : s.Sound) (who : ℕ)
    (hstored : s.jobs.find id = some stored) (hversion : stored.version = job.version)
    (hheld : s.Held id job) (hpublishable : isPublishable job)
    (hattempt : attempt = prepareAttempt now workerId id job existing)
    (hnone : s.publishedPost id = none)
    (hfound : s.attempts.find (buildAttemptKey job (job.retryCount + 1)) = existing)
    (hjobs : s'.jobs =
      s.jobs.modify id (flush job (job.begin env now workerId attempt)))
    (hattempts : writeAttempt existing attempt s.attempts = some s'.attempts)
    (hposts : s'.posts = s.posts)
    (hothers : ∀ other, other ≠ who → s'.session other = s.session other)
    (hown : s'.session who = some (.publisher p)) (haccounts : p.accounts = [])
    (hcreated : p.created = []) (hhands : ∀ entry ∈ p.todo, s.InHand [] entry.1 entry.2)
    (hphase : p.phase = .attempting id (job.begin env now workerId attempt).saved attempt false) :
    s.SoundStep s' := by
  have hagrees := hheld.agrees hstored hversion
  -- the attempt is the next one of the job
  obtain ⟨hid, hnumber, hattemptKey, hprepared⟩ :=
    prepareAttempt_spec now workerId (h.tables.existing_spec hstored (hheld.attemptKeys hstored) hfound)
  rw [← hattempt] at hid hnumber hattemptKey hprepared
  have hfind : ∀ key, s'.attempts.find key =
      if key = attempt.attemptKey then some attempt else s.attempts.find key := by
    rw [← hattemptKey] at hfound
    rw [hattempt] at hattempts hfound ⊢
    exact find_writeAttempt hattempts hfound
  have hnext : ∀ n, buildAttemptKey stored n = attempt.attemptKey ↔ n = stored.retryCount + 1 := by
    rw [hattemptKey]
    exact hheld.attemptKey_eq_iff hstored hversion
  have hmanual : stored.status ≠ .manualRequired := by
    rcases hagrees.status_of_publishable hpublishable with hsame | hsame <;> rw [hsame] <;> decide
  -- what is stored of the job
  generalize hnew : flush job (job.begin env now workerId attempt) stored = new
  have hcount : new.retryCount = stored.retryCount := by
    rw [← hnew]
    exact flushColumn_unchanged _ _
  have hstatus : new.status = .running := by
    rw [← hnew]
    exact flushColumn_of_ne (isPublishable_ne hpublishable PublishingJobStatus.noConfusion
      PublishingJobStatus.noConfusion) _
  have hkey : new.idempotencyKey = stored.idempotencyKey := by
    rw [← hnew]
    rfl
  have hnewVersion : new.version = stored.version + 1 := by
    rw [← hnew]
    rfl
  have hrow : ∀ other, s'.jobs.find other = if other = id then some new else s.jobs.find other := by
    intro other
    rw [hjobs, find_modify]
    split_ifs with hother
    · rw [hother, hstored, map_some, hnew]
    · rfl
  have hwrites : Writes id stored new s s' := by
    refine ⟨hstored, hrow, hkey, by omega, fun key hne ↦ ?_, fun n found hsome ↦ ?_,
      ⟨[], by rw [hposts, append_nil], by simp⟩⟩
    · rw [hfind, if_neg]
      exact fun hsame ↦ hne _ (hsame.trans ((hnext _).mpr rfl).symm)
    · rw [hfind] at hsome
      split_ifs at hsome with hsame
      · cases hsome
        exact ⟨hid, by rw [hnumber, ← hagrees.1, (hnext n).mp hsame], hsame.symm⟩
      · exact h.tables.owned hstored hsome
  have hjob : s'.JobSound id new := by
    refine (h.tables.job id stored hstored).prepare hkey hcount (fun n ↦ ?_) ?_
      (publishedPost_eq_none_iff.mp hnone) ?_
    · unfold statusAt
      rw [hfind]
      simp only [hnext]
      split_ifs
      · rw [map_some, hprepared]
      · rfl
    · unfold postsOf
      rw [hposts]
    · exact hmanual
  have hrely := hwrites.rely h.tables (h.tables.not_ambiguous hstored hmanual)
  refine h.step (hwrites.tablesSound h.tables hjob) hrely who hothers fun session hsession ↦ ?_
  rw [hown] at hsession
  rw [← Option.some.inj hsession]
  refine ⟨by rw [hcreated]; simp,
    fun hne ↦ absurd haccounts hne, ?_, ?_⟩
  · rw [hcreated]
    exact fun entry hentry ↦ (hhands entry hentry).rely hrely
  · rw [hphase, hcreated]
    refine ⟨rfl, ⟨new, by rw [hrow, if_pos rfl], ?_, .current ?_ ⟨hcount.trans hagrees.1, .inl hstatus⟩⟩,
      rfl, hattemptKey, hnumber, hprepared, fun _ _ _ ↦ by rw [hfind, if_pos rfl]⟩
    · rw [hkey]
      obtain ⟨row, hrow', hsame, -⟩ := hheld
      obtain rfl := mem_unique hrow' hstored
      exact hsame
    · rw [hnewVersion, hversion]
      rfl

/-- A publisher whose write of the job succeeds has a current copy, and what it has looked up holds. -/
theorem Sound.preparing (h : s.Sound) (hsession : s.session who = some (.publisher p))
    (hphase : p.phase = .preparing id job existing)
    (hjobs : (Publishing.insertJobs p.created s.jobs).bind (writeJob id job new) = some jobs) :
    ∃ inserted stored, Publishing.insertJobs p.created s.jobs = some inserted ∧
      inserted.find id = some stored ∧ stored.version = job.version ∧
      jobs = inserted.modify id (flush job new) ∧ isPublishable job ∧
      ({ s with jobs := inserted }.proceed who { p with created := [] }).Held id job ∧
      s.publishedPost id = none ∧
      s.attempts.find (buildAttemptKey job (job.retryCount + 1)) = existing := by
  have haccounts := (h.session who _ hsession).accounts_eq_nil (by rw [hphase]; exact Phase.noConfusion)
  obtain ⟨inserted, hinsert, hwrite⟩ := bind_eq_some_iff.mp hjobs
  obtain ⟨stored, hstored, hversion, hmodified⟩ := writeJob_eq_some_iff.mp hwrite
  obtain ⟨-, -, -, hpreparing⟩ := (h.commitCreated hsession haccounts hinsert).sound.session who _
    ((session_proceed _ who who _).trans (if_pos rfl))
  dsimp only at hpreparing
  rw [hphase] at hpreparing
  obtain ⟨⟨hpublishable, hheld, -⟩, hcurrent, -⟩ := hpreparing
  obtain ⟨hnone, hfound⟩ := hcurrent rfl stored hstored hversion.symm
  exact ⟨inserted, stored, hinsert, hstored, hversion, hmodified, hpublishable, hheld rfl, hnone, hfound⟩

theorem Sound.prepare (h : s.Sound) (hsession : s.session who = some (.publisher p))
    (hphase : p.phase = .preparing id job existing)
    (hattempt : attempt = prepareAttempt now p.workerId id job existing)
    (hjobs : (Publishing.insertJobs p.created s.jobs).bind
      (writeJob id job (job.begin env now p.workerId attempt)) = some jobs)
    (hattempts : writeAttempt existing attempt s.attempts = some attempts) (events : List Event) :
    s.SoundStep ({ s with jobs := jobs, attempts := attempts, events := events }.proceed who
      { p with
        created := []
        phase := .attempting id (job.begin env now p.workerId attempt).saved attempt false }) := by
  have haccounts := (h.session who _ hsession).accounts_eq_nil (by rw [hphase]; exact Phase.noConfusion)
  obtain ⟨inserted, stored, hinsert, hstored, hversion, rfl, hpublishable, hheld, hnone, hfound⟩ :=
    h.preparing hsession hphase hjobs
  have hcommit := h.commitCreated hsession haccounts hinsert
  obtain ⟨-, -, hhands, -⟩ := hcommit.sound.session who _
    ((session_proceed _ who who _).trans (if_pos rfl))
  refine hcommit.trans (hcommit.sound.beginAttempt who hstored hversion hheld hpublishable hattempt
    hnone hfound rfl hattempts rfl (fun other hother ↦ ?_)
    ((session_proceed _ who who _).trans (if_pos rfl)) haccounts rfl hhands rfl)
  rw [session_proceed, if_neg hother]
  exact ((session_proceed _ who other _).trans (if_neg hother)).symm

theorem Sound.callProvider (h : s.Sound) (hsession : s.session who = some (.publisher p))
    (hphase : p.phase = .attempting id job attempt false) :
    s.SoundStep (s.callProvider who p id job attempt) := by
  have hsound := h.session who _ hsession
  have haccounts := hsound.accounts_eq_nil (by rw [hphase]; exact Phase.noConfusion)
  obtain ⟨hcreated, -, hhands, hattempting⟩ := hsound
  rw [hphase] at hattempting
  have hproceed := h.proceed (p := { p with phase := .attempting id job attempt true }) who
    ⟨hcreated, fun hne ↦ absurd haccounts hne, hhands, hattempting⟩
  refine hproceed.trans (hproceed.sound.step (hproceed.sound.tables.of_tables rfl rfl rfl)
    (.of_tables rfl rfl rfl) who (fun _ _ ↦ rfl) fun session hsession' ↦ ?_)
  exact (hproceed.sound.session who session hsession').rely (.of_tables rfl rfl rfl)

/-- What `finalize_failure` writes, by its verdict. -/
theorem finalizeFailure_spec (env : PublishingEnv) (now : Time) (exc : String)
    (errorClass : PublishErrorClass) (attempt : PublishingAttempt) (job : PublishingJob) :
    (job.finalizeFailure env now exc errorClass attempt).retryCount =
        max job.retryCount attempt.attemptNumber ∧
      (job.finalizeFailure env now exc errorClass attempt).status ≠ .running ∧
      (errorClass = .ambiguous →
        (job.finalizeFailure env now exc errorClass attempt).status = .manualRequired) := by
  unfold finalizeFailure failureVerdict
  dsimp only
  split_ifs with hambiguous hdead
  · exact ⟨rfl, PublishingJobStatus.noConfusion, fun _ ↦ rfl⟩
  · exact ⟨rfl, PublishingJobStatus.noConfusion, fun h ↦ absurd h hambiguous⟩
  · exact ⟨rfl, PublishingJobStatus.noConfusion, fun h ↦ absurd h hambiguous⟩

/-- What the end of an attempt writes: the attempt has failed and counts as a retry, or it has succeeded
and there is a post. -/
theorem finalized_cases (env : PublishingEnv) (now : Time) (s : PublishingState) (id : ℕ)
    (job : PublishingJob) (attempt : PublishingAttempt) (outcome : Outcome) :
    (finalized env now s id job attempt outcome).1.status ≠ .running ∧
      ((∃ status : PublishingAttemptStatus, (status.isFailed ∨ status = .ambiguous) ∧
          (finalized env now s id job attempt outcome).1.retryCount =
            max job.retryCount attempt.attemptNumber ∧
          (finalized env now s id job attempt outcome).2.1.status = status ∧
          (finalized env now s id job attempt outcome).2.2 = [] ∧
          (status = .ambiguous →
            (finalized env now s id job attempt outcome).1.status = .manualRequired)) ∨
        (finalized env now s id job attempt outcome).1.retryCount = job.retryCount ∧
          (finalized env now s id job attempt outcome).2.1.status = .succeeded ∧
          (s.publishedPost id = none → ∃ post : PublishedPost, post.publishingJobId = id ∧
            (finalized env now s id job attempt outcome).2.2 = [post])) := by
  have hfailed : ∀ (exc : String) (errorClass : PublishErrorClass),
      ((attempt.finalizeFailure now exc errorClass).status.isFailed ∨
        (attempt.finalizeFailure now exc errorClass).status = .ambiguous) ∧
      ((attempt.finalizeFailure now exc errorClass).status = .ambiguous → errorClass = .ambiguous) := by
    intro exc errorClass
    cases errorClass with
    | transient | permanent => exact ⟨.inl rfl, fun h ↦ PublishingAttemptStatus.noConfusion h⟩
    | ambiguous => exact ⟨.inr rfl, fun _ ↦ rfl⟩
  cases outcome with
  | published result =>
    refine ⟨?_, .inr ⟨rfl, rfl, fun hnone ↦ ⟨createPublishedPost now result id job, rfl, ?_⟩⟩⟩
    · change (if result.manualRequired then _ else if _ then _ else _) ≠ PublishingJobStatus.running
      split_ifs <;> decide
    · change (if (s.publishedPost id).isSome then _ else _) = _
      rw [hnone, if_neg (by simp)]
  | raised exc =>
    obtain ⟨hcount, hstopped, hmanual⟩ :=
      finalizeFailure_spec env now exc.text (classifyPublishError exc) attempt job
    obtain ⟨hstatus, hclass⟩ := hfailed exc.text (classifyPublishError exc)
    exact ⟨hstopped, .inl ⟨_, hstatus, hcount, rfl, rfl, fun hambiguous ↦ hmanual (hclass hambiguous)⟩⟩
  | refused text =>
    obtain ⟨hcount, hstopped, hmanual⟩ := finalizeFailure_spec env now text .permanent attempt job
    obtain ⟨hstatus, hclass⟩ := hfailed text .permanent
    exact ⟨hstopped, .inl ⟨_, hstatus, hcount, rfl, rfl, fun hambiguous ↦ hmanual (hclass hambiguous)⟩⟩

/-- The transaction at the end of an attempt. -/
theorem Sound.finish (h : s.Sound) (hsession : s.session who = some (.publisher p))
    {sent : Bool} (hphase : p.phase = .attempting id job attempt sent)
    {outcome : Outcome}
    (hjobs : writeJob id job (finalized env now s id job attempt outcome).1 s.jobs = some jobs)
    {done : PublishingState} (hdone : done =
      { s with
        jobs := jobs
        attempts := s.attempts.modify attempt.attemptKey
          (PublishingAttempt.flush attempt (finalized env now s id job attempt outcome).2.1)
        posts := s.posts ++ (finalized env now s id job attempt outcome).2.2
        events := .finalized id :: s.events })
    (hafter : s' = done.close who ∨ s' = done.proceed who { p with phase := .ready }) :
    s.SoundStep s' := by
  have hsound := h.session who _ hsession
  obtain ⟨hcreated, hresolving, hhands, hattempting⟩ := hsound
  rw [hphase] at hattempting
  obtain ⟨hnil, hheld, hrunning, hattemptKey, hnumber, hprepared, hcurrent⟩ := hattempting
  obtain ⟨stored, hstored, hversion, rfl⟩ := writeJob_eq_some_iff.mp hjobs
  have hagrees := hheld.agrees hstored hversion
  have hfound := hcurrent stored hstored hversion.symm
  have hstoredRunning : stored.status = .running := by
    rcases hagrees.2 with hsame | ⟨hdue, -⟩
    · exact hsame.trans hrunning
    · rw [hrunning] at hdue
      exact absurd hdue (by decide)
  have hjobSound := h.tables.job id stored hstored
  have hnext : ∀ n, buildAttemptKey stored n = attempt.attemptKey ↔ n = stored.retryCount + 1 := by
    rw [hattemptKey]
    exact hheld.attemptKey_eq_iff hstored hversion
  obtain ⟨hstopped, hcases⟩ := finalized_cases env now s id job attempt outcome
  generalize finalized env now s id job attempt outcome = written at *
  obtain ⟨newJob, newAttempt, newPosts⟩ := written
  -- what is stored afterwards
  have hstatus : (flush job newJob stored).status = newJob.status :=
    flushColumn_of_ne (fun hsame ↦ hstopped (hsame.trans hrunning)) _
  have hrow : ∀ other, done.jobs.find other =
      if other = id then some (flush job newJob stored) else s.jobs.find other := by
    intro other
    rw [hdone]
    refine (find_modify _ _ _ _).trans ?_
    split_ifs with hother
    · rw [hother, hstored]
      rfl
    · rfl
  have hfind : ∀ key, done.attempts.find key =
      if key = attempt.attemptKey then some (PublishingAttempt.flush attempt newAttempt attempt)
      else s.attempts.find key := by
    intro key
    rw [hdone]
    refine (find_modify _ _ _ _).trans ?_
    split_ifs with hsame
    · rw [hsame, hfound]
      rfl
    · rfl
  have hstatusAt : ∀ n, done.statusAt stored n =
      if n = stored.retryCount + 1 then some newAttempt.status else s.statusAt stored n := by
    intro n
    unfold statusAt
    rw [hfind]
    simp only [hnext]
    split_ifs
    · exact congrArg some (flushColumn_self _ _)
    · rfl
  have hposts : done.posts = s.posts ++ newPosts := by rw [hdone]
  have hjob : done.JobSound id (flush job newJob stored) ∧
      ∀ post ∈ newPosts, post.publishingJobId = id := by
    rcases hcases with ⟨status, hfailed, hcount, hnewStatus, hnone, hmanual⟩ |
      ⟨hcount, hnewStatus, hpost⟩
    · dsimp only at hcount hnewStatus hnone hmanual
      refine ⟨hjobSound.fail hstoredRunning rfl ?_ (hnewStatus ▸ hstatusAt) ?_ hfailed
        (fun hambiguous ↦ hstatus.trans (hmanual hambiguous)) fun hsame ↦
          hstopped (hstatus.symm.trans hsame), ?_⟩
      · have hnewCount : newJob.retryCount = job.retryCount + 1 := by
          rw [hcount, hnumber]
          exact Nat.max_eq_right (Nat.le_succ _)
        change flushColumn job.retryCount newJob.retryCount stored.retryCount = _
        rw [flushColumn_of_ne (by omega), hnewCount, hagrees.1]
      · unfold postsOf
        rw [hposts, hnone, append_nil]
      · rw [hnone]
        simp
    · dsimp only at hcount hnewStatus hpost
      have hempty : s.postsOf id = [] := by
        refine length_eq_zero_iff.mp (hjobSound.posts.trans (if_neg ?_))
        rw [hjobSound.running hstoredRunning]
        decide
      obtain ⟨post, hpostId, hnewPosts⟩ := hpost (publishedPost_eq_none_iff.mpr hempty)
      refine ⟨hjobSound.succeed hstoredRunning rfl ?_ (hnewStatus ▸ hstatusAt) ?_ fun hsame ↦
        hstopped (hstatus.symm.trans hsame), ?_⟩
      · change flushColumn job.retryCount newJob.retryCount stored.retryCount = _
        rw [hcount, flushColumn_unchanged]
      · have hall : done.postsOf id = s.postsOf id ++ [post].filter (fun post ↦ post.publishingJobId = id) := by
          unfold postsOf
          rw [hposts, hnewPosts, filter_append]
        rw [hall, hempty, filter_singleton, hpostId]
        simp
      · rw [hnewPosts]
        intro other hother
        rw [mem_singleton.mp hother]
        exact hpostId
  have hwrites : Writes id stored (flush job newJob stored) s done := by
    refine ⟨hstored, hrow, rfl, Nat.lt_succ_self _, fun key hne ↦ ?_, fun n found hsome ↦ ?_,
      ⟨newPosts, hposts, hjob.2⟩⟩
    · rw [hfind, if_neg]
      exact fun hsame ↦ hne _ (hsame.trans ((hnext _).mpr rfl).symm)
    · rw [hfind] at hsome
      split_ifs at hsome with hsame
      · cases hsome
        rw [← hsame] at hfound
        obtain ⟨hid, hnumber', hkey⟩ := h.tables.owned hstored hfound
        exact ⟨hid, hnumber', hkey⟩
      · exact h.tables.owned hstored hsome
  have hrely := hwrites.rely h.tables
    (h.tables.not_ambiguous hstored (by rw [hstoredRunning]; decide))
  have hsame : ∀ other, done.session other = s.session other := fun other ↦ by rw [hdone]
  rcases hafter with rfl | rfl
  · refine h.step ((hwrites.tablesSound h.tables hjob.1).of_tables rfl rfl rfl) ⟨hrely.row⟩ who ?_ ?_
    · intro other hother
      rw [session_close, if_neg hother, hsame]
    · intro session hsession'
      rw [session_close, if_pos rfl] at hsession'
      simp at hsession'
  · refine h.step ((hwrites.tablesSound h.tables hjob.1).of_tables rfl rfl rfl) ⟨hrely.row⟩ who ?_ ?_
    · intro other hother
      rw [session_proceed, if_neg hother, hsame]
    · intro session hsession'
      rw [session_proceed, if_pos rfl] at hsession'
      rw [← Option.some.inj hsession']
      have hready : done.SessionSound (.publisher { p with phase := .ready }) :=
        ⟨hcreated, fun hne ↦ ⟨rfl, (hresolving hne).2⟩, fun entry hentry ↦
          (hhands entry hentry).rely hrely, trivial⟩
      exact hready.rely (.of_tables rfl rfl rfl)

/-! ### Operator actions -/

theorem Sound.cancel (h : s.Sound) (hsession : s.session who = some (.canceller id job))
    (hjobs : writeJob id job job.cancel s.jobs = some jobs)
    (events : List Event) :
    s.SoundStep ({ s with jobs := jobs, events := events }.close who) := by
  obtain ⟨hheld, hcancellable⟩ := h.session who _ hsession
  obtain ⟨stored, hstored, hversion, rfl⟩ := writeJob_eq_some_iff.mp hjobs
  have hagrees := hheld.agrees hstored hversion
  refine h.writeStatus who hstored rfl rfl rfl rfl ?_ PublishingJobStatus.noConfusion
    (h.tables.not_ambiguous hstored ?_) ?_ ?_
  · intro hsame
    replace hsame : PublishingJobStatus.cancelled = job.status := hsame
    rw [← hsame] at hcancellable
    exact absurd hcancellable (by decide)
  · intro hmanual
    rcases hagrees.2 with hsame | ⟨-, hclaimed⟩
    · rw [← hsame, hmanual] at hcancellable
      exact absurd hcancellable (by decide)
    · exact absurd (hmanual.symm.trans hclaimed) (by decide)
  · intro other hother
    exact (session_close _ who other).trans (if_neg hother)
  · intro _ session hsession'
    rw [session_close, if_pos rfl] at hsession'
    simp at hsession'

theorem Sound.retry (h : s.Sound) (hsession : s.session who = some (.retrier id job true))
    (hjobs : writeJob id job job.retry s.jobs = some jobs)
    (events : List Event) :
    s.SoundStep ({ s with jobs := jobs, events := events }.close who) := by
  obtain ⟨hheld, hretryable, hchecked⟩ := h.session who _ hsession
  obtain ⟨stored, hstored, hversion, rfl⟩ := writeJob_eq_some_iff.mp hjobs
  have hagrees := hheld.agrees hstored hversion
  obtain ⟨row, hrow, hkey, -⟩ := hheld
  obtain rfl := mem_unique hrow hstored
  refine h.writeStatus who hstored rfl rfl rfl rfl ?_ PublishingJobStatus.noConfusion ?_ ?_ ?_
  · intro hsame
    replace hsame : PublishingJobStatus.pending = job.status := hsame
    rw [← hsame] at hretryable
    exact absurd hretryable (by decide)
  · rw [statusAt_congr hkey, hagrees.1]
    exact hchecked rfl row hstored hversion.symm
  · intro other hother
    exact (session_close _ who other).trans (if_neg hother)
  · intro _ session hsession'
    rw [session_close, if_pos rfl] at hsession'
    simp at hsession'

theorem mem_attemptsOf_iff :
    attempt ∈ s.attemptsOf id ↔
      ∃ key, s.attempts.find key = some attempt ∧ attempt.publishingJobId = id := by
  unfold attemptsOf
  rw [mem_filter, List.mem_map]
  constructor
  · rintro ⟨⟨entry, hentry, rfl⟩, hid⟩
    exact ⟨entry.1, (find_eq_some_iff _ _ _).mpr hentry, of_decide_eq_true hid⟩
  · rintro ⟨key, hfind, hid⟩
    exact ⟨⟨(key, attempt), (find_eq_some_iff _ _ _).mp hfind, rfl⟩, decide_eq_true hid⟩

theorem TablesSound.mem_attemptsOf (h : s.TablesSound) (hrow : s.jobs.find id = some stored) :
    attempt ∈ s.attemptsOf id ↔
      s.attempts.find (buildAttemptKey stored attempt.attemptNumber) = some attempt := by
  rw [mem_attemptsOf_iff]
  constructor
  · rintro ⟨key, hfind, rfl⟩
    obtain ⟨-, row, hrow', rfl⟩ := h.known key attempt hfind
    obtain rfl := mem_unique hrow' hrow
    exact hfind
  · exact fun hfind ↦ ⟨_, hfind, (h.owned hrow hfind).1⟩

/-- The latest attempt is the one with the greatest number. -/
theorem TablesSound.latestAttempt_of_last (h : s.TablesSound) (hrow : s.jobs.find id = some stored)
    (hlast : s.statusAt stored n = some status)
    (hbeyond : ∀ m, n < m → s.statusAt stored m = none) :
    (s.latestAttempt id).map PublishingAttempt.status = some status := by
  obtain ⟨attempt, hattempt, hstatus⟩ := map_eq_some_iff.mp hlast
  have hnumber := (h.owned hrow hattempt).2.1
  have hmem : attempt ∈ s.attemptsOf id := (h.mem_attemptsOf hrow).mpr (by rwa [hnumber])
  unfold latestAttempt
  cases hlatest : (s.attemptsOf id).argmax attemptNumber with
  | none =>
    rw [argmax_eq_none.mp hlatest] at hmem
    simp at hmem
  | some latest =>
    have hle := le_of_mem_argmax hmem hlatest
    have hfind := (h.mem_attemptsOf hrow).mp (argmax_mem hlatest)
    have hsame : latest.attemptNumber = n := by
      by_contra hne
      have hnone := hbeyond latest.attemptNumber (by omega)
      unfold statusAt at hnone
      rw [hfind] at hnone
      simp at hnone
    rw [hsame, hattempt] at hfind
    rw [← Option.some.inj hfind, map_some, hstatus]

/-- A last attempt without a known outcome is the latest. -/
theorem TablesSound.latestAttempt_of_ambiguous (h : s.TablesSound) (hrow : s.jobs.find id = some stored)
    (hambiguous : s.statusAt stored stored.retryCount = some .ambiguous) :
    (s.latestAttempt id).map PublishingAttempt.status = some .ambiguous := by
  refine h.latestAttempt_of_last hrow hambiguous fun m hm ↦ ?_
  by_cases hnext : m = stored.retryCount + 1
  · rw [hnext]
    exact ((h.job id stored hrow).taken hambiguous).2
  · exact (h.job id stored hrow).beyond m (.inr (by omega))

theorem TablesSound.latestAttempt_of_prepared (h : s.TablesSound) (hrow : s.jobs.find id = some stored)
    (hprepared : s.statusAt stored (stored.retryCount + 1) = some .prepared) :
    (s.latestAttempt id).map PublishingAttempt.status = some .prepared :=
  h.latestAttempt_of_last hrow hprepared fun m hm ↦ (h.job id stored hrow).beyond m (.inr hm)

/-! ### Every step -/

/-- Every step keeps the invariant, and the open sessions can rely on it. -/
theorem Sound.apply (h : s.Sound) (env : PublishingEnv) (call : Time × PublishingOp) :
    s.SoundStep (s.apply env call) := by
  obtain ⟨now, op⟩ := call
  have heffect := apply_effect env s now op
  generalize s.apply env (now, op) = s' at heffect ⊢
  cases heffect with
  | idle op => exact ⟨.of_tables rfl rfl rfl, h⟩
  | closed op who => exact h.close who
  | opened who accounts scheduledFor hfree =>
    exact h.proceed who ⟨by simp, fun _ ↦ ⟨rfl, fun _ ↦ rfl⟩,
      by simp, trivial⟩
  | known who p account rest hsession haccounts =>
    obtain ⟨hcreated, hresolving, hhands, hphase⟩ := h.session who _ hsession
    refine h.proceed who ⟨hcreated, fun _ ↦ hresolving ?_, hhands, hphase⟩
    rw [haccounts]
    exact cons_ne_nil _ _
  | created who p account rest hsession haccounts =>
    obtain ⟨hcreated, hresolving, hhands, hphase⟩ := h.session who _ hsession
    obtain ⟨hready, hempty⟩ := hresolving (by rw [haccounts]; exact cons_ne_nil _ _)
    have hne : p.created ++ [(account.id, account.create p.scheduledFor)] ≠ [] := by simp
    refine h.proceed who ⟨?_, fun _ ↦ ⟨hready, fun hnil ↦ absurd hnil hne⟩, ?_, ?_⟩
    · intro entry hentry
      rcases mem_append.mp hentry with hold | hnew
      · exact hcreated entry hold
      · exact ⟨account, mem_singleton.mp hnew⟩
    · -- what was to do has been created by this request
      have hold : ∀ entry ∈ p.todo, s.InHand (p.created ++ [(account.id, account.create p.scheduledFor)])
          entry.1 entry.2 := by
        intro entry hentry
        obtain ⟨hpublishable, -, hmem⟩ := hhands entry hentry
        refine ⟨hpublishable, fun hnil ↦ absurd hnil hne, fun _ ↦ mem_append_left _ (hmem ?_)⟩
        rintro hnil
        rw [hempty hnil] at hentry
        simp at hentry
      intro entry hentry
      dsimp only at hentry
      split_ifs at hentry with hscheduled
      · rcases mem_append.mp hentry with hmem | hnew
        · exact hold entry hmem
        · rw [mem_singleton.mp hnew]
          refine ⟨?_, fun hnil ↦ absurd hnil hne, fun _ ↦ mem_append_right _ ?_⟩
          · unfold isPublishable
            rw [create_status, isNone_iff_eq_none.mp hscheduled]
            rfl
          · exact mem_singleton_self _
      · exact hold entry hentry
    · show PhaseSound s _ p.phase
      rw [hready]
      trivial
  | claimed who workerId stale due hfree => exact h.executeDueJobs env now who workerId stale due
  | ended who p jobs hsession hjobs =>
    obtain ⟨hcreated, -⟩ := h.session who _ hsession
    refine h.step ((h.tables.insertJobs hcreated hjobs).of_tables rfl rfl rfl)
      ⟨(rely_insertJobs hjobs).row⟩ who ?_ ?_
    · intro other hother
      exact (session_close _ who other).trans (if_neg hother)
    · intro session hsession'
      rw [session_close, if_pos rfl] at hsession'
      simp at hsession'
  | deferred who retryAfterSeconds p id job rest jobs hsession haccounts hphase htodo hjobs =>
    exact h.deferNext hsession haccounts hphase htodo hjobs
  | passed op who p p' hsession hworker hcreated haccounts hscheduled htodo hphase =>
    obtain ⟨hrequests, hresolving, hhands, -⟩ := h.session who _ hsession
    have hmem : ∀ entry ∈ p'.todo, entry ∈ p.todo := by
      intro entry hentry
      rcases htodo with hsame | ⟨head, hcons⟩
      · exact hsame ▸ hentry
      · rw [hcons]
        exact mem_cons_of_mem _ hentry
    refine h.proceed who ⟨by rw [hcreated, hscheduled]; exact hrequests, fun hne ↦ ⟨hphase, fun hnil ↦ ?_⟩,
      fun entry hentry ↦ by rw [hcreated]; exact hhands entry (hmem entry hentry), ?_⟩
    · rw [haccounts] at hne
      rw [hcreated] at hnil
      have hempty := (hresolving hne).2 hnil
      refine eq_nil_iff_forall_not_mem.mpr fun entry hentry ↦ ?_
      exact absurd (hempty ▸ hmem entry hentry) not_mem_nil
    · rw [hphase]
      trivial
  | looked who p id job rest hsession haccounts hphase htodo hpost =>
    exact h.lookUpPost hsession haccounts htodo hpost
  | found who p id job hsession hphase hcheck => exact h.lookUpAttempt hsession hphase
  | prepared who p id job existing attempt jobs attempts hsession hphase hattempt hjobs hattempts =>
    exact h.prepare hsession hphase hattempt hjobs hattempts _
  | called who p id job attempt hsession hphase => exact h.callProvider hsession hphase
  | finished who outcome p id job attempt sent jobs done s' hsession hphase hpossible hjobs hdone
      hafter =>
    exact h.finish hsession hphase hjobs hdone hafter
  | loaded op who id job session hfree hjob haction =>
    have hheld : s.Held id job := ⟨job, hjob, rfl, .current rfl ⟨rfl, .inl rfl⟩⟩
    refine h.update who _ fun new hnew ↦ ?_
    rw [← Option.some.inj hnew]
    rcases haction with ⟨rfl, hcancellable⟩ | ⟨rfl, hretryable⟩
    · exact ⟨hheld, hcancellable⟩
    · exact ⟨hheld, hretryable, fun hchecked ↦ absurd hchecked (by decide)⟩
  | checked who id quota job hsession hlatest =>
    obtain ⟨hheld, hretryable, -⟩ := h.session who _ hsession
    refine h.update who _ fun new hnew ↦ ?_
    rw [← Option.some.inj hnew]
    refine ⟨hheld, hretryable, fun _ stored hstored hversion hambiguous ↦ hlatest ?_⟩
    have hagrees := hheld.agrees hstored hversion.symm
    obtain ⟨row, hrow, hkey, -⟩ := hheld
    obtain rfl := mem_unique hrow hstored
    rw [← statusAt_congr hkey, ← hagrees.1] at hambiguous
    exact h.tables.latestAttempt_of_ambiguous hstored hambiguous
  | cancelled who id job jobs hsession hjobs => exact h.cancel hsession hjobs _
  | retried who id job jobs hsession hjobs => exact h.retry hsession hjobs _

theorem sound_empty : Sound {} where
  tables :=
    { keys := fun _ _ _ _ hjob ↦ absurd hjob (by simp [find])
      known := fun _ _ hattempt ↦ absurd hattempt (by simp [find])
      posted := by simp
      job := fun _ _ hjob ↦ absurd hjob (by simp [find]) }
  session := fun _ _ hsession ↦ absurd hsession (by simp)

theorem sound_play (env : PublishingEnv) (calls : List (Time × PublishingOp)) :
    (play (PublishingState.apply env) calls {}).Sound :=
  play_invariant (fun _ call hs ↦ (hs.apply env call).sound) calls sound_empty

/-- A job of any state keeps its idempotency key whatever steps follow, and no other job takes it; and every
attempt is one of a job, under the key made for it. -/
theorem publishing_keys (env : PublishingEnv) (calls : List (Time × PublishingOp)) :
    let s := play (PublishingState.apply env) calls {}
    (∀ id job, s.jobs.find id = some job → ∀ later,
        (∃ job', (play (apply env) later s).jobs.find id = some job' ∧
          job'.idempotencyKey = job.idempotencyKey) ∧
        ∀ id' job', (play (apply env) later s).jobs.find id' = some job' →
          job'.idempotencyKey = job.idempotencyKey → id' = id) ∧
      ∀ key attempt, s.attempts.find key = some attempt → ∃ job,
        s.jobs.find attempt.publishingJobId = some job ∧ key = buildAttemptKey job attempt.attemptNumber := by
  intro s
  have hsound : s.Sound := sound_play env calls
  refine ⟨fun id job hjob later ↦ ?_, fun key attempt hattempt ↦ (hsound.tables.known key attempt hattempt).2⟩
  have hstep : ∀ (s : PublishingState) (call : Time × PublishingOp),
      (s.Sound ∧ ∃ job', s.jobs.find id = some job' ∧ job'.idempotencyKey = job.idempotencyKey) →
      ((s.apply env call).Sound ∧
        ∃ job', (s.apply env call).jobs.find id = some job' ∧ job'.idempotencyKey = job.idempotencyKey) := by
    rintro s call ⟨hs, row, hrow, hkey⟩
    obtain ⟨row', hrow', hkey', -⟩ := (hs.apply env call).rely.row id row hrow
    exact ⟨(hs.apply env call).sound, row', hrow', hkey'.trans hkey⟩
  obtain ⟨hlater, job', hjob', hkey⟩ := play_invariant hstep later ⟨hsound, job, hjob, rfl⟩
  exact ⟨⟨job', hjob', hkey⟩, fun id' other hother hsame ↦
    hlater.tables.keys id' other id job' hother hjob' (hsame.trans hkey.symm)⟩

/-! ### What the tables say to a reader -/

/-- The job has one post at most, and one if and only if an attempt has succeeded; its attempts are
numbered from one on without gaps, at most one more than its retry count; and it is out for a person
when the latest one has no known outcome. -/
structure Consistent (s : PublishingState) (id : ℕ) (job : PublishingJob) : Prop where
  onePost : (s.postsOf id).length ≤ 1
  posted : s.postsOf id ≠ [] ↔ ∃ attempt ∈ s.attemptsOf id, attempt.status = .succeeded
  numbered : ∃ k ≤ job.retryCount + 1,
    ((s.attemptsOf id).map attemptNumber).Perm (range' 1 k)
  ambiguous : ∀ attempt, s.latestAttempt id = some attempt → attempt.status = .ambiguous →
    job.status = .manualRequired

theorem TablesSound.statusAt_eq_some (h : s.TablesSound) (hrow : s.jobs.find id = some job)
    :
    s.statusAt job n = some status ↔
      ∃ attempt ∈ s.attemptsOf id, attempt.attemptNumber = n ∧ attempt.status = status := by
  unfold statusAt
  rw [map_eq_some_iff]
  constructor
  · rintro ⟨attempt, hattempt, hstatus⟩
    have hnumber := (h.owned hrow hattempt).2.1
    exact ⟨attempt, (h.mem_attemptsOf hrow).mpr (by rwa [hnumber]), hnumber, hstatus⟩
  · rintro ⟨attempt, hattempt, rfl, hstatus⟩
    exact ⟨attempt, (h.mem_attemptsOf hrow).mp hattempt, hstatus⟩

theorem TablesSound.nodup_attemptNumbers (h : s.TablesSound) (hrow : s.jobs.find id = some job) :
    ((s.attemptsOf id).map attemptNumber).Nodup := by
  refine List.Nodup.map_on (fun first hfirst second hsecond hsame ↦ ?_) ?_
  · rw [h.mem_attemptsOf hrow] at hfirst hsecond
    rw [hsame] at hfirst
    exact mem_unique hfirst hsecond
  · refine List.Nodup.filter _ (List.Nodup.map_on (fun first hfirst second hsecond hsame ↦ ?_)
      (List.Nodup.of_map _ s.attempts.nodupKeys))
    have hkey := (h.known _ _ ((find_eq_some_iff _ _ _).mpr hfirst)).1
    have hkey' := (h.known _ _ ((find_eq_some_iff _ _ _).mpr hsecond)).1
    exact Prod.ext (hkey.symm.trans ((congrArg _ hsame).trans hkey')) hsame

/-- The number of attempts: those that count as retries, and the one behind them. -/
theorem JobSound.isSome_statusAt_iff (h : s.JobSound id job) (n : ℕ) :
    (s.statusAt job n).isSome ↔
      1 ≤ n ∧ n ≤ job.retryCount + (if (s.statusAt job (job.retryCount + 1)).isSome then 1 else 0) := by
  rcases Nat.eq_zero_or_pos n with rfl | hpos
  · rw [h.beyond 0 (.inl rfl)]
    simp
  · rcases Nat.lt_trichotomy n (job.retryCount + 1) with hbefore | rfl | hafter
    · have hsome : (s.statusAt job n).isSome := by
        rcases Nat.lt_or_ge n job.retryCount with hpast | hlast
        · obtain ⟨status, hstatus, -⟩ := h.past n hpos hpast
          exact isSome_iff_exists.mpr ⟨status, hstatus⟩
        · obtain rfl : n = job.retryCount := by omega
          obtain ⟨status, hstatus, -⟩ := h.last hpos
          exact isSome_iff_exists.mpr ⟨status, hstatus⟩
      exact iff_of_true hsome ⟨hpos, by omega⟩
    · split_ifs with hnext
      · exact iff_of_true hnext ⟨hpos, le_refl _⟩
      · exact iff_of_false hnext fun hle ↦ absurd hle.2 (by omega)
    · rw [h.beyond n (.inr hafter)]
      refine iff_of_false (by simp) fun hle ↦ ?_
      split_ifs at hle <;> omega

/-- An attempt that has succeeded comes after all retries; one whose outcome is not known is the last that
counts as a retry. -/
theorem TablesSound.number_of_final (h : s.TablesSound) (hrow : s.jobs.find id = some job)
    (hattempt : attempt ∈ s.attemptsOf id) :
    (attempt.status = .succeeded → attempt.attemptNumber = job.retryCount + 1) ∧
      (attempt.status = .ambiguous → attempt.attemptNumber = job.retryCount) := by
  have hjob := h.job id job hrow
  have hstatus : s.statusAt job attempt.attemptNumber = some attempt.status :=
    (h.statusAt_eq_some hrow).mpr ⟨attempt, hattempt, rfl, rfl⟩
  obtain ⟨hpos, hle⟩ := (hjob.isSome_statusAt_iff _).mp (isSome_iff_exists.mpr ⟨_, hstatus⟩)
  rcases Nat.lt_trichotomy attempt.attemptNumber job.retryCount with hpast | hlast | hnext
  · obtain ⟨status, hsome, hfailed⟩ := hjob.past _ hpos hpast
    rw [← mem_unique hstatus hsome] at hfailed
    constructor <;> intro hsame <;> rw [hsame] at hfailed <;> exact absurd hfailed (by decide)
  · refine ⟨fun hsucceeded ↦ ?_, fun _ ↦ hlast⟩
    obtain ⟨status, hsome, hfailed⟩ := hjob.last (hlast ▸ hpos)
    rw [← hlast] at hsome
    rw [← mem_unique hstatus hsome, hsucceeded] at hfailed
    exact absurd hfailed (by decide)
  · have hsame : attempt.attemptNumber = job.retryCount + 1 := by
      split_ifs at hle <;> omega
    refine ⟨fun _ ↦ hsame, fun hambiguous ↦ ?_⟩
    rw [hsame, hambiguous] at hstatus
    exact absurd (hjob.next _ hstatus) (by decide)

/-- A latest attempt without a known outcome is the last that counts as a retry. -/
theorem TablesSound.statusAt_of_latest (h : s.TablesSound) (hrow : s.jobs.find id = some job)
    (hlatest : s.latestAttempt id = some attempt)
    (hambiguous : attempt.status = .ambiguous) :
    s.statusAt job job.retryCount = some .ambiguous := by
  have hattempt := argmax_mem hlatest
  exact (h.statusAt_eq_some hrow).mpr
    ⟨attempt, hattempt, (h.number_of_final hrow hattempt).2 hambiguous, hambiguous⟩

theorem TablesSound.consistent (h : s.TablesSound) (hrow : s.jobs.find id = some job) :
    s.Consistent id job := by
  have hjob := h.job id job hrow
  constructor
  · rw [hjob.posts]
    split_ifs <;> decide
  · rw [ne_eq, ← length_eq_zero_iff, hjob.posts]
    constructor
    · intro hne
      have hsucceeded : s.statusAt job (job.retryCount + 1) = some .succeeded := by
        by_contra hnot
        exact hne (if_neg hnot)
      obtain ⟨attempt, hattempt, -, hstatus⟩ := (h.statusAt_eq_some hrow).mp hsucceeded
      exact ⟨attempt, hattempt, hstatus⟩
    · rintro ⟨attempt, hattempt, hstatus⟩
      rw [if_pos]
      · exact Nat.one_ne_zero
      · exact (h.statusAt_eq_some hrow).mpr
          ⟨attempt, hattempt, (h.number_of_final hrow hattempt).1 hstatus, hstatus⟩
  · refine ⟨job.retryCount + (if (s.statusAt job (job.retryCount + 1)).isSome then 1 else 0), ?_,
      (perm_ext_iff_of_nodup (h.nodup_attemptNumbers hrow) (nodup_range' 1)).mpr fun n ↦ ?_⟩
    · split_ifs <;> omega
    · rw [mem_range'_1, List.mem_map]
      refine Iff.trans ?_ ((hjob.isSome_statusAt_iff n).trans (by omega))
      rw [isSome_iff_exists]
      constructor
      · rintro ⟨attempt, hattempt, hnumber⟩
        exact ⟨_, (h.statusAt_eq_some hrow).mpr ⟨attempt, hattempt, hnumber, rfl⟩⟩
      · rintro ⟨status, hstatus⟩
        obtain ⟨attempt, hattempt, hnumber, -⟩ := (h.statusAt_eq_some hrow).mp hstatus
        exact ⟨attempt, hattempt, hnumber⟩
  · intro attempt hlatest hambiguous
    exact (hjob.taken (h.statusAt_of_latest hrow hlatest hambiguous)).1

/-- A job whose last attempt has no known outcome is left alone. -/
theorem SoundStep.taken (h : s.SoundStep s') (hrow : s.jobs.find id = some job)
    (hambiguous : s.statusAt job job.retryCount = some .ambiguous) :
    ∃ job', s'.jobs.find id = some job' ∧ s'.statusAt job' job'.retryCount = some .ambiguous := by
  obtain ⟨job', hjob', hkey, ⟨-, hguard⟩ | ⟨-, hcount, -, -, hattempts⟩⟩ := h.rely.row id job hrow
  · exact absurd hambiguous hguard
  · refine ⟨job', hjob', ?_⟩
    rw [statusAt_congr hkey, hcount]
    unfold statusAt at hambiguous ⊢
    rw [hattempts]
    exact hambiguous

/-- In every state that steps of `publish_now`, `execute_due_jobs`, `cancel_scheduled_job` and `retry_job`
reach, in any order and at any times, every job is consistent, and one whose latest attempt has no known
outcome stays out for a person whatever steps follow. -/
theorem publishing_consistent (env : PublishingEnv) (calls : List (Time × PublishingOp)) :
    (∀ id job, (play (apply env) calls {}).jobs.find id = some job →
      (play (apply env) calls {}).Consistent id job) ∧
    ∀ id job attempt, (play (apply env) calls {}).jobs.find id = some job →
      (play (apply env) calls {}).latestAttempt id = some attempt → attempt.status = .ambiguous →
      ∀ later, ∃ job', (play (apply env) later (play (apply env) calls {})).jobs.find id = some job' ∧
        job'.status = .manualRequired := by
  have hsound := sound_play env calls
  generalize play (apply env) calls {} = s at hsound
  refine ⟨fun id job hrow ↦ hsound.tables.consistent hrow, ?_⟩
  intro id job attempt hrow hlatest hambiguous later
  have htaken := hsound.tables.statusAt_of_latest hrow hlatest hambiguous
  obtain ⟨hsound', job', hrow', htaken'⟩ :
      (play (apply env) later s).Sound ∧ ∃ job', (play (apply env) later s).jobs.find id = some job' ∧
        (play (apply env) later s).statusAt job' job'.retryCount = some .ambiguous := by
    have hstep : ∀ (s : PublishingState) (call : Time × PublishingOp),
        (s.Sound ∧ ∃ job', s.jobs.find id = some job' ∧
          s.statusAt job' job'.retryCount = some .ambiguous) →
        ((s.apply env call).Sound ∧ ∃ job', (s.apply env call).jobs.find id = some job' ∧
          (s.apply env call).statusAt job' job'.retryCount = some .ambiguous) := by
      rintro s call ⟨hs, row, hrow, hambiguous⟩
      exact ⟨(hs.apply env call).sound, (hs.apply env call).taken hrow hambiguous⟩
    exact play_invariant hstep later ⟨hsound, job, hrow, htaken⟩
  exact ⟨job', hrow', ((hsound'.tables.job id job' hrow').taken htaken').1⟩

end PublishingState

end ContentGenerator.Publishing

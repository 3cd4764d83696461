import ContentGenerator.Publishing.Sessions

/-!
# What a step of the publishing services can do

`writeJob` succeeds on a copy of the stored version only (`writeJob_eq_some_iff`), and `insertJobs` on
jobs whose ids and keys are new. `Effect` lists what each step can do, with the guards it has passed;
`apply_effect` is the inversion every invariant starts from.
-/

namespace ContentGenerator.Publishing

open Lib List KeyedTable Function PublishingAttempt

variable {job : PublishingJob}

/-! ### Writes -/

variable {id : ℕ} {jobs jobs' : KeyedTable ℕ PublishingJob} {created : List (ℕ × PublishingJob)}

theorem writeJob_eq_some_iff {base new : PublishingJob} :
    writeJob id base new jobs = some jobs' ↔
      ∃ stored, jobs.find id = some stored ∧ stored.version = base.version ∧
        jobs' = jobs.modify id (PublishingJob.flush base new) := by
  unfold writeJob
  cases hfind : jobs.find id with
  | none => simp
  | some stored => simp [eq_comm]

theorem hasIdempotencyKey_iff {key : String} :
    hasIdempotencyKey jobs.entries key ↔
      ∃ id job, jobs.find id = some job ∧ job.idempotencyKey = key := by
  unfold hasIdempotencyKey
  rw [any_eq_true]
  constructor
  · rintro ⟨entry, hentry, hkey⟩
    exact ⟨entry.1, entry.2, (find_eq_some_iff _ _ _).mpr hentry, by simpa using hkey⟩
  · rintro ⟨id, job, hfind, hkey⟩
    exact ⟨(id, job), (find_eq_some_iff _ _ _).mp hfind, by simpa using hkey⟩

/-- What the insertion of one job preserves, the insertion of a list preserves. -/
theorem insertJobs_invariant {P : KeyedTable ℕ PublishingJob → Prop}
    (hstep : ∀ id job jobs, jobs.find id = none → ¬ hasIdempotencyKey jobs.entries job.idempotencyKey →
      P jobs → P (jobs.insertNew id job))
    (h : insertJobs created jobs = some jobs') (hjobs : P jobs) : P jobs' := by
  induction created generalizing jobs with
  | nil =>
    cases h
    exact hjobs
  | cons entry rest ih =>
    obtain ⟨id, job⟩ := entry
    unfold insertJobs at h
    split_ifs at h with htaken
    · obtain ⟨hid, hkey⟩ := not_or.mp htaken
      exact ih h (hstep id job jobs (Option.not_isSome_iff_eq_none.mp hid) hkey hjobs)

/-- Jobs that are there stay as they are. -/
theorem insertJobs_find (h : insertJobs created jobs = some jobs')
    (hjob : jobs.find id = some job) : jobs'.find id = some job := by
  refine insertJobs_invariant (P := fun jobs ↦ jobs.find id = some job) ?_ h hjob
  intro id' job' jobs hnone _ hfind
  have hne : id ≠ id' := by
    rintro rfl
    exact absurd (hnone.symm.trans hfind) (by simp)
  rw [find_insertNew_of_ne jobs job' hne]
  exact hfind

/-- A new job was not there, nor was its key, and it is there afterwards. -/
theorem insertJobs_created (h : insertJobs created jobs = some jobs')
    {entry : ℕ × PublishingJob} (hentry : entry ∈ created) :
    jobs.find entry.1 = none ∧ ¬ hasIdempotencyKey jobs.entries entry.2.idempotencyKey ∧
      jobs'.find entry.1 = some entry.2 := by
  induction created generalizing jobs with
  | nil => simp at hentry
  | cons head rest ih =>
    obtain ⟨id, job⟩ := head
    unfold insertJobs at h
    split_ifs at h with htaken
    obtain ⟨hid, hkey⟩ := not_or.mp htaken
    have hnone := Option.not_isSome_iff_eq_none.mp hid
    rcases mem_cons.mp hentry with rfl | hrest
    · exact ⟨hnone, hkey, insertJobs_find h (find_insertNew_self jobs job hnone)⟩
    · obtain ⟨hnone', hkey', hfind⟩ := ih h hrest
      have hold : ∀ id' job', jobs.find id' = some job' →
          (jobs.insertNew id job).find id' = some job' := by
        intro id' job' hfind'
        have hne : id' ≠ id := by
          rintro rfl
          exact absurd (hnone.symm.trans hfind') (by simp)
        rw [find_insertNew_of_ne jobs job hne]
        exact hfind'
      refine ⟨?_, fun htaken' ↦ hkey' ?_, hfind⟩
      · cases hfound : jobs.find entry.1 with
        | none => rfl
        | some job' => exact absurd (hnone'.symm.trans (hold _ _ hfound)) (by simp)
      · obtain ⟨id', job', hfind', hsame⟩ := hasIdempotencyKey_iff.mp htaken'
        exact hasIdempotencyKey_iff.mpr ⟨id', job', hold _ _ hfind', hsame⟩

/-- A job of the new table was there before or is one of the new ones. -/
theorem insertJobs_mem (h : insertJobs created jobs = some jobs')
    (hjob : jobs'.find id = some job) : jobs.find id = some job ∨ (id, job) ∈ created := by
  induction created generalizing jobs with
  | nil =>
    cases h
    exact .inl hjob
  | cons head rest ih =>
    obtain ⟨id', job'⟩ := head
    unfold insertJobs at h
    split_ifs at h with htaken
    rcases ih h with hold | hrest
    · rw [find_insertNew] at hold
      split_ifs at hold with hnew
      · cases hold
        rw [hnew.1]
        exact .inr mem_cons_self
      · exact .inl hold
    · exact .inr (mem_cons_of_mem _ hrest)

namespace PublishingState

variable {env : PublishingEnv} {now : Time} {s : PublishingState}

/-! ### Sessions -/

theorem session_close (s : PublishingState) (who other : ℕ) :
    (s.close who).session other = if other = who then none else s.session other := by
  unfold close
  dsimp only
  rw [update_apply]

theorem session_proceed (s : PublishingState) (who other : ℕ) (p : Publisher) :
    (s.proceed who p).session other =
      if other = who then some (.publisher p) else s.session other := by
  unfold proceed
  dsimp only
  rw [update_apply]

/-! ### What a step can do -/

/-- What each step can do, with the guards it has passed. -/
inductive Effect (env : PublishingEnv) (now : Time) (s : PublishingState) :
    PublishingOp → PublishingState → Prop
  | idle (op : PublishingOp) : Effect env now s op s
  | closed (op : PublishingOp) (who : ℕ) : Effect env now s op (s.close who)
  | opened (who : ℕ) (accounts : List JobRequest) (scheduledFor : Option Time)
      (hfree : s.session who = none) :
      Effect env now s (.publishNow who accounts scheduledFor)
        (s.proceed who { accounts := accounts, scheduledFor := scheduledFor })
  | known (who : ℕ) (p : Publisher) (account : JobRequest) (rest : List JobRequest)
      (hsession : s.session who = some (.publisher p)) (haccounts : p.accounts = account :: rest) :
      Effect env now s (.resolveAccount who) (s.proceed who { p with accounts := rest })
  | created (who : ℕ) (p : Publisher) (account : JobRequest) (rest : List JobRequest)
      (hsession : s.session who = some (.publisher p)) (haccounts : p.accounts = account :: rest) :
      Effect env now s (.resolveAccount who)
        (s.proceed who
          { p with
            accounts := rest
            created := p.created ++ [(account.id, account.create p.scheduledFor)]
            todo :=
              if p.scheduledFor.isNone then
                p.todo ++ [(account.id, account.create p.scheduledFor)]
              else p.todo })
  | claimed (who : ℕ) (workerId : String) (stale due : List ℕ) (hfree : s.session who = none) :
      Effect env now s (.executeDueJobs who workerId stale due)
        (s.executeDueJobs env now who workerId stale due)
  | ended (who : ℕ) (p : Publisher) (jobs : KeyedTable ℕ PublishingJob)
      (hsession : s.session who = some (.publisher p))
      (hjobs : insertJobs p.created s.jobs = some jobs) :
      Effect env now s (.endRequest who) ({ s with jobs := jobs }.close who)
  | deferred (who retryAfterSeconds : ℕ) (p : Publisher) (id : ℕ) (job : PublishingJob)
      (rest : List (ℕ × PublishingJob)) (jobs : KeyedTable ℕ PublishingJob)
      (hsession : s.session who = some (.publisher p)) (haccounts : p.accounts = [])
      (hphase : p.phase = .ready) (htodo : p.todo = (id, job) :: rest)
      (hjobs : (insertJobs p.created s.jobs).bind
        (writeJob id job (job.deferRateLimit env now retryAfterSeconds)) = some jobs) :
      Effect env now s (.deferNext who retryAfterSeconds)
        ({ s with jobs := jobs }.proceed who { p with created := [], todo := rest })
  | passed (op : PublishingOp) (who : ℕ) (p p' : Publisher)
      (hsession : s.session who = some (.publisher p)) (hworker : p.workerId.isSome)
      (hcreated : p'.created = p.created) (haccounts : p'.accounts = p.accounts)
      (hscheduled : p'.scheduledFor = p.scheduledFor)
      (htodo : p'.todo = p.todo ∨ ∃ entry, p.todo = entry :: p'.todo) (hphase : p'.phase = .ready) :
      Effect env now s op (s.proceed who p')
  | looked (who : ℕ) (p : Publisher) (id : ℕ) (job : PublishingJob) (rest : List (ℕ × PublishingJob))
      (hsession : s.session who = some (.publisher p)) (haccounts : p.accounts = [])
      (hphase : p.phase = .ready) (htodo : p.todo = (id, job) :: rest)
      (hpost : s.publishedPost id = none) :
      Effect env now s (.lookUpPost who)
        (s.proceed who { p with todo := rest, phase := .looked id job })
  | found (who : ℕ) (p : Publisher) (id : ℕ) (job : PublishingJob)
      (hsession : s.session who = some (.publisher p)) (hphase : p.phase = .looked id job)
      (hcheck : checkAttempt (s.attempts.find (buildAttemptKey job (job.retryCount + 1))) = .ok ()) :
      Effect env now s (.lookUpAttempt who)
        (s.proceed who
          { p with
            phase :=
              .preparing id job (s.attempts.find (buildAttemptKey job (job.retryCount + 1))) })
  | prepared (who : ℕ) (p : Publisher) (id : ℕ) (job : PublishingJob)
      (existing : Option PublishingAttempt) (attempt : PublishingAttempt)
      (jobs : KeyedTable ℕ PublishingJob) (attempts : KeyedTable String PublishingAttempt)
      (hsession : s.session who = some (.publisher p)) (hphase : p.phase = .preparing id job existing)
      (hattempt : attempt = prepareAttempt now p.workerId id job existing)
      (hjobs : (insertJobs p.created s.jobs).bind
        (writeJob id job (job.begin env now p.workerId attempt)) = some jobs)
      (hattempts : writeAttempt existing attempt s.attempts = some attempts) :
      Effect env now s (.prepare who)
        ({ s with jobs := jobs, attempts := attempts, events := .prepared id :: s.events }.proceed who
          { p with
            created := []
            phase := .attempting id (job.begin env now p.workerId attempt).saved attempt false })
  | called (who : ℕ) (p : Publisher) (id : ℕ) (job : PublishingJob) (attempt : PublishingAttempt)
      (hsession : s.session who = some (.publisher p))
      (hphase : p.phase = .attempting id job attempt false) :
      Effect env now s (.callProvider who) (s.callProvider who p id job attempt)
  | finished (who : ℕ) (outcome : Outcome) (p : Publisher) (id : ℕ) (job : PublishingJob)
      (attempt : PublishingAttempt) (sent : Bool) (jobs : KeyedTable ℕ PublishingJob)
      (done s' : PublishingState) (hsession : s.session who = some (.publisher p))
      (hphase : p.phase = .attempting id job attempt sent) (hpossible : outcome.possible sent)
      (hjobs : writeJob id job (finalized env now s id job attempt outcome).1 s.jobs = some jobs)
      (hdone : done =
        { s with
          jobs := jobs
          attempts := s.attempts.modify attempt.attemptKey
            (flush attempt (finalized env now s id job attempt outcome).2.1)
          posts := s.posts ++ (finalized env now s id job attempt outcome).2.2
          events := .finalized id :: s.events })
      (hafter : s' = done.close who ∨ s' = done.proceed who { p with phase := .ready }) :
      Effect env now s (.finish who outcome) s'
  | loaded (op : PublishingOp) (who id : ℕ) (job : PublishingJob) (session : Session)
      (hfree : s.session who = none) (hjob : s.jobs.find id = some job)
      (haction : session = .canceller id job ∧ job.status.isCancellable ∨
        session = .retrier id job false ∧ job.status.isRetryable) :
      Effect env now s op { s with session := update s.session who (some session) }
  | checked (who id : ℕ) (quota : Option ℕ) (job : PublishingJob)
      (hsession : s.session who = some (.retrier id job false))
      (hlatest : (s.latestAttempt id).map status ≠ some .ambiguous) :
      Effect env now s (.checkLatest who quota)
        { s with session := update s.session who (some (.retrier id job true)) }
  | cancelled (who id : ℕ) (job : PublishingJob) (jobs : KeyedTable ℕ PublishingJob)
      (hsession : s.session who = some (.canceller id job))
      (hjobs : writeJob id job job.cancel s.jobs = some jobs) :
      Effect env now s (.commitAction who)
        ({ s with jobs := jobs, events := .cancelled id :: s.events }.close who)
  | retried (who id : ℕ) (job : PublishingJob) (jobs : KeyedTable ℕ PublishingJob)
      (hsession : s.session who = some (.retrier id job true))
      (hjobs : writeJob id job job.retry s.jobs = some jobs) :
      Effect env now s (.commitAction who)
        ({ s with jobs := jobs, events := .retried id :: s.events }.close who)

variable {who : ℕ} {p : Publisher}

/-- A step that raises gives up the job or closes the session. -/
theorem raised_effect (op : PublishingOp)
    (hsession : s.session who = some (.publisher p)) {todo : List (ℕ × PublishingJob)}
    (htodo : todo = p.todo ∨ ∃ entry, p.todo = entry :: todo) :
    Effect env now s op (s.raised who { p with todo := todo }) := by
  unfold raised
  split_ifs with hworker
  · exact .passed op who p _ hsession hworker rfl rfl rfl htodo rfl
  · exact .closed op who

theorem lookUpPost_effect (hsession : s.session who = some (.publisher p))
    (haccounts : p.accounts = []) (hphase : p.phase = .ready) :
    Effect env now s (.lookUpPost who) (s.lookUpPost who p) := by
  unfold lookUpPost
  split
  · exact .idle _
  · rename_i id job rest htodo
    cases hpost : s.publishedPost id with
    | none => exact .looked who p id job rest hsession haccounts hphase htodo hpost
    | some post => exact raised_effect _ hsession (.inr ⟨_, htodo⟩)

theorem finish_effect {id : ℕ}
    {attempt : PublishingAttempt} {sent : Bool} (hsession : s.session who = some (.publisher p))
    (hphase : p.phase = .attempting id job attempt sent) (outcome : Outcome)
    (hpossible : outcome.possible sent) :
    Effect env now s (.finish who outcome) (s.finish env now who p id job attempt outcome) := by
  unfold finish
  dsimp only
  cases hjobs : writeJob id job (finalized env now s id job attempt outcome).1 s.jobs with
  | none => exact .closed _ who
  | some jobs =>
    refine .finished who outcome p id job attempt sent jobs _ _ hsession hphase hpossible hjobs rfl ?_
    cases outcome with
    | published result => exact .inr rfl
    | raised exc =>
      dsimp only
      unfold raised
      split_ifs
      · exact .inr rfl
      · exact .inl rfl
    | refused text =>
      dsimp only
      unfold raised
      split_ifs
      · exact .inr rfl
      · exact .inl rfl

theorem commitAction_effect (who : ℕ) :
    Effect env now s (.commitAction who) (s.apply env (now, .commitAction who)) := by
  dsimp only [apply]
  split
  · rename_i id job hsession
    split
    · rename_i new hnew
      obtain ⟨-, rfl⟩ := cancelScheduledJob_eq_ok_iff.mp hnew
      cases hjobs : writeJob id job job.cancel s.jobs with
      | none => exact .closed _ who
      | some jobs => exact .cancelled who id job jobs hsession hjobs
    · exact .closed _ who
  · rename_i id job hsession
    cases hjobs : writeJob id job job.retry s.jobs with
    | none => exact .closed _ who
    | some jobs => exact .retried who id job jobs hsession hjobs
  · exact .idle _

theorem checkLatest_effect (who : ℕ) (quota : Option ℕ) :
    Effect env now s (.checkLatest who quota) (s.apply env (now, .checkLatest who quota)) := by
  dsimp only [apply]
  split
  · rename_i id job hsession
    split
    · rename_i hcheck
      refine .checked who id quota job hsession fun hambiguous ↦ ?_
      rw [checkLatest_of_ambiguous quota hambiguous] at hcheck
      simp at hcheck
    · exact .closed _ who
  · exact .idle _

theorem cancelScheduledJob_effect (who id : ℕ) :
    Effect env now s (.cancelScheduledJob who id) (s.apply env (now, .cancelScheduledJob who id)) := by
  dsimp only [apply]
  split
  · rename_i job hfree hjob
    split
    · rename_i new hnew
      exact .loaded _ who id job _ hfree hjob (.inl ⟨rfl, (cancelScheduledJob_eq_ok_iff.mp hnew).1⟩)
    · exact .idle _
  · exact .idle _

theorem retryJob_effect (who id : ℕ) :
    Effect env now s (.retryJob who id) (s.apply env (now, .retryJob who id)) := by
  dsimp only [apply]
  split
  · rename_i job hfree hjob
    split
    · rename_i new hnew
      exact .loaded _ who id job _ hfree hjob (.inr ⟨rfl, (checkRetry_eq_ok_iff.mp hnew).1⟩)
    · exact .idle _
  · exact .idle _

theorem apply_effect (env : PublishingEnv) (s : PublishingState) (now : Time) (op : PublishingOp) :
    Effect env now s op (s.apply env (now, op)) := by
  cases op with
  | publishNow who accounts scheduledFor =>
    dsimp only [apply]
    split
    · rename_i hfree
      exact .opened who accounts scheduledFor hfree
    · exact .idle _
  | resolveAccount who =>
    dsimp only [apply]
    split
    · rename_i p hsession
      unfold resolveAccount
      split
      · exact .idle _
      · rename_i account rest haccounts
        split
        · exact .known who p account rest hsession haccounts
        · exact .created who p account rest hsession haccounts
    · exact .idle _
  | executeDueJobs who workerId stale due =>
    dsimp only [apply]
    split
    · rename_i hfree
      exact .claimed who workerId stale due hfree
    · exact .idle _
  | endRequest who =>
    dsimp only [apply]
    split
    · rename_i p hsession
      split
      · unfold endRequest
        cases hjobs : insertJobs p.created s.jobs with
        | none => exact .closed _ who
        | some jobs => exact .ended who p jobs hsession hjobs
      · exact .idle _
    · exact .idle _
  | deferNext who retryAfterSeconds =>
    dsimp only [apply]
    split
    · rename_i p hsession
      split
      · rename_i haccounts hphase
        unfold deferNext
        split
        · exact .idle _
        · rename_i id job rest htodo
          split
          · rename_i jobs hjobs
            exact .deferred who retryAfterSeconds p id job rest jobs hsession haccounts hphase htodo
              hjobs
          · exact .closed _ who
      · exact .idle _
    · exact .idle _
  | lookUpPost who =>
    dsimp only [apply]
    split
    · rename_i p hsession
      split
      · rename_i haccounts hphase
        exact lookUpPost_effect hsession haccounts hphase
      · exact .idle _
    · exact .idle _
  | lookUpAttempt who =>
    dsimp only [apply]
    split
    · rename_i p hsession
      split
      · rename_i id job hphase
        unfold lookUpAttempt
        dsimp only
        split
        · rename_i hcheck
          exact .found who p id job hsession hphase hcheck
        · exact raised_effect _ hsession (.inl rfl)
      · exact .idle _
    · exact .idle _
  | prepare who =>
    dsimp only [apply]
    split
    · rename_i p hsession
      split
      · rename_i id job existing hphase
        unfold prepare
        dsimp only
        split
        · rename_i jobs attempts hjobs hattempts
          exact .prepared who p id job existing _ jobs attempts hsession hphase rfl hjobs hattempts
        · exact .closed _ who
      · exact .idle _
    · exact .idle _
  | callProvider who =>
    dsimp only [apply]
    split
    · rename_i p hsession
      split
      · rename_i id job attempt hphase
        exact .called who p id job attempt hsession hphase
      · exact .idle _
    · exact .idle _
  | finish who outcome =>
    dsimp only [apply]
    split
    · rename_i p hsession
      split
      · rename_i id job attempt sent hphase
        split_ifs with hpossible
        · exact finish_effect hsession hphase outcome hpossible
        · exact .idle _
      · exact .idle _
    · exact .idle _
  | raise who =>
    dsimp only [apply]
    split
    · rename_i p hsession
      split
      · exact .idle _
      · exact raised_effect _ hsession (.inl rfl)
    · exact .idle _
  | crash who => exact .closed _ who
  | cancelScheduledJob who id => exact cancelScheduledJob_effect who id
  | retryJob who id => exact retryJob_effect who id
  | checkLatest who quota => exact checkLatest_effect who quota
  | commitAction who => exact commitAction_effect who

end PublishingState

end ContentGenerator.Publishing

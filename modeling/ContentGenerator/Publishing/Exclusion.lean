import ContentGenerator.Publishing.Transactions

/-!
# One session publishes a job

`Move` is the life of one job: from which status each transaction takes it to which, and what it adds to
the log of committed events. Every step of the services moves a job that way or leaves it alone
(`PublishingState.Progress`), as long as recovery does not take a running job from its worker. The invariant
`Exclusive` follows: a session between `prepare_attempt` and its end has the current copy of a running
job, and is the only one.

Main result: `publishing_exclusive`.
-/

namespace ContentGenerator.Publishing

open Lib List Option KeyedTable
open PublishingJob (flush isDue isStale)
open PublishingState (apply)

variable {added earlier later : List Event} {attempt : PublishingAttempt} {call : Time × PublishingOp}
  {closes opens : Event} {status' : PublishingJobStatus}

def Event.job : Event → ℕ
  | .prepared id | .finalized id | .cancelled id | .retried id => id

/-! ### The life of one job -/

inductive Move (id : ℕ) : PublishingJobStatus → List Event → PublishingJobStatus → Prop
  | begin (status : PublishingJobStatus) (hstatus : status = .pending ∨ status = .claimed) :
      Move id status [.prepared id] .running
  | finish (status : PublishingJobStatus) : Move id .running [.finalized id] status
  | cancel (status : PublishingJobStatus) (hstatus : status ≠ .running) :
      Move id status [.cancelled id] .cancelled
  | retry (status : PublishingJobStatus) (hstatus : status ≠ .running) :
      Move id status [.retried id] .pending
  | defer (status : PublishingJobStatus) (hstatus : status = .pending ∨ status = .claimed) :
      Move id status [] .scheduled
  | claim (status status' : PublishingJobStatus) (hstatus : status.isDue ∨ status = .claimed) :
      Move id status [] status'

variable {id : ℕ} {status : PublishingJobStatus}

theorem Move.of_running (h : Move id .running added status) : added = [.finalized id] := by
  cases h with
  | begin _ hstatus => exact absurd hstatus (by decide)
  | finish => rfl
  | cancel _ hstatus | retry _ hstatus => exact absurd rfl hstatus
  | defer _ hstatus | claim _ _ hstatus => exact absurd hstatus (by decide)

theorem Move.of_prepared (h : Move id status [.prepared id] status') :
    (status = .pending ∨ status = .claimed) ∧ status' = .running := by
  cases h with
  | begin _ hstatus => exact ⟨hstatus, rfl⟩

theorem Move.of_cancelled (h : Move id .cancelled added status) :
    status = .cancelled ∨ added = [.retried id] := by
  cases h with
  | begin _ hstatus => exact absurd hstatus (by decide)
  | cancel => exact .inl rfl
  | retry => exact .inr rfl
  | defer _ hstatus | claim _ _ hstatus => exact absurd hstatus (by decide)

theorem Move.cancels
    (h : Move id status [.cancelled id] status') : status' = .cancelled := by
  cases h with
  | cancel => rfl

namespace PublishingState

/-- The session is between the commit of `prepare_attempt` and the end of the attempt, with a copy of
the job of this version. -/
def AttemptingAt (s : PublishingState) (who id version : ℕ) : Prop :=
  ∃ p job attempt sent, s.session who = some (.publisher p) ∧
    p.phase = .attempting id job attempt sent ∧ job.version = version

/-- The session is between the commit of `prepare_attempt` and the end of the attempt. -/
def Attempting (s : PublishingState) (who id : ℕ) : Prop := ∃ version, s.AttemptingAt who id version

/-- The job a session is attempting, with the version of its copy. -/
def attemptOf (s : PublishingState) (who : ℕ) : Option (ℕ × ℕ) :=
  match s.session who with
  | some (.publisher p) =>
    match p.phase with
    | .attempting id job _ _ => some (id, job.version)
    | _ => none
  | _ => none

variable {other version : ℕ} {job new stored : PublishingJob} {p : Publisher}
  {jobs : KeyedTable ℕ PublishingJob}

theorem attemptingAt_of_attemptOf {s : PublishingState} {who : ℕ}
    (h : s.attemptOf who = some (id, version)) : s.AttemptingAt who id version := by
  unfold attemptOf at h
  split at h
  · rename_i p hsession
    split at h
    · rename_i id' job attempt sent hphase
      cases h
      exact ⟨p, job, attempt, sent, hsession, hphase, rfl⟩
    · simp at h
  · simp at h

/-- A step moves every job along its life or leaves it alone. A session that is attempting was so
before, or has just prepared the attempt; an attempt that ends was one. -/
structure Progress (s s' : PublishingState) (who : ℕ) (added : List Event) : Prop where
  events : s'.events = added ++ s.events
  short : added = [] ∨ ∃ event, added = [event]
  known : ∀ event ∈ added, (s.jobs.find event.job).isSome
  row : ∀ id stored, s.jobs.find id = some stored → ∃ stored', s'.jobs.find id = some stored' ∧
    (stored' = stored ∧ (∀ event ∈ added, event.job ≠ id) ∨ Move id stored.status added stored'.status)
  session : ∀ other id version, s'.AttemptingAt other id version →
    s.AttemptingAt other id version ∨
      other = who ∧ added = [.prepared id] ∧
        ∃ stored', s'.jobs.find id = some stored' ∧ stored'.version = version
  finished : ∀ id, Event.finalized id ∈ added →
    ∃ other version, s.AttemptingAt other id version ∧ ¬ s'.Attempting other id

/-- The invariant: sessions with an attempt have the current copy of a running job, no two of them of one
job; and the log is in order. -/
structure Exclusive (s : PublishingState) : Prop where
  current : ∀ who id version, s.AttemptingAt who id version →
    ∃ stored, s.jobs.find id = some stored ∧ stored.version = version ∧ stored.status = .running
  alone : ∀ who who' id, s.Attempting who id → s.Attempting who' id → who = who'
  running : ∀ id later earlier, s.events = later ++ .prepared id :: earlier →
    Event.finalized id ∉ later → ∃ stored, s.jobs.find id = some stored ∧ stored.status = .running
  cancelled : ∀ id later earlier, s.events = later ++ .cancelled id :: earlier →
    Event.retried id ∉ later → ∃ stored, s.jobs.find id = some stored ∧ stored.status = .cancelled
  finalized : ∀ id later between earlier,
    s.events = later ++ .prepared id :: (between ++ .prepared id :: earlier) →
    Event.finalized id ∈ between
  retried : ∀ id later between earlier,
    s.events = later ++ .prepared id :: (between ++ .cancelled id :: earlier) →
    Event.retried id ∈ between

variable {env : PublishingEnv} {now : Time} {s s' : PublishingState} {who : ℕ}

/-- A job that is running stays so, or its attempt ends. -/
theorem Progress.of_running (h : s.Progress s' who added)
    (hrow : s.jobs.find id = some stored) (hrunning : stored.status = .running) :
    s'.jobs.find id = some stored ∧ (∀ event ∈ added, event.job ≠ id) ∨ added = [.finalized id] := by
  obtain ⟨stored', hrow', ⟨rfl, hevents⟩ | hmove⟩ := h.row id stored hrow
  · exact .inl ⟨hrow', hevents⟩
  · rw [hrunning] at hmove
    exact .inr hmove.of_running

/-- A log after a step: it is the log before it, or has one event more. -/
theorem Progress.events_cases (h : s.Progress s' who added) :
    added = [] ∧ s'.events = s.events ∨ ∃ event, added = [event] ∧ s'.events = event :: s.events := by
  have hevents := h.events
  rcases h.short with rfl | ⟨event, rfl⟩
  · exact .inl ⟨rfl, hevents⟩
  · exact .inr ⟨event, rfl, hevents⟩

/-- What is known after an opening event that no event has closed, in the log after a step. -/
theorem Progress.of_open (h : s.Progress s' who added) {P : Prop}
    (hold : ∀ later earlier, s.events = later ++ opens :: earlier → closes ∉ later → added ≠ [closes] → P)
    (hnew : added = [opens] → P) (hevents : s'.events = later ++ opens :: earlier)
    (hopen : closes ∉ later) : P := by
  rcases h.events_cases with ⟨hadded, hsame⟩ | ⟨event, hadded, hcons⟩
  · exact hold later earlier (hsame ▸ hevents) hopen (by rw [hadded]; simp)
  · rw [hcons] at hevents
    cases later with
    | nil =>
      obtain ⟨rfl, -⟩ := List.cons.inj hevents
      exact hnew hadded
    | cons head later =>
      obtain ⟨rfl, htail⟩ := List.cons.inj hevents
      refine hold later earlier htail (fun hmem ↦ hopen (mem_cons_of_mem _ hmem)) ?_
      rintro hclosed
      rw [hadded] at hclosed
      exact hopen ((List.cons.inj hclosed).1 ▸ mem_cons_self)

/-- Between two events there is a third one, in the log after a step. -/
theorem Progress.of_between (h : s.Progress s' who added) {first : Event}
    (hold : ∀ later between earlier, s.events = later ++ opens :: (between ++ first :: earlier) → closes ∈ between)
    (hnew : added = [opens] → ∀ between earlier, s.events = between ++ first :: earlier → closes ∈ between)
    {between : List Event}
    (hevents : s'.events = later ++ opens :: (between ++ first :: earlier)) : closes ∈ between := by
  rcases h.events_cases with ⟨-, hsame⟩ | ⟨event, hadded, hcons⟩
  · exact hold later between earlier (hsame ▸ hevents)
  · rw [hcons] at hevents
    cases later with
    | nil =>
      obtain ⟨rfl, htail⟩ := List.cons.inj hevents
      exact hnew hadded between earlier htail
    | cons head later => exact hold later between earlier (List.cons.inj hevents).2

theorem Exclusive.progress (h : s.Exclusive) (hprogress : s.Progress s' who added) : s'.Exclusive := by
  -- what a job that was running before the step has become
  have hrunning : ∀ id later earlier, s.events = later ++ .prepared id :: earlier →
      Event.finalized id ∉ later → added ≠ [.finalized id] →
      ∃ stored, s'.jobs.find id = some stored ∧ stored.status = .running := by
    intro id later earlier hevents hopen hadded
    obtain ⟨stored, hrow, hstatus⟩ := h.running id later earlier hevents hopen
    rcases hprogress.of_running hrow hstatus with ⟨hrow', -⟩ | hfinalized
    · exact ⟨stored, hrow', hstatus⟩
    · exact absurd hfinalized hadded
  have hcancelled : ∀ id later earlier, s.events = later ++ .cancelled id :: earlier →
      Event.retried id ∉ later → added ≠ [.retried id] →
      ∃ stored, s'.jobs.find id = some stored ∧ stored.status = .cancelled := by
    intro id later earlier hevents hopen hadded
    obtain ⟨stored, hrow, hstatus⟩ := h.cancelled id later earlier hevents hopen
    obtain ⟨stored', hrow', ⟨rfl, -⟩ | hmove⟩ := hprogress.row id stored hrow
    · exact ⟨stored', hrow', hstatus⟩
    · rw [hstatus] at hmove
      rcases hmove.of_cancelled with hsame | hretried
      · exact ⟨stored', hrow', hsame⟩
      · exact absurd hretried hadded
  -- a job is prepared from a status in which it is neither running nor cancelled
  have hprepared : ∀ id, added = [.prepared id] → ∃ stored stored', s.jobs.find id = some stored ∧
      (stored.status = .pending ∨ stored.status = .claimed) ∧ s'.jobs.find id = some stored' ∧
      stored'.status = .running := by
    intro id hadded
    obtain ⟨stored, hrow⟩ := isSome_iff_exists.mp
      (hprogress.known (.prepared id) (hadded ▸ mem_singleton_self _))
    obtain ⟨stored', hrow', ⟨-, hevents⟩ | hmove⟩ := hprogress.row id stored hrow
    · exact absurd rfl (hevents (.prepared id) (hadded ▸ mem_singleton_self _))
    · rw [hadded] at hmove
      exact ⟨stored, stored', hrow, hmove.of_prepared.1, hrow', hmove.of_prepared.2⟩
  have hclosed : ∀ id, added = [.prepared id] → ∀ {status : PublishingJobStatus},
      status = .running ∨ status = .cancelled →
        ¬ ∃ stored, s.jobs.find id = some stored ∧ stored.status = status := by
    rintro id hadded status hstatus ⟨row, hrow', rfl⟩
    obtain ⟨stored, -, hrow, hopen, -⟩ := hprepared id hadded
    obtain rfl := mem_unique hrow hrow'
    rcases hstatus with hstatus | hstatus <;> rw [hstatus] at hopen <;> exact absurd hopen (by decide)
  constructor
  · intro other id version hattempting
    rcases hprogress.session other id version hattempting with hbefore | ⟨-, hadded, stored', hrow', hversion⟩
    · obtain ⟨stored, hrow, hversion, hstatus⟩ := h.current other id version hbefore
      rcases hprogress.of_running hrow hstatus with ⟨hrow', -⟩ | hfinalized
      · exact ⟨stored, hrow', hversion, hstatus⟩
      · obtain ⟨owner, version', howner, hover⟩ := hprogress.finished id
          (hfinalized ▸ mem_singleton_self _)
        obtain rfl := h.alone other owner id ⟨_, hbefore⟩ ⟨_, howner⟩
        exact absurd ⟨_, hattempting⟩ hover
    · obtain ⟨-, row, -, -, hrow, hstatus⟩ := hprepared id hadded
      obtain rfl := mem_unique hrow' hrow
      exact ⟨stored', hrow', hversion, hstatus⟩
  · rintro first second id ⟨version, hfirst⟩ ⟨version', hsecond⟩
    -- nobody was attempting the job when it was prepared
    have hfree : added = [.prepared id] → ∀ other version, ¬ s.AttemptingAt other id version := by
      intro hadded other version hbefore
      obtain ⟨row, hrow, -, hrunning⟩ := h.current other id version hbefore
      exact hclosed id hadded (.inl rfl) ⟨row, hrow, hrunning⟩
    rcases hprogress.session first id version hfirst with hbefore | ⟨rfl, hadded, -⟩
    · rcases hprogress.session second id version' hsecond with hbefore' | ⟨rfl, hadded, -⟩
      · exact h.alone first second id ⟨_, hbefore⟩ ⟨_, hbefore'⟩
      · exact absurd hbefore (hfree hadded first version)
    · rcases hprogress.session second id version' hsecond with hbefore' | ⟨rfl, -⟩
      · exact absurd hbefore' (hfree hadded second version')
      · rfl
  · refine fun id later earlier ↦ hprogress.of_open (hrunning id) fun hadded ↦ ?_
    obtain ⟨-, stored', -, -, hrow', hstatus⟩ := hprepared id hadded
    exact ⟨stored', hrow', hstatus⟩
  · refine fun id later earlier ↦ hprogress.of_open (hcancelled id) fun hadded ↦ ?_
    obtain ⟨stored, hrow⟩ := isSome_iff_exists.mp
      (hprogress.known (.cancelled id) (hadded ▸ mem_singleton_self _))
    obtain ⟨stored', hrow', ⟨-, hothers⟩ | hmove⟩ := hprogress.row id stored hrow
    · exact absurd rfl (hothers (.cancelled id) (hadded ▸ mem_singleton_self _))
    · rw [hadded] at hmove
      exact ⟨stored', hrow', hmove.cancels⟩
  · refine fun id later between earlier ↦ hprogress.of_between (h.finalized id) fun hadded between earlier htail ↦ ?_
    by_contra hopen
    exact hclosed id hadded (.inl rfl) (h.running id between earlier htail hopen)
  · refine fun id later between earlier ↦ hprogress.of_between (h.retried id) fun hadded between earlier htail ↦ ?_
    by_contra hopen
    exact hclosed id hadded (.inr rfl) (h.cancelled id between earlier htail hopen)

/-! ### The steps of the services -/

theorem AttemptingAt.of_session (h : s.AttemptingAt other id version)
    (hsame : s'.session other = s.session other) : s'.AttemptingAt other id version := by
  obtain ⟨p, job, attempt, sent, hsession, hrest⟩ := h
  exact ⟨p, job, attempt, sent, hsame.trans hsession, hrest⟩

theorem attemptingAt_close (h : (s.close who).AttemptingAt other id version) :
    other ≠ who ∧ s.AttemptingAt other id version := by
  obtain ⟨p, job, attempt, sent, hsession, hrest⟩ := h
  rw [session_close] at hsession
  split_ifs at hsession with hother
  exact ⟨hother, p, job, attempt, sent, hsession, hrest⟩

theorem attemptingAt_proceed (h : (s.proceed who p).AttemptingAt other id version) :
    other ≠ who ∧ s.AttemptingAt other id version ∨
      other = who ∧ ∃ job attempt sent, p.phase = .attempting id job attempt sent ∧
        job.version = version := by
  obtain ⟨p', job, attempt, sent, hsession, hphase, hversion⟩ := h
  rw [session_proceed] at hsession
  split_ifs at hsession with hother
  · obtain rfl : p = p' := by simpa using hsession
    exact .inr ⟨hother, job, attempt, sent, hphase, hversion⟩
  · exact .inl ⟨hother, p', job, attempt, sent, hsession, hphase, hversion⟩

/-- A session that is not attempting takes a step after which it is not attempting. -/
theorem attemptingAt_of_proceed (hphase : ∀ id job attempt sent, p.phase ≠ .attempting id job attempt sent)
    (h : (s.proceed who p).AttemptingAt other id version) : s.AttemptingAt other id version := by
  rcases attemptingAt_proceed h with ⟨-, hbefore⟩ | ⟨-, job, attempt, sent, hattempting, -⟩
  · exact hbefore
  · exact absurd hattempting (hphase id job attempt sent)

theorem attemptingAt_of_phase {p' : Publisher} (hsession : s.session who = some (.publisher p))
    (hphase : p'.phase = p.phase)
    (h : (s.proceed who p').AttemptingAt other id version) : s.AttemptingAt other id version := by
  rcases attemptingAt_proceed h with ⟨-, hbefore⟩ | ⟨rfl, job, attempt, sent, hattempting, hversion⟩
  · exact hbefore
  · exact ⟨p, job, attempt, sent, hsession, hphase.symm.trans hattempting, hversion⟩

/-- A step that leaves jobs and log alone, and begins no attempt. -/
theorem Progress.of_same (who : ℕ) (hjobs : s'.jobs = s.jobs) (hevents : s'.events = s.events)
    (hsession : ∀ other id version, s'.AttemptingAt other id version →
      s.AttemptingAt other id version) : s.Progress s' who [] where
  events := hevents
  short := .inl rfl
  known := by simp
  row := fun _ stored hrow ↦
    ⟨stored, hjobs ▸ hrow, .inl ⟨rfl, by simp⟩⟩
  session := fun other id version hattempting ↦ .inl (hsession other id version hattempting)
  finished := by simp

theorem Progress.of_insertJobs (who : ℕ) {created : List (ℕ × PublishingJob)}
    (hinsert : insertJobs created s.jobs = some jobs) (hjobs : s'.jobs = jobs)
    (hevents : s'.events = s.events)
    (hsession : ∀ other id version, s'.AttemptingAt other id version →
      s.AttemptingAt other id version) : s.Progress s' who [] where
  events := hevents
  short := .inl rfl
  known := by simp
  row := fun _ stored hrow ↦
    ⟨stored, by rw [hjobs]; exact insertJobs_find hinsert hrow,
      .inl ⟨rfl, by simp⟩⟩
  session := fun other id version hattempting ↦ .inl (hsession other id version hattempting)
  finished := by simp

theorem Progress.of_write (who : ℕ) {base : PublishingJob} (hrow : s.jobs.find id = some stored)
    (hjobs : s'.jobs = s.jobs.modify id (flush base new))
    (hevents : s'.events = added ++ s.events)
    (hadded : added = [] ∨ ∃ event, added = [event] ∧ event.job = id)
    (hmove : Move id stored.status added (flush base new stored).status)
    (hsession : ∀ other id version, s'.AttemptingAt other id version →
      s.AttemptingAt other id version ∨
        other = who ∧ added = [.prepared id] ∧
          ∃ stored', s'.jobs.find id = some stored' ∧ stored'.version = version)
    (hfinished : ∀ id, Event.finalized id ∈ added →
      ∃ other version, s.AttemptingAt other id version ∧ ¬ s'.Attempting other id) :
    s.Progress s' who added where
  events := hevents
  short := hadded.imp_right fun ⟨event, hevent, _⟩ ↦ ⟨event, hevent⟩
  known := by
    intro event hevent
    rcases hadded with rfl | ⟨event', rfl, hjob⟩
    · simp at hevent
    · rw [mem_singleton.mp hevent, hjob, hrow]
      rfl
  row := by
    intro other row hother
    rw [hjobs, find_modify]
    split_ifs with hsame
    · subst hsame
      obtain rfl := mem_unique hrow hother
      exact ⟨_, by rw [hrow]; rfl, .inr hmove⟩
    · refine ⟨row, hother, .inl ⟨rfl, fun event hevent hjob ↦ hsame ?_⟩⟩
      rcases hadded with rfl | ⟨event', rfl, hjob'⟩
      · simp at hevent
      · rw [← hjob, mem_singleton.mp hevent, hjob']
  session := hsession
  finished := hfinished

/-- Recovery takes no running job from its worker. -/
def Undisturbed (s : PublishingState) : Time × PublishingOp → Prop
  | (now, .executeDueJobs _ _ stale _) =>
    ∀ id ∈ stale, ∀ job, s.jobs.find id = some job → job.isStale now → job.status ≠ .running
  | _ => True

theorem progress_executeDueJobs {workerId : String} {stale due : List ℕ}
    (h : s.Undisturbed (now, .executeDueJobs who workerId stale due)) :
    s.Progress (s.executeDueJobs env now who workerId stale due) who [] where
  events := rfl
  short := .inl rfl
  known := by simp
  row := by
    intro id stored hrow
    refine ⟨claimRow env now workerId due id (s.recoverRow env now stale id stored), ?_, ?_⟩
    · rw [find_executeDueJobs, hrow]
      rfl
    · unfold recoverRow
      split_ifs with hstale
      · have hstatus : stored.status = .claimed := by
          have hactive : stored.status.isActive := by
            have hboth := hstale.2
            unfold isStale at hboth
            exact (of_decide_eq_true hboth).1
          unfold PublishingJobStatus.isActive at hactive
          rcases of_decide_eq_true hactive with hclaimed | hrunning
          · exact hclaimed
          · exact absurd hrunning (h id hstale.1 stored hrow hstale.2)
        exact .inr (.claim _ _ (.inr hstatus))
      · unfold claimRow
        split_ifs with hclaimed
        · have hall := hclaimed.2
          unfold isDue at hall
          exact .inr (.claim _ _ (.inl (of_decide_eq_true hall).1))
        · exact .inl ⟨rfl, by simp⟩
  session := by
    intro other id version hattempting
    exact .inl (attemptingAt_of_proceed (fun _ _ _ _ ↦ Phase.noConfusion) hattempting)
  finished := by simp

/-- The first commit of a request. -/
theorem progress_commitCreated (hsession : s.session who = some (.publisher p))
    (hjobs : insertJobs p.created s.jobs = some jobs) :
    s.Progress ({ s with jobs := jobs }.proceed who { p with created := [] }) who [] := by
  refine .of_insertJobs who hjobs rfl rfl fun other id version hattempting ↦ ?_
  rcases attemptingAt_proceed hattempting with ⟨-, hbefore⟩ | ⟨rfl, job, attempt, sent, hphase, hversion⟩
  · exact hbefore
  · exact ⟨p, job, attempt, sent, hsession, hphase, hversion⟩

theorem Exclusive.deferNext (h : s.Exclusive) (hsound : s.Sound)
    (hsession : s.session who = some (.publisher p)) (haccounts : p.accounts = [])
    (hphase : p.phase = .ready) {rest : List (ℕ × PublishingJob)} (htodo : p.todo = (id, job) :: rest)
    {retryAfterSeconds : ℕ}
    (hjobs : (Publishing.insertJobs p.created s.jobs).bind
      (writeJob id job (job.deferRateLimit env now retryAfterSeconds)) = some jobs) :
    ({ s with jobs := jobs }.proceed who { p with created := [], todo := rest }).Exclusive := by
  obtain ⟨inserted, stored, hinsert, hstored, hversion, rfl, hpublishable, hheld⟩ :=
    hsound.deferring hsession haccounts htodo hjobs
  have hchanged : PublishingJobStatus.scheduled ≠ job.status :=
    isPublishable_ne hpublishable PublishingJobStatus.noConfusion PublishingJobStatus.noConfusion
  refine (h.progress (progress_commitCreated hsession hinsert)).progress
    (.of_write who hstored rfl rfl (.inl rfl) ?_ ?_ fun _ hevent ↦ absurd hevent not_mem_nil)
  · have hstatus : (flush job (job.deferRateLimit env now retryAfterSeconds)
        stored).status = .scheduled := flushColumn_of_ne hchanged _
    rw [hstatus]
    exact .defer _ ((hheld.agrees hstored hversion).status_of_publishable hpublishable)
  · intro other id version hattempting
    rcases attemptingAt_proceed hattempting with ⟨hother, hbefore⟩ | ⟨-, job, attempt, sent, hphase', -⟩
    · exact .inl (hbefore.of_session ((session_proceed _ who other _).trans (if_neg hother)))
    · exact absurd (hphase.symm.trans hphase') Phase.noConfusion

theorem Exclusive.prepare (h : s.Exclusive) (hsound : s.Sound) (hsession : s.session who = some (.publisher p))
    {existing : Option PublishingAttempt}
    (hphase : p.phase = .preparing id job existing)
    (attempts : KeyedTable String PublishingAttempt)
    (hjobs : (Publishing.insertJobs p.created s.jobs).bind
      (writeJob id job (job.begin env now p.workerId attempt)) = some jobs) :
    ({ s with jobs := jobs, attempts := attempts, events := .prepared id :: s.events }.proceed who
      { p with
        created := []
        phase := .attempting id (job.begin env now p.workerId attempt).saved attempt false }).Exclusive := by
  obtain ⟨inserted, stored, hinsert, hstored, hversion, rfl, hpublishable, hheld, -, -⟩ :=
    hsound.preparing hsession hphase hjobs
  have hchanged : PublishingJobStatus.running ≠ job.status :=
    isPublishable_ne hpublishable PublishingJobStatus.noConfusion PublishingJobStatus.noConfusion
  refine (h.progress (progress_commitCreated hsession hinsert)).progress
    (.of_write who hstored rfl rfl (.inr ⟨_, rfl, rfl⟩) ?_ ?_ ?_)
  · have hstatus : (flush job (job.begin env now p.workerId attempt) stored).status =
        .running := flushColumn_of_ne hchanged _
    rw [hstatus]
    exact .begin _ ((hheld.agrees hstored hversion).status_of_publishable hpublishable)
  · intro other id' version hattempting
    rcases attemptingAt_proceed hattempting with ⟨hother, hbefore⟩ | ⟨rfl, job', attempt', sent, hphase', hv⟩
    · exact .inl (hbefore.of_session ((session_proceed _ who other _).trans (if_neg hother)))
    · obtain ⟨rfl, rfl, -, -⟩ := Phase.attempting.inj hphase'
      refine .inr ⟨rfl, rfl, _, (find_modify_self _ _ _).trans
        (congrArg (Option.map _) hstored), ?_⟩
      rw [← hv]
      exact congrArg (· + 1) hversion
  · intro id' hevent
    exact absurd (mem_singleton.mp hevent) Event.noConfusion

theorem Exclusive.finish (h : s.Exclusive)
    (hsession : s.session who = some (.publisher p))
    {sent : Bool} (hphase : p.phase = .attempting id job attempt sent)
    (hjobs : writeJob id job new s.jobs = some jobs)
    {done : PublishingState} (hdone : done.jobs = jobs) (hevents : done.events = .finalized id :: s.events)
    (hsame : done.session = s.session)
    (hafter : s' = done.close who ∨ s' = done.proceed who { p with phase := .ready }) :
    s'.Exclusive := by
  obtain ⟨stored, hstored, hversion, rfl⟩ := writeJob_eq_some_iff.mp hjobs
  have howner : s.AttemptingAt who id job.version := ⟨p, job, attempt, sent, hsession, hphase, rfl⟩
  obtain ⟨row, hrow, -, hrunning⟩ := h.current who id _ howner
  obtain rfl := mem_unique hrow hstored
  -- the session is not attempting any more, and the others are where they were
  have hattempts : ∀ other id' version, s'.AttemptingAt other id' version →
      other ≠ who ∧ s.AttemptingAt other id' version := by
    intro other id' version hattempting
    have hothers : ∀ other, done.session other = s.session other := fun other ↦ congrFun hsame other
    rcases hafter with rfl | rfl
    · obtain ⟨hother, hbefore⟩ := attemptingAt_close hattempting
      exact ⟨hother, hbefore.of_session (hothers other).symm⟩
    · rcases attemptingAt_proceed hattempting with
        ⟨hother, hbefore⟩ | ⟨-, job', attempt', sent', hready, -⟩
      · exact ⟨hother, hbefore.of_session (hothers other).symm⟩
      · exact absurd hready Phase.noConfusion
  have htables : s'.jobs = s.jobs.modify id (flush job new) ∧
      s'.events = [.finalized id] ++ s.events := by
    rcases hafter with rfl | rfl <;> exact ⟨hdone, hevents⟩
  refine h.progress (.of_write who hstored htables.1 htables.2 (.inr ⟨_, rfl, rfl⟩) ?_ ?_ ?_)
  · rw [hrunning]
    exact .finish _
  · exact fun other id' version hattempting ↦ .inl (hattempts other id' version hattempting).2
  · intro id' hevent
    obtain rfl := Event.finalized.inj (mem_singleton.mp hevent)
    exact ⟨who, _, howner, fun ⟨version, hattempting⟩ ↦ (hattempts who _ version hattempting).1 rfl⟩

/-- An operator action is no attempt. -/
theorem attemptingAt_of_update {session : Session} (haction : ∀ p, session ≠ .publisher p)
    (h : ({ s with session := Function.update s.session who (some session) } :
      PublishingState).AttemptingAt other id version) :
    s.AttemptingAt other id version := by
  obtain ⟨p, job, attempt, sent, hsession, hrest⟩ := h
  dsimp only at hsession
  rw [Function.update_apply] at hsession
  split_ifs at hsession with hother
  · exact absurd (Option.some.inj hsession) (haction p)
  · exact ⟨p, job, attempt, sent, hsession, hrest⟩

/-- An operator writes the job, and the log says so. -/
theorem Exclusive.action (h : s.Exclusive) {event : Event}
    (hstored : s.jobs.find id = some stored) (hevent : event.job = id)
    (hmove : Move id stored.status [event] (flush job new stored).status)
    (hfinished : ∀ id, event ≠ .finalized id) :
    ({ s with
        jobs := s.jobs.modify id (flush job new)
        events := event :: s.events }.close who : PublishingState).Exclusive := by
  refine h.progress (.of_write who hstored rfl rfl (.inr ⟨event, rfl, hevent⟩) hmove ?_ ?_)
  · exact fun other id' version hattempting ↦ .inl (attemptingAt_close hattempting).2
  · exact fun id' hmem ↦ absurd (mem_singleton.mp hmem).symm (hfinished id')

/-- Every step keeps the invariant in which recovery takes no running job. -/
theorem Exclusive.apply (h : s.Exclusive) (hsound : s.Sound)
    (hcall : s.Undisturbed call) : (s.apply env call).Exclusive := by
  obtain ⟨now, op⟩ := call
  have heffect := apply_effect env s now op
  generalize s.apply env (now, op) = s' at heffect ⊢
  cases heffect with
  | idle op => exact h
  | closed op who =>
    exact h.progress (.of_same who rfl rfl fun _ _ _ hattempting ↦ (attemptingAt_close hattempting).2)
  | opened who accounts scheduledFor hfree =>
    exact h.progress (.of_same who rfl rfl fun _ _ _ ↦
      attemptingAt_of_proceed fun _ _ _ _ ↦ Phase.noConfusion)
  | known who p account rest hsession haccounts =>
    exact h.progress (.of_same who rfl rfl fun _ _ _ hattempting ↦
      attemptingAt_of_phase hsession (by rfl) hattempting)
  | created who p account rest hsession haccounts =>
    exact h.progress (.of_same who rfl rfl fun _ _ _ hattempting ↦
      attemptingAt_of_phase hsession (by rfl) hattempting)
  | claimed who workerId stale due hfree => exact h.progress (progress_executeDueJobs hcall)
  | ended who p jobs hsession hjobs =>
    exact h.progress (.of_insertJobs who hjobs rfl rfl fun _ _ _ hattempting ↦
      (attemptingAt_close hattempting).2)
  | deferred who retryAfterSeconds p id job rest jobs hsession haccounts hphase htodo hjobs =>
    exact h.deferNext hsound hsession haccounts hphase htodo hjobs
  | passed op who p p' hsession hworker hcreated haccounts hscheduled htodo hphase =>
    exact h.progress (.of_same who rfl rfl fun _ _ _ ↦
      attemptingAt_of_proceed fun _ _ _ _ ↦ by rw [hphase]; exact Phase.noConfusion)
  | looked who p id job rest hsession haccounts hphase htodo hpost =>
    exact h.progress (.of_same who rfl rfl fun _ _ _ ↦
      attemptingAt_of_proceed fun _ _ _ _ ↦ Phase.noConfusion)
  | found who p id job hsession hphase hcheck =>
    exact h.progress (.of_same who rfl rfl fun _ _ _ ↦
      attemptingAt_of_proceed fun _ _ _ _ ↦ Phase.noConfusion)
  | prepared who p id job existing attempt jobs attempts hsession hphase hattempt hjobs hattempts =>
    exact h.prepare hsound hsession hphase attempts hjobs
  | called who p id job attempt hsession hphase =>
    refine h.progress (.of_same who rfl rfl fun other id' version hattempting ↦ ?_)
    rcases attemptingAt_proceed hattempting with ⟨-, hbefore⟩ | ⟨rfl, job', attempt', sent, hphase', hv⟩
    · exact hbefore
    · obtain ⟨rfl, rfl, rfl, -⟩ := Phase.attempting.inj hphase'
      exact ⟨p, job, attempt, false, hsession, hphase, hv⟩
  | finished who outcome p id job attempt sent jobs done s' hsession hphase hpossible hjobs hdone
      hafter =>
    exact h.finish hsession hphase hjobs (by rw [hdone]) (by rw [hdone]) (by rw [hdone]) hafter
  | loaded op who id job session hfree hjob haction =>
    refine h.progress (.of_same who rfl rfl fun _ _ _ ↦ attemptingAt_of_update fun p ↦ ?_)
    rcases haction with ⟨rfl, -⟩ | ⟨rfl, -⟩ <;> exact Session.noConfusion
  | checked who id quota job hsession hlatest =>
    exact h.progress (.of_same who rfl rfl fun _ _ _ ↦ attemptingAt_of_update fun p ↦ Session.noConfusion)
  | cancelled who id job jobs hsession hjobs =>
    obtain ⟨hheld, hcancellable⟩ := hsound.session who _ hsession
    obtain ⟨stored, hstored, hversion, rfl⟩ := writeJob_eq_some_iff.mp hjobs
    have hstatus : (flush job job.cancel stored).status = .cancelled := by
      refine flushColumn_of_ne (fun hsame ↦ ?_) _
      replace hsame : PublishingJobStatus.cancelled = job.status := hsame
      rw [← hsame] at hcancellable
      exact absurd hcancellable (by decide)
    refine h.action hstored rfl ?_ fun _ ↦ Event.noConfusion
    rw [hstatus]
    refine .cancel _ (hheld.not_running hstored hversion fun hrunning ↦ ?_)
    rw [hrunning] at hcancellable
    exact absurd hcancellable (by decide)
  | retried who id job jobs hsession hjobs =>
    obtain ⟨hheld, hretryable, -⟩ := hsound.session who _ hsession
    obtain ⟨stored, hstored, hversion, rfl⟩ := writeJob_eq_some_iff.mp hjobs
    have hstatus : (flush job job.retry stored).status = .pending := by
      refine flushColumn_of_ne (fun hsame ↦ ?_) _
      replace hsame : PublishingJobStatus.pending = job.status := hsame
      rw [← hsame] at hretryable
      exact absurd hretryable (by decide)
    refine h.action hstored rfl ?_ fun _ ↦ Event.noConfusion
    rw [hstatus]
    refine .retry _ (hheld.not_running hstored hversion fun hrunning ↦ ?_)
    rw [hrunning] at hretryable
    exact absurd hretryable (by decide)

theorem exclusive_empty : Exclusive {} where
  current := fun _ _ _ ⟨_, _, _, _, hsession, _⟩ ↦ absurd hsession (by simp)
  alone := fun _ _ _ ⟨_, _, _, _, _, hsession, _⟩ ↦ absurd hsession (by simp)
  running := fun _ _ _ hevents ↦ absurd hevents (by simp)
  cancelled := fun _ _ _ hevents ↦ absurd hevents (by simp)
  finalized := fun _ _ _ _ hevents ↦ absurd hevents (by simp)
  retried := fun _ _ _ _ hevents ↦ absurd hevents (by simp)

/-- A run in which recovery takes no running job. -/
theorem exclusive_play (env : PublishingEnv) (calls : List (Time × PublishingOp))
    (hcalls : Along (apply env) Undisturbed calls {}) :
    (play (apply env) calls {}).Exclusive := by
  have hstep : ∀ (s : PublishingState) (call : Time × PublishingOp), s.Sound ∧ s.Exclusive →
      s.Undisturbed call → (s.apply env call).Sound ∧ (s.apply env call).Exclusive :=
    fun s call hs hcall ↦ ⟨(hs.1.apply env call).sound, hs.2.apply hs.1 hcall⟩
  exact (hcalls.invariant hstep ⟨sound_empty, exclusive_empty⟩).2

/-- No lease of a job has run out when jobs are claimed. -/
def LeasesHold (s : PublishingState) : Time × PublishingOp → Prop
  | (now, .executeDueJobs _ _ _ _) => ∀ id job, s.jobs.find id = some job → ¬ job.isStale now
  | _ => True

theorem LeasesHold.undisturbed (h : s.LeasesHold call) :
    s.Undisturbed call := by
  obtain ⟨now, op⟩ := call
  cases op with
  | executeDueJobs who workerId stale due => exact fun id _ job hjob hstale ↦ absurd hstale (h id job hjob)
  | _ => trivial

/-- In every run of the services in which no claim lease runs out, one session at most is between the
commit of `prepare_attempt` and the end of the attempt of a job; between two such commits the first
attempt has ended; and between the commit of a cancellation and such a commit lies a retry. -/
theorem publishing_exclusive (env : PublishingEnv) (calls : List (Time × PublishingOp))
    (hleases : Along (apply env) LeasesHold calls {}) :
    (∀ who who' id, (play (apply env) calls {}).Attempting who id →
      (play (apply env) calls {}).Attempting who' id → who = who') ∧
    (∀ id later between earlier, (play (apply env) calls {}).events =
        later ++ .prepared id :: (between ++ .prepared id :: earlier) →
      Event.finalized id ∈ between) ∧
    ∀ id later between earlier, (play (apply env) calls {}).events =
        later ++ .prepared id :: (between ++ .cancelled id :: earlier) →
      Event.retried id ∈ between := by
  have hexclusive := exclusive_play env calls (hleases.mono fun _ _ h ↦ h.undisturbed)
  exact ⟨hexclusive.alone, hexclusive.finalized, hexclusive.retried⟩

/-! ### A request and a worker -/

/-- A job of a request for the first two accounts. -/
def jobRequest (id : ℕ) (idempotencyKey : String) : JobRequest where
  id := id
  contentJobId := "content"
  socialAccountId := some "account"
  platform := "bluesky"
  provider := "live"
  idempotencyKey := idempotencyKey
  dryRun := false

/-- The settings of the runs below. -/
def publishingEnv : PublishingEnv where
  isoFormat := fun _ ↦ ""

def liveResult : PublishResult where
  status := "succeeded"
  externalPostId := some "post"
  providerPlatform := "bluesky"

/-- A request publishes the first of its two jobs while a worker claims the second. Both go on to
prepare the second. -/
def raceCalls : List (Time × PublishingOp) :=
  [(0, .publishNow 0 [jobRequest 1 "first", jobRequest 2 "second"] none), (0, .resolveAccount 0),
    (0, .resolveAccount 0), (0, .lookUpPost 0), (0, .lookUpAttempt 0), (0, .prepare 0),
    (1, .executeDueJobs 1 "worker" [] [2]), (2, .callProvider 0), (3, .finish 0 (.published liveResult)),
    (4, .lookUpPost 0), (4, .lookUpPost 1), (5, .lookUpAttempt 0), (5, .lookUpAttempt 1),
    (6, .prepare 0), (7, .prepare 1)]

theorem leasesHold_of_all {now : Time} {op : PublishingOp}
    (h : s.jobs.entries.all fun entry ↦ !entry.2.isStale now) : s.LeasesHold (now, op) := by
  cases op with
  | executeDueJobs who workerId stale due =>
    intro id job hjob hstale
    have hentry := List.all_eq_true.mp h _ ((find_eq_some_iff _ _ _).mp hjob)
    rw [hstale] at hentry
    exact absurd hentry (by decide)
  | _ => trivial

/-- The request wins, and the worker is not attempting the job. -/
theorem race_exclusive :
    (play (apply publishingEnv) raceCalls {}).Attempting 0 2 ∧
      ∀ who, (play (apply publishingEnv) raceCalls {}).Attempting who 2 → who = 0 := by
  have hleases : Along (apply publishingEnv) LeasesHold raceCalls {} := by
    refine ⟨trivial, trivial, trivial, trivial, trivial, trivial, leasesHold_of_all (by decide +kernel),
      trivial, trivial, trivial, trivial, trivial, trivial, trivial, trivial, trivial⟩
  have hwinner : (play (apply publishingEnv) raceCalls {}).Attempting 0 2 :=
    ⟨2, attemptingAt_of_attemptOf (by decide +kernel)⟩
  exact ⟨hwinner, fun who hwho ↦
    (publishing_exclusive publishingEnv raceCalls hleases).1 who 0 2 hwho hwinner⟩

end PublishingState

end ContentGenerator.Publishing

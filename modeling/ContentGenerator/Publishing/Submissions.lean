import Mathlib.Data.Finset.Card
import ContentGenerator.Publishing.Exclusion

/-!
# How often the provider is called

The window between the call of the provider and the commit of its result. An attempt that recovery finds
`PREPARED` goes back to the queue under its key, and its job is published once more: recovery is the only
step that allows a second call under a key. `Submission` says what each step does to that account;
`Budget` is the invariant, that the calls made and the calls still possible are no more than what
recovery has allowed.

Main result: `submissions_bounded`.
-/

namespace ContentGenerator.Publishing

open Lib Option KeyedTable Phase PublishingAttempt
open Option (map)
open PublishingState (apply)

namespace PublishingState

/-! ### Calls of the provider -/

/-- The session has committed the attempt under the key and has not called the provider. -/
def Unsent (s : PublishingState) (who : ℕ) (key : String) : Prop :=
  ∃ p id job attempt, s.session who = some (.publisher p) ∧
    p.phase = .attempting id job attempt false ∧ attempt.attemptKey = key

/-- `prepare_attempt` may commit an attempt under the key: there is none, or it is `PREPARED` and its job
is not `RUNNING`. -/
def MayPrepare (s : PublishingState) (key : String) : Prop :=
  s.attempts.find key = none ∨
    ∃ attempt job, s.attempts.find key = some attempt ∧ attempt.status = .prepared ∧
      s.jobs.find attempt.publishingJobId = some job ∧ job.status ≠ .running

/-- `_recover_stale_claims` takes a `RUNNING` job back. -/
def takesBack (s : PublishingState) (id : ℕ) : Time × PublishingOp → Bool
  | (now, .executeDueJobs who _ stale _) =>
    (s.session who).isNone ∧ id ∈ stale ∧
      (s.jobs.find id).any fun job ↦ job.status = .running ∧ job.isStale now
  | _ => false

/-- `_recover_stale_claims` requeues the `PREPARED` attempt under the key. -/
def requeues (s : PublishingState) (key : String) (call : Time × PublishingOp) : Bool :=
  (s.attempts.find key).any fun attempt ↦
    attempt.status = .prepared ∧ s.takesBack attempt.publishingJobId call

/-- How often the attempt under the key is requeued in a run. -/
def requeued (env : PublishingEnv) (key : String) :
    List (Time × PublishingOp) → PublishingState → ℕ
  | [], _ => 0
  | call :: rest, s =>
    (if s.requeues key call then 1 else 0) + requeued env key rest (s.apply env call)

variable {env : PublishingEnv} {now : Time} {s s' : PublishingState} {who id : ℕ} {key : String}
  {call : Time × PublishingOp}

/-! ### Sessions with an attempt -/

def NoNewAttempt (s s' : PublishingState) : Prop :=
  ∀ other p id job attempt sent, s'.session other = some (.publisher p) →
    p.phase = .attempting id job attempt sent →
    ∃ p', s.session other = some (.publisher p') ∧ p'.phase = .attempting id job attempt sent

theorem NoNewAttempt.attempting (h : s.NoNewAttempt s') (hattempting : s'.Attempting who id) :
    s.Attempting who id := by
  obtain ⟨version, p, job, attempt, sent, hsession, hphase, hversion⟩ := hattempting
  obtain ⟨p', hsession', hphase'⟩ := h who p id job attempt sent hsession hphase
  exact ⟨version, p', job, attempt, sent, hsession', hphase', hversion⟩

theorem NoNewAttempt.unsent (h : s.NoNewAttempt s') (hunsent : s'.Unsent who key) :
    s.Unsent who key := by
  obtain ⟨p, id, job, attempt, hsession, hphase, hkey⟩ := hunsent
  obtain ⟨p', hsession', hphase'⟩ := h who p id job attempt false hsession hphase
  exact ⟨p', id, job, attempt, hsession', hphase', hkey⟩

variable {t : PublishingState} {p : Publisher} {attempt : PublishingAttempt} {job : PublishingJob} {bound : ℕ}
  {jobs : KeyedTable ℕ PublishingJob}

theorem noNewAttempt_close (hsame : t.session = s.session) (who : ℕ) :
    s.NoNewAttempt (t.close who) := by
  intro other p id job attempt sent hsession hphase
  rw [session_close] at hsession
  split_ifs at hsession
  exact ⟨p, hsame ▸ hsession, hphase⟩

/-- A publisher goes on, and the others are where they were. -/
theorem publisher_of_proceed (hsame : t.session = s.session) {q : Publisher}
    {other : ℕ} (h : (t.proceed who p).session other = some (.publisher q)) :
    other ≠ who ∧ s.session other = some (.publisher q) ∨ other = who ∧ q = p := by
  rw [session_proceed] at h
  split_ifs at h with hother
  · exact .inr ⟨hother, (Session.publisher.inj (Option.some.inj h)).symm⟩
  · exact .inl ⟨hother, hsame ▸ h⟩

theorem noNewAttempt_proceed (hsame : t.session = s.session)
    (hphase : ∀ id job attempt sent, p.phase ≠ .attempting id job attempt sent) :
    s.NoNewAttempt (t.proceed who p) := by
  intro other q id job attempt sent hsession hattempting
  rcases publisher_of_proceed hsame hsession with ⟨-, hbefore⟩ | ⟨-, rfl⟩
  · exact ⟨q, hbefore, hattempting⟩
  · exact absurd hattempting (hphase id job attempt sent)

theorem noNewAttempt_of_phase (hsame : t.session = s.session) {p' : Publisher}
    (hsession : s.session who = some (.publisher p)) (hphase : p'.phase = p.phase) :
    s.NoNewAttempt (t.proceed who p') := by
  intro other q id job attempt sent hsession' hattempting
  rcases publisher_of_proceed hsame hsession' with ⟨-, hbefore⟩ | ⟨rfl, rfl⟩
  · exact ⟨q, hbefore, hattempting⟩
  · exact ⟨p, hsession, hphase.symm.trans hattempting⟩

/-- An operator action is no attempt. -/
theorem noNewAttempt_update {session : Session} (haction : ∀ p, session ≠ .publisher p) (who : ℕ) :
    s.NoNewAttempt { s with session := Function.update s.session who (some session) } := by
  intro other p id job attempt sent hsession hphase
  dsimp only at hsession
  rw [Function.update_apply] at hsession
  split_ifs at hsession
  · exact absurd (Option.some.inj hsession) (haction p)
  · exact ⟨p, hsession, hphase⟩

/-! ### What a step does to the calls -/

/-- What a step does to running jobs, attempts and calls of the provider: nothing, unless recovery takes
a job back; or it opens an attempt, calls the provider, or ends an attempt. -/
inductive Submission (s s' : PublishingState) (call : Time × PublishingOp) : Prop
  | quiet
      (hrunning : ∀ id job, s.jobs.find id = some job → job.status = .running →
        s.takesBack id call ∨ s'.jobs.find id = some job)
      (hattempts : s'.attempts = s.attempts) (hcalls : s'.calls = s.calls)
      (hsessions : s.NoNewAttempt s')
  | opens (who id : ℕ) (job : PublishingJob) (attempt : PublishingAttempt)
      (hopen : s.MayPrepare attempt.attemptKey) (hid : attempt.publishingJobId = id)
      (hstopped : ∀ job, s.jobs.find id = some job → job.status ≠ .running)
      (hrow : s'.jobs.find id = some job) (hrunning : job.status = .running)
      (hothers : ∀ other job, other ≠ id → s.jobs.find other = some job →
        s'.jobs.find other = some job)
      (hattempts : ∀ key, s'.attempts.find key =
        if key = attempt.attemptKey then some attempt else s.attempts.find key)
      (hcalls : s'.calls = s.calls)
      (hattempting : ∀ other id', s'.Attempting other id' →
        s.Attempting other id' ∨ other = who ∧ id' = id)
      (hunsent : ∀ other key, s'.Unsent other key →
        s.Unsent other key ∨ other = who ∧ key = attempt.attemptKey)
  | sends (who id n : ℕ) (job : PublishingJob) (hjob : s.jobs.find id = some job)
      (howner : s.Attempting who id) (hbefore : s.Unsent who (buildAttemptKey job n))
      (hafter : ∀ key, ¬ s'.Unsent who key) (hjobs : s'.jobs = s.jobs)
      (hattempts : s'.attempts = s.attempts) (hcalls : s'.calls = buildAttemptKey job n :: s.calls)
      (hattempting : ∀ who id, s'.Attempting who id → s.Attempting who id)
      (hunsent : ∀ who key, s'.Unsent who key → s.Unsent who key)
  | closes (who id : ℕ) (job : PublishingJob) (attempt : PublishingAttempt)
      (hjob : s.jobs.find id = some job) (howner : s.Attempting who id)
      (hended : attempt.status ≠ .prepared)
      (hothers : ∀ other job, other ≠ id → s.jobs.find other = some job →
        s'.jobs.find other = some job)
      (hattempts : ∀ key, s'.attempts.find key =
        if key = buildAttemptKey job (job.retryCount + 1) then some attempt
        else s.attempts.find key)
      (hcalls : s'.calls = s.calls) (hsessions : s.NoNewAttempt s')

/-- The open attempt of a job is its next one. -/
theorem TablesSound.key_of_prepared (h : s.TablesSound)
    (hattempt : s.attempts.find key = some attempt) (hprepared : attempt.status = .prepared)
    (hjob : s.jobs.find attempt.publishingJobId = some job) :
    key = buildAttemptKey job (job.retryCount + 1) := by
  obtain ⟨-, row, hrow, hkey⟩ := h.known key attempt hattempt
  obtain rfl := mem_unique hrow hjob
  have hsound := h.job _ row hrow
  have hstatus : s.statusAt row attempt.attemptNumber = some .prepared := by
    unfold statusAt
    rw [← hkey, hattempt, map_some, hprepared]
  rw [hkey]
  congr 1
  rcases Nat.lt_trichotomy attempt.attemptNumber (row.retryCount + 1) with hlt | heq | hgt
  · rcases Nat.eq_zero_or_pos attempt.attemptNumber with hzero | hpos
    · exact absurd ((hsound.beyond _ (.inl hzero)).symm.trans hstatus) (by simp)
    · rcases Nat.lt_or_ge attempt.attemptNumber row.retryCount with hpast | hlast
      · obtain ⟨status, hsome, hfailed⟩ := hsound.past _ hpos hpast
        obtain rfl := mem_unique hsome hstatus
        exact absurd hfailed (by decide)
      · obtain hsame : attempt.attemptNumber = row.retryCount := by omega
        rw [hsame] at hstatus hpos
        obtain ⟨status, hsome, hfailed⟩ := hsound.last hpos
        obtain rfl := mem_unique hsome hstatus
        exact absurd hfailed (by decide)
  · exact heq
  · exact absurd ((hsound.beyond _ (.inr hgt)).symm.trans hstatus) (by simp)

/-! ### The account of one key -/

/-- The calls under the key, and those that sessions with an attempt can still make, are no more than the
bound; fewer, while another attempt can be opened. -/
def Budget (s : PublishingState) (key : String) (bound : ℕ) : Prop :=
  ∃ owners : Finset ℕ, (∀ who, s.Unsent who key → who ∈ owners) ∧
    s.calls.count key + owners.card ≤ bound ∧
    (s.MayPrepare key → s.calls.count key + owners.card < bound)

theorem Budget.mono {bound' : ℕ} (h : s.Budget key bound) (hle : bound ≤ bound') :
    s.Budget key bound' := by
  obtain ⟨owners, howners, hcount, hopen⟩ := h
  exact ⟨owners, howners, hcount.trans hle, fun hmay ↦ (hopen hmay).trans_le hle⟩

/-- The key has no call more, and an attempt can be opened only if one could be before. -/
theorem Budget.of_unchanged (h : s.Budget key bound) (hcalls : s'.calls.count key = s.calls.count key)
    (hunsent : ∀ who, s'.Unsent who key → s.Unsent who key)
    (hmay : s'.MayPrepare key → s.MayPrepare key) : s'.Budget key bound := by
  obtain ⟨owners, howners, hcount, hopen⟩ := h
  refine ⟨owners, fun who hwho ↦ howners who (hunsent who hwho), ?_, fun hagain ↦ ?_⟩
  · rw [hcalls]
    exact hcount
  · rw [hcalls]
    exact hopen (hmay hagain)

/-- When the attempt is the same and its job, if running, is too, an attempt could be opened before. -/
theorem MayPrepare.before (h : s'.MayPrepare key) (hsound : s.Sound)
    (hattempt : s'.attempts.find key = s.attempts.find key)
    (hkept : ∀ attempt job, s.attempts.find key = some attempt → attempt.status = .prepared →
      s.jobs.find attempt.publishingJobId = some job → job.status = .running →
      s'.jobs.find attempt.publishingJobId = some job) : s.MayPrepare key := by
  rcases h with hnone | ⟨attempt, job', hfind, hprepared, hjob', hstopped⟩
  · exact .inl (hattempt ▸ hnone)
  · rw [hattempt] at hfind
    obtain ⟨-, job, hjob, -⟩ := hsound.tables.known key attempt hfind
    refine .inr ⟨attempt, job, hfind, hprepared, hjob, fun hrunning ↦ ?_⟩
    obtain rfl := mem_unique (hkept attempt job hfind hprepared hjob hrunning) hjob'
    exact hstopped hrunning

/-- Recovery allows one call more under the key when it requeues the attempt. -/
theorem Budget.requeue (h : s.Budget key bound) (hcalls : s'.calls.count key = s.calls.count key)
    (hunsent : ∀ who, s'.Unsent who key → s.Unsent who key) : s'.Budget key (bound + 1) := by
  obtain ⟨owners, howners, hcount, -⟩ := h
  refine ⟨owners, fun who hwho ↦ howners who (hunsent who hwho), ?_, fun _ ↦ ?_⟩ <;>
    · rw [hcalls]
      omega

/-- A session opens the attempt under the key, and nobody else can for now. -/
theorem Budget.open (h : s.Budget key bound) (who : ℕ) (hmay : s.MayPrepare key) (hcalls : s'.calls = s.calls)
    (hunsent : ∀ other, s'.Unsent other key → s.Unsent other key ∨ other = who)
    (hclosed : ¬ s'.MayPrepare key) : s'.Budget key bound := by
  obtain ⟨owners, howners, -, hopen⟩ := h
  have hroom := hopen hmay
  have hcard := Finset.card_insert_le who owners
  refine ⟨insert who owners, fun other hother ↦ ?_, ?_, fun hagain ↦ absurd hagain hclosed⟩
  · rcases hunsent other hother with hbefore | rfl
    · exact Finset.mem_insert_of_mem (howners other hbefore)
    · exact Finset.mem_insert_self _ _
  · rw [hcalls]
    omega

/-- A session with an attempt under the key makes its call. -/
theorem Budget.send (h : s.Budget key bound) (hbefore : s.Unsent who key)
    (hafter : ¬ s'.Unsent who key) (hcalls : s'.calls = key :: s.calls)
    (hunsent : ∀ other, s'.Unsent other key → s.Unsent other key)
    (hmay : s'.MayPrepare key → s.MayPrepare key) : s'.Budget key bound := by
  obtain ⟨owners, howners, hcount, hopen⟩ := h
  have hcard := Finset.card_erase_add_one (howners who hbefore)
  have hcalls' : s'.calls.count key = s.calls.count key + 1 := by
    rw [hcalls, List.count_cons_self]
  refine ⟨owners.erase who, fun other hother ↦ ?_, by omega, fun hagain ↦ ?_⟩
  · refine Finset.mem_erase.mpr ⟨fun hsame ↦ ?_, howners other (hunsent other hother)⟩
    exact hafter (hsame ▸ hother)
  · have hroom := hopen (hmay hagain)
    omega

/-- Every step keeps the account; it allows one call more when it requeues the attempt. -/
theorem Budget.submission (h : s.Budget key bound) (hsound : s.Sound) (hstep : s.Submission s' call) :
    s'.Budget key (bound + if s.requeues key call then 1 else 0) := by
  cases hstep with
  | quiet hrunning hattempts hcalls hsessions =>
    have hcount : s'.calls.count key = s.calls.count key := by rw [hcalls]
    split_ifs with hrequeues
    · exact h.requeue hcount fun _ ↦ hsessions.unsent
    · refine h.of_unchanged hcount (fun _ ↦ hsessions.unsent) fun hmay ↦ ?_
      refine hmay.before hsound (by rw [hattempts]) fun attempt job hattempt hprepared hjob hactive ↦ ?_
      refine (hrunning _ job hjob hactive).resolve_left fun htaken ↦ hrequeues ?_
      unfold requeues
      rw [hattempt, any_some]
      exact decide_eq_true ⟨hprepared, htaken⟩
  | opens who id job attempt hmay hid hstopped hrow hrunning hothers hattempts hcalls _ hunsent =>
    refine Budget.mono ?_ (Nat.le_add_right _ _)
    by_cases hkey : key = attempt.attemptKey
    · subst hkey
      refine h.open who hmay hcalls
        (fun other hother ↦ (hunsent other _ hother).imp_right And.left) ?_
      rintro (hnone | ⟨attempt', job', hattempt', -, hjob', hstopped'⟩)
      · rw [hattempts, if_pos rfl] at hnone
        simp at hnone
      · rw [hattempts, if_pos rfl] at hattempt'
        cases hattempt'
        rw [hid, hrow] at hjob'
        exact hstopped' (Option.some.inj hjob' ▸ hrunning)
    · refine h.of_unchanged (by rw [hcalls]) (fun other hother ↦ ?_) fun hagain ↦ ?_
      · exact (hunsent other key hother).resolve_right fun hsame ↦ hkey hsame.2
      · refine hagain.before hsound (by rw [hattempts, if_neg hkey]) fun attempt' job' _ _ hjob' hactive ↦ ?_
        refine hothers _ job' (fun hsame ↦ ?_) hjob'
        exact hstopped job' (hsame ▸ hjob') hactive
  | sends who id n job hjob _ hbefore hafter hjobs hattempts hcalls _ hunsent =>
    refine Budget.mono ?_ (Nat.le_add_right _ _)
    have hmay : s'.MayPrepare key → s.MayPrepare key := by
      unfold MayPrepare
      rw [hjobs, hattempts]
      exact fun hmay ↦ hmay
    by_cases hkey : buildAttemptKey job n = key
    · rw [hkey] at hbefore hcalls
      exact h.send hbefore (hafter key) hcalls (fun other ↦ hunsent other key) hmay
    · refine h.of_unchanged ?_ (fun other ↦ hunsent other key) hmay
      rw [hcalls, List.count_cons_of_ne hkey]
  | closes who id job attempt hjob _ hended hothers hattempts hcalls hsessions =>
    refine Budget.mono ?_ (Nat.le_add_right _ _)
    refine h.of_unchanged (by rw [hcalls]) (fun _ ↦ hsessions.unsent) fun hagain ↦ ?_
    by_cases hkey : key = buildAttemptKey job (job.retryCount + 1)
    · rcases hagain with hnone | ⟨attempt', job', hattempt', hprepared, -⟩
      · rw [hattempts, if_pos hkey] at hnone
        simp at hnone
      · rw [hattempts, if_pos hkey] at hattempt'
        cases hattempt'
        exact absurd hprepared hended
    · refine hagain.before hsound (by rw [hattempts, if_neg hkey])
        fun attempt' job' hattempt' hprepared hjob' _ ↦ hothers _ job' (fun hsame ↦ hkey ?_) hjob'
      rw [hsame, hjob] at hjob'
      cases hjob'
      exact hsound.tables.key_of_prepared hattempt' hprepared (hsame ▸ hjob)

/-! ### The steps of the services -/

/-- A step that leaves the tables and the calls alone. -/
theorem NoNewAttempt.submission (h : s.NoNewAttempt s') (hjobs : s'.jobs = s.jobs)
    (hattempts : s'.attempts = s.attempts) (hcalls : s'.calls = s.calls) : s.Submission s' call :=
  .quiet (fun _ _ hjob _ ↦ .inr (hjobs ▸ hjob)) hattempts hcalls h

/-- A session writes a job that is not running. -/
theorem Submission.of_write {base new stored : PublishingJob}
    (hfound : ∀ other job, s.jobs.find other = some job → jobs.find other = some job)
    (hstored : jobs.find id = some stored) (hstopped : stored.status ≠ .running)
    (hjobs : s'.jobs = jobs.modify id (PublishingJob.flush base new))
    (hattempts : s'.attempts = s.attempts) (hcalls : s'.calls = s.calls)
    (hsessions : s.NoNewAttempt s') : s.Submission s' call := by
  refine .quiet (fun other job hjob hrunning ↦ .inr ?_) hattempts hcalls hsessions
  have hsame := hfound other job hjob
  rw [hjobs, find_modify_of_ne]
  · exact hsame
  · rintro rfl
    obtain rfl := mem_unique hsame hstored
    exact hstopped hrunning

/-- Jobs that are not taken back by recovery stay running. -/
theorem submission_executeDueJobs {workerId : String} {stale due : List ℕ}
    (hfree : s.session who = none) :
    s.Submission (s.executeDueJobs env now who workerId stale due)
      (now, .executeDueJobs who workerId stale due) := by
  refine .quiet (fun id job hjob hrunning ↦ ?_) rfl rfl
    (noNewAttempt_proceed rfl fun _ _ _ _ ↦ Phase.noConfusion)
  rw [find_executeDueJobs, hjob, map_some]
  by_cases hstale : id ∈ stale ∧ job.isStale now
  · refine .inl (decide_eq_true ⟨by rw [hfree]; rfl, hstale.1, ?_⟩)
    rw [hjob, any_some]
    exact decide_eq_true ⟨hrunning, hstale.2⟩
  · refine .inr (congrArg some ?_)
    unfold recoverRow claimRow
    rw [if_neg hstale, if_neg]
    rintro ⟨-, hdue⟩
    unfold PublishingJob.isDue at hdue
    have hstatus := (of_decide_eq_true hdue).1
    rw [hrunning] at hstatus
    exact absurd hstatus (by decide)

/-- The commit of `prepare_attempt` opens an attempt that may be opened. -/
theorem Sound.submission_prepare (h : s.Sound) {existing : Option PublishingAttempt}
    (hsession : s.session who = some (.publisher p)) (hphase : p.phase = .preparing id job existing)
    (hattempt : attempt = prepareAttempt now p.workerId id job existing)
    {attempts : KeyedTable String PublishingAttempt}
    (hjobs : (Publishing.insertJobs p.created s.jobs).bind
      (writeJob id job (job.begin env now p.workerId attempt)) = some jobs)
    (hattempts : writeAttempt existing attempt s.attempts = some attempts) (events : List Event) :
    s.Submission ({ s with jobs := jobs, attempts := attempts, events := events }.proceed who
      { p with
        created := []
        phase := .attempting id (job.begin env now p.workerId attempt).saved attempt false }) call := by
  have haccounts := (h.session who _ hsession).accounts_eq_nil (by rw [hphase]; exact Phase.noConfusion)
  obtain ⟨inserted, stored, hinsert, hstored, hversion, rfl, hpublishable, hheld, hnone, hfound⟩ :=
    h.preparing hsession hphase hjobs
  have hcommitted := (h.commitCreated hsession haccounts hinsert).sound.tables
  have hagrees := hheld.agrees hstored hversion
  have hstopped := hheld.not_running hstored hversion
    (isPublishable_ne hpublishable PublishingJobStatus.noConfusion PublishingJobStatus.noConfusion).symm
  have hkeys : ∀ n, buildAttemptKey stored n = buildAttemptKey job n := hheld.attemptKeys hstored
  have hexisting := hcommitted.existing_spec hstored hkeys hfound
  obtain ⟨hid, hnumber, hattemptKey, hprepared⟩ := prepareAttempt_spec now p.workerId hexisting
  rw [← hattempt] at hid hnumber hattemptKey hprepared
  have hbefore : ∀ row, s.jobs.find id = some row → row = stored := fun row hrow ↦
    mem_unique (insertJobs_find hinsert hrow) hstored
  -- an attempt that is there is `PREPARED`: after a success there would be a post
  have hmay : s.MayPrepare attempt.attemptKey := by
    rw [hattemptKey]
    cases existing with
    | none => exact .inl hfound
    | some base =>
      obtain ⟨hbase, -, -⟩ := hexisting base rfl
      obtain ⟨-, row, hrow, -⟩ := h.tables.known _ base hfound
      obtain rfl := hbefore row (hbase ▸ hrow)
      have hjobSound := hcommitted.job id row hstored
      have hstatus : s.statusAt row (row.retryCount + 1) = some base.status := by
        unfold statusAt
        rw [hkeys, hagrees.1, hfound, map_some]
      refine .inr ⟨base, row, hfound, ?_, hrow, hstopped⟩
      rcases hjobSound.next base.status hstatus with hopen | hsucceeded
      · exact hopen
      · have hposts : (s.postsOf id).length = 1 :=
          hjobSound.posts.trans (if_pos (hstatus.trans (congrArg some hsucceeded)))
        rw [publishedPost_eq_none_iff.mp hnone] at hposts
        exact absurd hposts (by decide)
  refine .opens who id _ attempt hmay hid (fun row hrow ↦ hbefore row hrow ▸ hstopped)
    ((find_modify_self _ _ _).trans (congrArg (map _) hstored)) ?_ ?_ ?_ rfl ?_ ?_
  · exact flushColumn_of_ne (isPublishable_ne hpublishable PublishingJobStatus.noConfusion
      PublishingJobStatus.noConfusion) _
  · intro other row hother hrow
    exact (find_modify_of_ne _ _ hother).trans (insertJobs_find hinsert hrow)
  · rw [← hattemptKey] at hfound
    rw [hattempt] at hattempts hfound ⊢
    exact find_writeAttempt hattempts hfound
  · rintro other id' ⟨version, hattempting⟩
    rcases attemptingAt_proceed hattempting with ⟨-, hold⟩ | ⟨rfl, _, _, _, hphase', -⟩
    · exact .inl ⟨version, hold⟩
    · exact .inr ⟨rfl, (attempting.inj hphase').1.symm⟩
  · rintro other key ⟨q, id', job', attempt', hsession', hphase', hkey⟩
    rcases publisher_of_proceed rfl hsession' with ⟨-, hold⟩ | ⟨rfl, rfl⟩
    · exact .inl ⟨q, id', job', attempt', hold, hphase', hkey⟩
    · obtain ⟨-, -, rfl, -⟩ := attempting.inj hphase'
      exact .inr ⟨rfl, hkey.symm⟩

/-- What the session with an attempt knows, as long as its copy of the job is current. -/
theorem Sound.attempting (h : s.Sound) {sent : Bool} (hsession : s.session who = some (.publisher p))
    (hphase : p.phase = .attempting id job attempt sent) :
    ∃ stored, s.jobs.find id = some stored ∧ attempt.status = .prepared ∧
      attempt.attemptKey = buildAttemptKey stored (job.retryCount + 1) ∧
      (stored.version = job.version → stored.retryCount = job.retryCount ∧
        s.attempts.find attempt.attemptKey = some attempt) := by
  obtain ⟨-, -, -, hattempting⟩ := h.session who _ hsession
  rw [hphase] at hattempting
  obtain ⟨-, hheld, -, hattemptKey, -, hprepared, hcurrent⟩ := hattempting
  obtain ⟨stored, hstored, hkey, htracks⟩ := hheld
  refine ⟨stored, hstored, hprepared, hattemptKey.trans (buildAttemptKey_congr hkey _).symm, ?_⟩
  exact fun hversion ↦ ⟨(htracks.same hversion.symm).1, hcurrent stored hstored hversion.symm⟩

/-- The end of an attempt. -/
theorem Sound.submission_finish (h : s.Sound) {sent : Bool} (hsession : s.session who = some (.publisher p))
    (hphase : p.phase = .attempting id job attempt sent) {outcome : Outcome}
    (hjobs : writeJob id job (finalized env now s id job attempt outcome).1 s.jobs = some jobs)
    {done : PublishingState} (hdone : done =
      { s with
        jobs := jobs
        attempts := s.attempts.modify attempt.attemptKey
          (flush attempt (finalized env now s id job attempt outcome).2.1)
        posts := s.posts ++ (finalized env now s id job attempt outcome).2.2
        events := .finalized id :: s.events })
    (hafter : s' = done.close who ∨ s' = done.proceed who { p with phase := .ready }) :
    s.Submission s' call := by
  obtain ⟨stored, hstored, hversion, rfl⟩ := writeJob_eq_some_iff.mp hjobs
  obtain ⟨row, hrow, hprepared, hattemptKey, hcurrent⟩ := h.attempting hsession hphase
  obtain rfl := mem_unique hrow hstored
  obtain ⟨hcount, hfound⟩ := hcurrent hversion
  have hended : (finalized env now s id job attempt outcome).2.1.status ≠ .prepared := by
    obtain ⟨-, ⟨status, hfailed, -, hstatus, -⟩ | ⟨-, hstatus, -⟩⟩ :=
      finalized_cases env now s id job attempt outcome
    · rw [hstatus]
      rintro rfl
      exact absurd hfailed (by decide)
    · rw [hstatus]
      exact PublishingAttemptStatus.noConfusion
  generalize finalized env now s id job attempt outcome = written at *
  have hsame : done.session = s.session := by rw [hdone]
  have htables : s'.jobs = done.jobs ∧ s'.attempts = done.attempts ∧ s'.calls = done.calls := by
    rcases hafter with rfl | rfl <;> exact ⟨rfl, rfl, rfl⟩
  refine .closes who id row (flush attempt written.2.1 attempt) hrow
    ⟨_, p, job, attempt, sent, hsession, hphase, rfl⟩ ?_ ?_ ?_ ?_ ?_
  · rw [← flushColumn_self attempt.status written.2.1.status] at hended
    exact hended
  · intro other job' hother hjob'
    rw [htables.1, hdone]
    exact (find_modify_of_ne _ _ hother).trans hjob'
  · intro key
    rw [htables.2.1, hdone, hcount, ← hattemptKey]
    refine (find_modify _ _ _ _).trans ?_
    split_ifs with hkey
    · rw [hkey, hfound, map_some]
    · rfl
  · rw [htables.2.2, hdone]
  · rcases hafter with rfl | rfl
    · exact noNewAttempt_close hsame who
    · exact noNewAttempt_proceed hsame fun _ _ _ _ ↦ Phase.noConfusion

theorem Sound.submission_call (h : s.Sound) (hsession : s.session who = some (.publisher p))
    (hphase : p.phase = .attempting id job attempt false) :
    s.Submission (s.callProvider who p id job attempt) call := by
  obtain ⟨stored, hstored, -, hattemptKey, -⟩ := h.attempting hsession hphase
  refine .sends who id (job.retryCount + 1) stored hstored
    ⟨_, p, job, attempt, false, hsession, hphase, rfl⟩ ?_ ?_ rfl rfl ?_ ?_ ?_
  · exact ⟨p, id, job, attempt, hsession, hphase, hattemptKey⟩
  · rintro key ⟨q, id', job', attempt', hsession', hphase', -⟩
    rcases publisher_of_proceed rfl hsession' with ⟨hother, -⟩ | ⟨-, rfl⟩
    · exact hother rfl
    · obtain ⟨-, -, -, hsent⟩ := attempting.inj hphase'
      exact absurd hsent (by decide)
  · rw [← hattemptKey]
    rfl
  · rintro other id' ⟨version, q, job', attempt', sent, hsession', hphase', hversion⟩
    rcases publisher_of_proceed rfl hsession' with ⟨-, hbefore⟩ | ⟨rfl, rfl⟩
    · exact ⟨version, q, job', attempt', sent, hbefore, hphase', hversion⟩
    · obtain ⟨rfl, rfl, rfl, -⟩ := attempting.inj hphase'
      exact ⟨version, p, job, attempt, false, hsession, hphase, hversion⟩
  · rintro other key ⟨q, id', job', attempt', hsession', hphase', hkey⟩
    rcases publisher_of_proceed rfl hsession' with ⟨-, hbefore⟩ | ⟨rfl, rfl⟩
    · exact ⟨q, id', job', attempt', hbefore, hphase', hkey⟩
    · obtain ⟨-, -, -, hsent⟩ := attempting.inj hphase'
      exact absurd hsent (by decide)

/-- Every step of the services. -/
theorem Sound.submission (h : s.Sound) (env : PublishingEnv) (call : Time × PublishingOp) :
    s.Submission (s.apply env call) call := by
  obtain ⟨now, op⟩ := call
  have heffect := apply_effect env s now op
  generalize s.apply env (now, op) = s' at heffect ⊢
  cases heffect with
  | idle op => exact .quiet (fun _ _ hjob _ ↦ .inr hjob) rfl rfl fun _ p _ _ _ _ hsession hphase ↦ ⟨p, hsession, hphase⟩
  | closed op who => exact (noNewAttempt_close rfl who).submission rfl rfl rfl
  | opened who accounts scheduledFor hfree =>
    exact (noNewAttempt_proceed rfl fun _ _ _ _ ↦ Phase.noConfusion).submission rfl rfl rfl
  | known who p account rest hsession haccounts =>
    exact NoNewAttempt.submission (noNewAttempt_of_phase rfl hsession (by rfl)) rfl rfl rfl
  | created who p account rest hsession haccounts =>
    exact NoNewAttempt.submission (noNewAttempt_of_phase rfl hsession (by rfl)) rfl rfl rfl
  | claimed who workerId stale due hfree => exact submission_executeDueJobs hfree
  | ended who p jobs hsession hjobs =>
    exact .quiet (fun _ _ hjob _ ↦ .inr (insertJobs_find hjobs hjob)) rfl rfl (noNewAttempt_close rfl who)
  | deferred who retryAfterSeconds p id job rest jobs hsession haccounts hphase htodo hjobs =>
    obtain ⟨inserted, stored, hinsert, hstored, hversion, rfl, hpublishable, hheld⟩ :=
      h.deferring hsession haccounts htodo hjobs
    have hstopped := hheld.not_running hstored hversion (isPublishable_ne hpublishable
      PublishingJobStatus.noConfusion PublishingJobStatus.noConfusion).symm
    exact .of_write (fun _ _ hjob ↦ insertJobs_find hinsert hjob) hstored hstopped rfl rfl rfl
      (noNewAttempt_of_phase rfl hsession rfl)
  | passed op who p p' hsession hworker hcreated haccounts hscheduled htodo hphase =>
    exact (noNewAttempt_proceed rfl fun _ _ _ _ ↦ by rw [hphase]; exact Phase.noConfusion).submission rfl rfl rfl
  | looked who p id job rest hsession haccounts hphase htodo hpost =>
    exact (noNewAttempt_proceed rfl fun _ _ _ _ ↦ Phase.noConfusion).submission rfl rfl rfl
  | found who p id job hsession hphase hcheck =>
    exact (noNewAttempt_proceed rfl fun _ _ _ _ ↦ Phase.noConfusion).submission rfl rfl rfl
  | prepared who p id job existing attempt jobs attempts hsession hphase hattempt hjobs hattempts =>
    exact h.submission_prepare hsession hphase hattempt hjobs hattempts _
  | called who p id job attempt hsession hphase => exact h.submission_call hsession hphase
  | finished who outcome p id job attempt sent jobs done s' hsession hphase hpossible hjobs hdone
      hafter =>
    exact h.submission_finish hsession hphase hjobs hdone hafter
  | loaded op who id job session hfree hjob haction =>
    refine (noNewAttempt_update (fun p ↦ ?_) who).submission rfl rfl rfl
    rcases haction with ⟨rfl, -⟩ | ⟨rfl, -⟩ <;> exact Session.noConfusion
  | checked who id quota job hsession hlatest =>
    exact (noNewAttempt_update (fun p ↦ Session.noConfusion) who).submission rfl rfl rfl
  | cancelled who id job jobs hsession hjobs =>
    obtain ⟨hheld, hcancellable⟩ := h.session who _ hsession
    obtain ⟨stored, hstored, hversion, rfl⟩ := writeJob_eq_some_iff.mp hjobs
    refine .of_write (fun _ _ hjob ↦ hjob) hstored (hheld.not_running hstored hversion fun hrunning ↦ ?_)
      rfl rfl rfl (noNewAttempt_close rfl who)
    rw [hrunning] at hcancellable
    exact absurd hcancellable (by decide)
  | retried who id job jobs hsession hjobs =>
    obtain ⟨hheld, hretryable, -⟩ := h.session who _ hsession
    obtain ⟨stored, hstored, hversion, rfl⟩ := writeJob_eq_some_iff.mp hjobs
    refine .of_write (fun _ _ hjob ↦ hjob) hstored (hheld.not_running hstored hversion fun hrunning ↦ ?_)
      rfl rfl rfl (noNewAttempt_close rfl who)
    rw [hrunning] at hretryable
    exact absurd hretryable (by decide)

/-! ### Runs -/

theorem budget_empty (key : String) : Budget {} key 1 :=
  ⟨∅, fun _ ⟨_, _, _, _, hsession, _⟩ ↦ absurd hsession (by simp), Nat.zero_le 1, fun _ ↦ Nat.zero_lt_one⟩

theorem Budget.play (calls : List (Time × PublishingOp)) (h : s.Budget key bound) (hsound : s.Sound) :
    (play (apply env) calls s).Budget key (bound + requeued env key calls s) := by
  induction calls generalizing s bound with
  | nil => exact h
  | cons call rest ih =>
    have hrest := ih (h.submission hsound (hsound.submission env call)) (hsound.apply env call).sound
    rw [Nat.add_assoc] at hrest
    exact hrest

/-- The attempt of the job is open, and no session works on it. -/
def Abandoned (s : PublishingState) (id : ℕ) (job : PublishingJob) : Prop :=
  s.jobs.find id = some job ∧ job.status = .running ∧ ∀ who, ¬ s.Attempting who id

/-- Until recovery takes the job back, nobody works on it. -/
theorem Abandoned.submission (h : s.Abandoned id job) (hsound : s.Sound)
    (hstep : s.Submission s' call) (hkept : ¬ s.takesBack id call) (n : ℕ) :
    s'.Abandoned id job ∧
      s'.calls.count (buildAttemptKey job n) = s.calls.count (buildAttemptKey job n) := by
  obtain ⟨hjob, hrunning, halone⟩ := h
  cases hstep with
  | quiet hrows hattempts hcalls hsessions =>
    refine ⟨⟨(hrows id job hjob hrunning).resolve_left hkept, hrunning, fun who hattempting ↦ ?_⟩, ?_⟩
    · exact halone who (hsessions.attempting hattempting)
    · rw [hcalls]
  | opens who other job' attempt hmay hid hstopped hrow hactive hothers hattempts hcalls hattempting =>
    have hne : id ≠ other := by
      rintro rfl
      exact hstopped job hjob hrunning
    refine ⟨⟨hothers id job hne hjob, hrunning, fun who' hafter ↦ ?_⟩, by rw [hcalls]⟩
    rcases hattempting who' id hafter with hbefore | ⟨-, hsame⟩
    · exact halone who' hbefore
    · exact hne hsame
  | sends who other m job' hjob' howner hbefore hafter hjobs hattempts hcalls hattempting hunsent =>
    refine ⟨⟨hjobs ▸ hjob, hrunning, fun who' hafter ↦ halone who' (hattempting who' id hafter)⟩, ?_⟩
    have hne : other ≠ id := by
      rintro rfl
      exact halone who howner
    rw [hcalls, List.count_cons_of_ne (hsound.tables.key_ne hjob hjob' hne m n)]
  | closes who other job' attempt hjob' howner hended hothers hattempts hcalls hsessions =>
    have hne : id ≠ other := by
      rintro rfl
      exact halone who howner
    refine ⟨⟨hothers id job hne hjob, hrunning, fun who' hafter ↦ ?_⟩, by rw [hcalls]⟩
    exact halone who' (hsessions.attempting hafter)

/-- In every run of the services, the provider is called under an attempt key at most once more than
recovery has requeued the attempt. A job that is running, with an open attempt no session works on, gets
no further call under any key before recovery takes it back. -/
theorem submissions_bounded (env : PublishingEnv) (calls : List (Time × PublishingOp)) :
    (∀ key, (play (apply env) calls {}).calls.count key ≤
      1 + requeued env key calls {}) ∧
    ∀ before after, calls = before ++ after → ∀ id job,
      (play (apply env) before {}).Abandoned id job →
      Along (apply env) (fun s call ↦ ¬ s.takesBack id call) after
        (play (apply env) before {}) →
      ((play (apply env) before {}).latestAttempt id).map PublishingAttempt.status =
          some .prepared ∧
        ∀ n, (play (apply env) calls {}).calls.count (buildAttemptKey job n) =
          (play (apply env) before {}).calls.count (buildAttemptKey job n) := by
  refine ⟨fun key ↦ ?_, ?_⟩
  · have hbudget : (play (apply env) calls {}).Budget key
        (1 + requeued env key calls {}) := (budget_empty key).play calls sound_empty
    obtain ⟨owners, -, hcount, -⟩ := hbudget
    exact (Nat.le_add_right _ _).trans hcount
  · rintro before after rfl id job habandoned hkept
    have hsound := sound_play env before
    rw [play_append]
    generalize play (apply env) before {} = s at *
    refine ⟨hsound.tables.latestAttempt_of_prepared habandoned.1
      ((hsound.tables.job id job habandoned.1).running habandoned.2.1), fun n ↦ ?_⟩
    have hstep : ∀ (t : PublishingState) (call : Time × PublishingOp), (t.Sound ∧ t.Abandoned id job ∧
        t.calls.count (buildAttemptKey job n) = s.calls.count (buildAttemptKey job n)) →
        ¬ t.takesBack id call → (t.apply env call).Sound ∧ (t.apply env call).Abandoned id job ∧
          (t.apply env call).calls.count (buildAttemptKey job n) =
            s.calls.count (buildAttemptKey job n) := by
      rintro t call ⟨hsound, habandoned, hcount⟩ hcall
      obtain ⟨hafter, hsame⟩ := habandoned.submission hsound (hsound.submission env call) hcall n
      exact ⟨(hsound.apply env call).sound, hafter, hsame.trans hcount⟩
    have hrun := hkept.invariant hstep ⟨hsound, habandoned, rfl⟩
    exact hrun.2.2

/-! ### A crash after the call -/

def crashCalls : List (Time × PublishingOp) :=
  [(0, .publishNow 0 [jobRequest 1 "first"] none), (0, .resolveAccount 0), (0, .lookUpPost 0),
    (0, .lookUpAttempt 0), (0, .prepare 0), (1, .callProvider 0), (2, .crash 0)]

/-- A worker that finds the job after the lease has run out. -/
def recoveryCalls : List (Time × PublishingOp) :=
  [(900000001, .executeDueJobs 1 "worker" [1] [1]), (900000001, .lookUpPost 1),
    (900000001, .lookUpAttempt 1), (900000001, .prepare 1), (900000002, .callProvider 1)]

/-- The crash and the recovery: the provider is called twice under one key, and the attempt has been
`PREPARED` without a session in between. -/
theorem crash_calls_twice :
    (play (apply publishingEnv) crashCalls {}).calls.count "first:attempt:1" = 1 ∧
      ((play (apply publishingEnv) crashCalls {}).latestAttempt 1).map
        PublishingAttempt.status = some .prepared ∧
      (play (apply publishingEnv) crashCalls {}).attemptOf 0 = none ∧
      (play (apply publishingEnv) (crashCalls ++ recoveryCalls) {}).calls.count
        "first:attempt:1" = 2 := by
  decide +kernel

/-- Recovery has requeued the attempt once. -/
theorem crash_requeued :
    requeued publishingEnv "first:attempt:1" (crashCalls ++ recoveryCalls) {} = 1 ∧
      (play (apply publishingEnv) (crashCalls ++ recoveryCalls) {}).calls.count
        "first:attempt:1" ≤ 1 + 1 := by
  have hrequeued : requeued publishingEnv "first:attempt:1" (crashCalls ++ recoveryCalls) {} = 1 := by
    decide +kernel
  refine ⟨hrequeued, ?_⟩
  have hcount := (submissions_bounded publishingEnv (crashCalls ++ recoveryCalls)).1 "first:attempt:1"
  rwa [hrequeued] at hcount

end PublishingState

end ContentGenerator.Publishing

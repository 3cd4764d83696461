import ContentGenerator.Publishing.Steps

/-!
# Jobs, attempts and posts agree

The three tables are consistent in every reachable state: the attempts of a job are numbered without
gaps, its retry count says how many of them have failed, a post exists when the latest attempt has
succeeded, and a job whose latest attempt is ambiguous waits for a person.

`JobSound` is what the tables say about one job and `SessionSound` what an open session knows about the
jobs it has loaded: as long as its copy has the stored version, the two differ by a claim at most, and
what the session has looked up is still there. `Rely` is what others may do to the tables meanwhile.

Main result: `publishing_consistent`.
-/

namespace ContentGenerator.Publishing

open Lib List Option

variable {created : List (ℕ × PublishingJob)} {s'' : PublishingState}

theorem buildAttemptKey_congr {job job' : PublishingJob} (h : job'.idempotencyKey = job.idempotencyKey)
    (n : ℕ) : buildAttemptKey job' n = buildAttemptKey job n := by
  unfold buildAttemptKey
  rw [h]

namespace PublishingState

/-! ### What the tables say about a job -/

def statusAt (s : PublishingState) (job : PublishingJob) (n : ℕ) : Option PublishingAttemptStatus :=
  (s.attempts.find (buildAttemptKey job n)).map PublishingAttempt.status

def postsOf (s : PublishingState) (id : ℕ) : List PublishedPost :=
  s.posts.filter fun post ↦ post.publishingJobId = id

/-- Attempts up to the retry count have failed, the last of them perhaps without a known outcome; the
next one is open or has succeeded, and is the last. -/
structure JobSound (s : PublishingState) (id : ℕ) (job : PublishingJob) : Prop where
  past : ∀ n, 1 ≤ n → n < job.retryCount →
    ∃ status, s.statusAt job n = some status ∧ status.isFailed
  last : 1 ≤ job.retryCount →
    ∃ status, s.statusAt job job.retryCount = some status ∧ (status.isFailed ∨ status = .ambiguous)
  next : ∀ status, s.statusAt job (job.retryCount + 1) = some status →
    status = .prepared ∨ status = .succeeded
  beyond : ∀ n, n = 0 ∨ job.retryCount + 1 < n → s.statusAt job n = none
  taken : s.statusAt job job.retryCount = some .ambiguous →
    job.status = .manualRequired ∧ s.statusAt job (job.retryCount + 1) = none
  running : job.status = .running → s.statusAt job (job.retryCount + 1) = some .prepared
  posts : (s.postsOf id).length =
    if s.statusAt job (job.retryCount + 1) = some .succeeded then 1 else 0

/-- The tables are sound: keys are unique, every attempt and every post belongs to a job. -/
structure TablesSound (s : PublishingState) : Prop where
  keys : ∀ id job id' job', s.jobs.find id = some job → s.jobs.find id' = some job' →
    job.idempotencyKey = job'.idempotencyKey → id = id'
  known : ∀ key attempt, s.attempts.find key = some attempt →
    attempt.attemptKey = key ∧ ∃ job, s.jobs.find attempt.publishingJobId = some job ∧
      key = buildAttemptKey job attempt.attemptNumber
  posted : ∀ post ∈ s.posts, (s.jobs.find post.publishingJobId).isSome
  job : ∀ id job, s.jobs.find id = some job → s.JobSound id job

variable {env : PublishingEnv} {now : Time} {s s' : PublishingState} {id other : ℕ}
  {job stored copy job' new : PublishingJob}

theorem statusAt_congr (h : job'.idempotencyKey = job.idempotencyKey) (n : ℕ) :
    s.statusAt job' n = s.statusAt job n := by
  unfold statusAt
  rw [buildAttemptKey_congr h]

theorem publishedPost_eq_none_iff : s.publishedPost id = none ↔ s.postsOf id = [] := by
  unfold publishedPost postsOf
  rw [find?_eq_none, filter_eq_nil_iff]

/-- An attempt under a key of the job is an attempt of the job. -/
theorem TablesSound.owned (h : s.TablesSound) (hjob : s.jobs.find id = some job) {n : ℕ}
    {attempt : PublishingAttempt} (hattempt : s.attempts.find (buildAttemptKey job n) = some attempt) :
    attempt.publishingJobId = id ∧ attempt.attemptNumber = n ∧
      attempt.attemptKey = buildAttemptKey job n := by
  obtain ⟨hkey, owner, howner, hsame⟩ := h.known _ _ hattempt
  obtain ⟨hidempotency, hnumber⟩ := attemptKey_inj hsame
  exact ⟨h.keys _ _ _ _ howner hjob hidempotency.symm, hnumber.symm, hkey⟩

/-- Two jobs have no attempt key in common. -/
theorem TablesSound.key_ne (h : s.TablesSound) (hjob : s.jobs.find id = some job)
    (hother : s.jobs.find other = some job') (hne : other ≠ id) (n m : ℕ) :
    buildAttemptKey job' n ≠ buildAttemptKey job m :=
  fun hsame ↦ hne (h.keys _ _ _ _ hother hjob (attemptKey_inj hsame).1)

/-- What is said about a job that has changed its status only. -/
theorem JobSound.of_same (h : s.JobSound id job)
    (hkey : job'.idempotencyKey = job.idempotencyKey) (hcount : job'.retryCount = job.retryCount)
    (hattempts : ∀ n, s'.statusAt job n = s.statusAt job n) (hposts : s'.postsOf id = s.postsOf id)
    (htaken : s.statusAt job job.retryCount = some .ambiguous → job'.status = .manualRequired)
    (hrunning : job'.status = .running → job.status = .running) : s'.JobSound id job' := by
  have hsame : ∀ n, s'.statusAt job' n = s.statusAt job n :=
    fun n ↦ (statusAt_congr hkey n).trans (hattempts n)
  constructor
  · intro n hpos hlt
    rw [hsame]
    exact h.past n hpos (hcount ▸ hlt)
  · rw [hcount, hsame]
    exact h.last
  · rw [hcount, hsame]
    exact h.next
  · intro n hn
    rw [hsame]
    exact h.beyond n (hcount ▸ hn)
  · rw [hcount, hsame, hsame]
    exact fun hambiguous ↦ ⟨htaken hambiguous, (h.taken hambiguous).2⟩
  · rw [hcount, hsame]
    exact fun hstatus ↦ h.running (hrunning hstatus)
  · rw [hcount, hsame, hposts]
    exact h.posts

/-- The next attempt of a job that nobody has to look at is prepared. -/
theorem JobSound.prepare (h : s.JobSound id job)
    (hkey : job'.idempotencyKey = job.idempotencyKey) (hcount : job'.retryCount = job.retryCount)
    (hattempts : ∀ n, s'.statusAt job n =
      if n = job.retryCount + 1 then some .prepared else s.statusAt job n)
    (hposts : s'.postsOf id = s.postsOf id) (hnone : s.postsOf id = [])
    (hstatus : job.status ≠ .manualRequired) : s'.JobSound id job' := by
  have hsame : ∀ n, n ≠ job.retryCount + 1 → s'.statusAt job' n = s.statusAt job n := by
    intro n hn
    rw [statusAt_congr hkey, hattempts, if_neg hn]
  have hnext : s'.statusAt job' (job.retryCount + 1) = some .prepared := by
    rw [statusAt_congr hkey, hattempts, if_pos rfl]
  constructor
  · intro n hpos hlt
    rw [hcount] at hlt
    rw [hsame n (by omega)]
    exact h.past n hpos hlt
  · rw [hcount, hsame _ (by omega)]
    exact h.last
  · rw [hcount, hnext]
    exact fun status hstatus ↦ .inl (Option.some.inj hstatus).symm
  · intro n hn
    rw [hcount] at hn
    rw [hsame n (by omega)]
    exact h.beyond n hn
  · rw [hcount, hsame _ (by omega)]
    exact fun hambiguous ↦ absurd (h.taken hambiguous).1 hstatus
  · rw [hcount]
    exact fun _ ↦ hnext
  · rw [hcount, hnext, hposts, hnone, if_neg (by simp)]
    rfl

theorem JobSound.fail (h : s.JobSound id job) (hrunning : job.status = .running)
    (hkey : job'.idempotencyKey = job.idempotencyKey) (hcount : job'.retryCount = job.retryCount + 1)
    {status : PublishingAttemptStatus}
    (hattempts : ∀ n, s'.statusAt job n =
      if n = job.retryCount + 1 then some status else s.statusAt job n)
    (hposts : s'.postsOf id = s.postsOf id) (hfailed : status.isFailed ∨ status = .ambiguous)
    (hambiguous : status = .ambiguous → job'.status = .manualRequired)
    (hstopped : job'.status ≠ .running) : s'.JobSound id job' := by
  have hsame : ∀ n, n ≠ job.retryCount + 1 → s'.statusAt job' n = s.statusAt job n := by
    intro n hn
    rw [statusAt_congr hkey, hattempts, if_neg hn]
  have hlast : s'.statusAt job' (job.retryCount + 1) = some status := by
    rw [statusAt_congr hkey, hattempts, if_pos rfl]
  have hnext : s'.statusAt job' (job.retryCount + 1 + 1) = none := by
    rw [hsame _ (by omega)]
    exact h.beyond _ (.inr (Nat.lt_succ_self _))
  constructor
  · intro n hpos hlt
    rw [hcount] at hlt
    rw [hsame n (by omega)]
    rcases Nat.lt_or_ge n job.retryCount with hbefore | hnow
    · exact h.past n hpos hbefore
    · obtain rfl : n = job.retryCount := by omega
      obtain ⟨old, hold, hfailed | rfl⟩ := h.last hpos
      · exact ⟨old, hold, hfailed⟩
      · exact absurd ((h.taken hold).1.symm.trans hrunning) (by decide)
  · rw [hcount, hlast]
    exact fun _ ↦ ⟨status, rfl, hfailed⟩
  · rw [hcount, hnext]
    exact fun status hstatus ↦ absurd hstatus (by simp)
  · intro n hn
    rw [hcount] at hn
    rw [hsame n (by omega)]
    exact h.beyond n (by omega)
  · rw [hcount, hlast, hnext]
    exact fun hsome ↦ ⟨hambiguous (Option.some.inj hsome), rfl⟩
  · exact fun hstatus ↦ absurd hstatus hstopped
  · rw [hcount, hnext, hposts, h.posts, h.running hrunning]
    rfl

/-- The open attempt has succeeded, and its post is created. -/
theorem JobSound.succeed (h : s.JobSound id job)
    (hrunning : job.status = .running) (hkey : job'.idempotencyKey = job.idempotencyKey)
    (hcount : job'.retryCount = job.retryCount)
    (hattempts : ∀ n, s'.statusAt job n =
      if n = job.retryCount + 1 then some .succeeded else s.statusAt job n)
    (hposts : (s'.postsOf id).length = 1) (hstopped : job'.status ≠ .running) : s'.JobSound id job' := by
  have hsame : ∀ n, n ≠ job.retryCount + 1 → s'.statusAt job' n = s.statusAt job n := by
    intro n hn
    rw [statusAt_congr hkey, hattempts, if_neg hn]
  have hnext : s'.statusAt job' (job.retryCount + 1) = some .succeeded := by
    rw [statusAt_congr hkey, hattempts, if_pos rfl]
  constructor
  · intro n hpos hlt
    rw [hcount] at hlt
    rw [hsame n (by omega)]
    exact h.past n hpos hlt
  · rw [hcount, hsame _ (by omega)]
    exact h.last
  · rw [hcount, hnext]
    exact fun status hstatus ↦ .inr (Option.some.inj hstatus).symm
  · intro n hn
    rw [hcount] at hn
    rw [hsame n (by omega)]
    exact h.beyond n hn
  · rw [hcount, hsame _ (by omega)]
    exact fun hambiguous ↦ absurd ((h.taken hambiguous).1.symm.trans hrunning) (by decide)
  · exact fun hstatus ↦ absurd hstatus hstopped
  · rw [hcount, hnext, hposts, if_pos rfl]

/-- A job that has just been inserted has no attempts and no posts. -/
theorem JobSound.fresh (hcount : job.retryCount = 0) (hattempts : ∀ n, s.statusAt job n = none)
    (hposts : s.postsOf id = []) (hstatus : job.status ≠ .running) : s.JobSound id job where
  past := fun n _ hlt ↦ absurd (hcount ▸ hlt) (Nat.not_lt_zero n)
  last := fun hpos ↦ absurd (hcount ▸ hpos) (by decide)
  next := fun status hsome ↦ absurd ((hattempts _).symm.trans hsome) (by simp)
  beyond := fun n _ ↦ hattempts n
  taken := fun hsome ↦ absurd ((hattempts _).symm.trans hsome) (by simp)
  running := fun hrunning ↦ absurd hrunning hstatus
  posts := by
    rw [hposts, hattempts, if_neg (by simp)]
    rfl

/-! ### What a session knows -/

/-- A copy and the stored row of the same version: a worker may have claimed the job meanwhile. -/
def Agrees (copy stored : PublishingJob) : Prop :=
  stored.retryCount = copy.retryCount ∧
    (stored.status = copy.status ∨ copy.status.isDue ∧ stored.status = .claimed)

def Held (s : PublishingState) (id : ℕ) (copy : PublishingJob) : Prop :=
  ∃ stored, s.jobs.find id = some stored ∧ stored.idempotencyKey = copy.idempotencyKey ∧
    Tracks PublishingJob.version Agrees copy stored

/-- What the session has looked up holds as long as its copy has the stored version. -/
def WhileCurrent (s : PublishingState) (id : ℕ) (copy : PublishingJob) (fact : Prop) : Prop :=
  ∀ stored, s.jobs.find id = some stored → copy.version = stored.version → fact

/-- `publish_job` may be called on the job. -/
def isPublishable (job : PublishingJob) : Bool := job.status = .pending ∨ job.status = .claimed

/-- A job the publisher may publish, loaded or inserted by the session itself. -/
def InHand (s : PublishingState) (created : List (ℕ × PublishingJob)) (id : ℕ)
    (copy : PublishingJob) : Prop :=
  isPublishable copy ∧ (created = [] → s.Held id copy) ∧ (created ≠ [] → (id, copy) ∈ created)

/-- What a publisher knows about the job it works on. -/
def PhaseSound (s : PublishingState) (created : List (ℕ × PublishingJob)) : Phase → Prop
  | .ready => True
  | .looked id job =>
    s.InHand created id job ∧ (created = [] → s.WhileCurrent id job (s.publishedPost id = none))
  | .preparing id job existing =>
    s.InHand created id job ∧
      (created = [] → s.WhileCurrent id job (s.publishedPost id = none ∧
        s.attempts.find (buildAttemptKey job (job.retryCount + 1)) = existing)) ∧
      (∀ attempt ∈ existing, ∃ other stored, s.jobs.find other = some stored ∧
        stored.idempotencyKey = job.idempotencyKey)
  | .attempting id job attempt _ =>
    created = [] ∧ s.Held id job ∧ job.status = .running ∧
      attempt.attemptKey = buildAttemptKey job (job.retryCount + 1) ∧
      attempt.attemptNumber = job.retryCount + 1 ∧ attempt.status = .prepared ∧
      s.WhileCurrent id job (s.attempts.find attempt.attemptKey = some attempt)

def SessionSound (s : PublishingState) : Session → Prop
  | .publisher p =>
    (∀ entry ∈ p.created, ∃ account : JobRequest,
      entry = (account.id, account.create p.scheduledFor)) ∧
    (p.accounts ≠ [] → p.phase = .ready ∧ (p.created = [] → p.todo = [])) ∧
    (∀ entry ∈ p.todo, s.InHand p.created entry.1 entry.2) ∧ s.PhaseSound p.created p.phase
  | .canceller id job => s.Held id job ∧ job.status.isCancellable
  | .retrier id job checked =>
    s.Held id job ∧ job.status.isRetryable ∧
      (checked → s.WhileCurrent id job (s.statusAt job job.retryCount ≠ some .ambiguous))

structure Sound (s : PublishingState) : Prop where
  tables : s.TablesSound
  session : ∀ who session, s.session who = some session → s.SessionSound session

/-! ### What others may do -/

/-- What may happen to the row a session has loaded: it is written, which changes its version and happens
to no job that is out for a person, or it is claimed, and then its attempts and posts stay. -/
structure Rely (s s' : PublishingState) : Prop where
  row : ∀ id stored, s.jobs.find id = some stored → ∃ stored', s'.jobs.find id = some stored' ∧
    stored'.idempotencyKey = stored.idempotencyKey ∧
    (stored.version < stored'.version ∧
        s.statusAt stored stored.retryCount ≠ some .ambiguous ∨
      stored'.version = stored.version ∧ stored'.retryCount = stored.retryCount ∧
        (stored'.status = stored.status ∨ stored.status.isDue ∧ stored'.status = .claimed) ∧
        s'.publishedPost id = s.publishedPost id ∧
        ∀ n, s'.attempts.find (buildAttemptKey stored n) = s.attempts.find (buildAttemptKey stored n))

theorem Rely.of_tables (hjobs : s'.jobs = s.jobs) (hattempts : s'.attempts = s.attempts)
    (hposts : s'.posts = s.posts) : s.Rely s' where
  row := fun id stored hstored ↦ by
    refine ⟨stored, by rw [hjobs]; exact hstored, rfl,
      .inr ⟨rfl, rfl, .inl rfl, ?_, fun n ↦ by rw [hattempts]⟩⟩
    unfold publishedPost
    rw [hposts]

theorem Held.attemptKeys {stored : PublishingJob} (h : s.Held id copy) (hstored : s.jobs.find id = some stored)
    (n : ℕ) : buildAttemptKey stored n = buildAttemptKey copy n := by
  obtain ⟨row, hrow, hkey, -⟩ := h
  obtain rfl := mem_unique hrow hstored
  exact buildAttemptKey_congr hkey n

theorem Held.rely (h : s.Held id copy) (hrely : s.Rely s') :
    s'.Held id copy := by
  obtain ⟨stored, hstored, hkey, htracks⟩ := h
  obtain ⟨stored', hstored', hkey', ⟨hwritten, -⟩ | ⟨hversion, hcount, hstatus, -⟩⟩ :=
    hrely.row id stored hstored
  · exact ⟨stored', hstored', hkey'.trans hkey, htracks.written hwritten⟩
  · refine ⟨stored', hstored', hkey'.trans hkey, htracks.updated hversion fun hagrees ↦ ?_⟩
    refine ⟨hcount.trans hagrees.1, ?_⟩
    rcases hstatus with hsame | ⟨hdue, hclaimed⟩
    · rw [hsame]
      exact hagrees.2
    · rcases hagrees.2 with hsame | ⟨hdue', -⟩
      · exact .inr ⟨hsame ▸ hdue, hclaimed⟩
      · exact .inr ⟨hdue', hclaimed⟩

/-- What a session has looked up under a current copy stays as it is while the copy is current. -/
theorem WhileCurrent.rely {fact fact' : Prop} (hheld : s.Held id copy)
    (h : s.WhileCurrent id copy fact) (hrely : s.Rely s')
    (hfact : ∀ stored, s.jobs.find id = some stored → s'.publishedPost id = s.publishedPost id →
      (∀ n, s'.attempts.find (buildAttemptKey stored n) =
        s.attempts.find (buildAttemptKey stored n)) → fact → fact') :
    s'.WhileCurrent id copy fact' := by
  intro stored' hstored' hversion'
  obtain ⟨stored, hstored, -, htracks⟩ := hheld
  obtain ⟨row, hrow, -, ⟨hwritten, -⟩ | ⟨hversion, -, -, hpost, hattempts⟩⟩ :=
    hrely.row id stored hstored
  · obtain rfl := mem_unique hrow hstored'
    exact absurd hversion' (htracks.ne_of_written hwritten)
  · obtain rfl := mem_unique hrow hstored'
    exact hfact stored hstored hpost hattempts (h stored hstored (hversion'.trans hversion))

theorem InHand.rely
    (h : s.InHand created id copy) (hrely : s.Rely s') : s'.InHand created id copy :=
  ⟨h.1, fun hnil ↦ (h.2.1 hnil).rely hrely, h.2.2⟩

theorem PhaseSound.rely {phase : Phase}
    (h : s.PhaseSound created phase) (hrely : s.Rely s') : s'.PhaseSound created phase := by
  cases phase with
  | ready => trivial
  | looked id job =>
    refine ⟨h.1.rely hrely, fun hnil ↦ ?_⟩
    exact (h.2 hnil).rely (h.1.2.1 hnil) hrely fun stored _ hpost _ hnone ↦ hpost.trans hnone
  | preparing id job existing =>
    obtain ⟨hhand, hcurrent, hexisting⟩ := h
    refine ⟨hhand.rely hrely, fun hnil ↦ ?_, fun attempt hattempt ↦ ?_⟩
    · have hheld := hhand.2.1 hnil
      refine (hcurrent hnil).rely hheld hrely fun stored hstored hpost hattempts hfact ↦ ?_
      refine ⟨hpost.trans hfact.1, ?_⟩
      rw [← hheld.attemptKeys hstored, hattempts, hheld.attemptKeys hstored]
      exact hfact.2
    · obtain ⟨other, stored, hstored, hkey⟩ := hexisting attempt hattempt
      obtain ⟨stored', hstored', hkey', -⟩ := hrely.row other stored hstored
      exact ⟨other, stored', hstored', hkey'.trans hkey⟩
  | attempting id job attempt sent =>
    obtain ⟨hnil, hheld, hrunning, hattemptKey, hnumber, hstatus, hcurrent⟩ := h
    refine ⟨hnil, hheld.rely hrely, hrunning, hattemptKey, hnumber, hstatus, ?_⟩
    refine hcurrent.rely hheld hrely fun stored hstored _ hattempts hfact ↦ ?_
    rw [hattemptKey, ← hheld.attemptKeys hstored, hattempts, hheld.attemptKeys hstored, ← hattemptKey]
    exact hfact

theorem SessionSound.rely {session : Session} (h : s.SessionSound session) (hrely : s.Rely s') :
    s'.SessionSound session := by
  cases session with
  | publisher p =>
    obtain ⟨hcreated, hresolving, htodo, hphase⟩ := h
    exact ⟨hcreated, hresolving, fun entry hentry ↦ (htodo entry hentry).rely hrely, hphase.rely hrely⟩
  | canceller id job => exact ⟨h.1.rely hrely, h.2⟩
  | retrier id job checked =>
    obtain ⟨hheld, hretryable, hchecked⟩ := h
    refine ⟨hheld.rely hrely, hretryable, fun hchecked' ↦ ?_⟩
    refine (hchecked hchecked').rely hheld hrely fun stored hstored _ hattempts hfact ↦ ?_
    unfold statusAt at hfact ⊢
    rw [← hheld.attemptKeys hstored, hattempts, hheld.attemptKeys hstored]
    exact hfact

theorem Rely.trans (h : s.Rely s') (h' : s'.Rely s'') : s.Rely s'' where
  row := by
    intro id stored hstored
    obtain ⟨stored', hstored', hkey, hfirst⟩ := h.row id stored hstored
    obtain ⟨stored'', hstored'', hkey', hsecond⟩ := h'.row id stored' hstored'
    refine ⟨stored'', hstored'', hkey'.trans hkey, ?_⟩
    rcases hfirst with ⟨hwritten, hguard⟩ | ⟨hversion, hcount, hstatus, hpost, hattempts⟩
    · refine .inl ⟨?_, hguard⟩
      rcases hsecond with ⟨hwritten', -⟩ | ⟨hversion', -⟩
      · exact Nat.lt_trans hwritten hwritten'
      · exact hversion' ▸ hwritten
    · rcases hsecond with ⟨hwritten', hguard⟩ | ⟨hversion', hcount', hstatus', hpost', hattempts'⟩
      · refine .inl ⟨hversion ▸ hwritten', ?_⟩
        rw [statusAt_congr hkey, hcount] at hguard
        unfold statusAt at hguard ⊢
        rwa [hattempts] at hguard
      · refine .inr ⟨hversion'.trans hversion, hcount'.trans hcount, ?_, hpost'.trans hpost, ?_⟩
        · rcases hstatus with hsame | ⟨hdue, hclaimed⟩
          · rw [hsame] at hstatus'
            exact hstatus'
          · rcases hstatus' with hsame' | ⟨hdue', -⟩
            · exact .inr ⟨hdue, hsame'.trans hclaimed⟩
            · rw [hclaimed] at hdue'
              exact absurd hdue' (by decide)
        · intro n
          rw [← buildAttemptKey_congr hkey, hattempts', buildAttemptKey_congr hkey, hattempts]

/-- A step the open sessions can rely on, into a sound state. -/
structure SoundStep (s s' : PublishingState) : Prop where
  rely : s.Rely s'
  sound : s'.Sound

theorem SoundStep.trans (h : s.SoundStep s') (h' : s'.SoundStep s'') :
    s.SoundStep s'' where
  rely := h.rely.trans h'.rely
  sound := h'.sound

/-- One session takes a step, and the others rely on it. -/
theorem Sound.step (h : s.Sound) (htables : s'.TablesSound) (hrely : s.Rely s') (who : ℕ)
    (hothers : ∀ other, other ≠ who → s'.session other = s.session other)
    (hown : ∀ session, s'.session who = some session → s'.SessionSound session) : s.SoundStep s' where
  rely := hrely
  sound :=
    { tables := htables
      session := by
        intro other session hsession
        by_cases hother : other = who
        · subst hother
          exact hown session hsession
        · rw [hothers other hother] at hsession
          exact (h.session other session hsession).rely hrely }

/-! ### A transaction that writes one job -/

/-- A transaction writes the job and takes its version further, with its attempts and posts. -/
structure Writes (id : ℕ) (stored new : PublishingJob) (s s' : PublishingState) : Prop where
  row : s.jobs.find id = some stored
  jobs : ∀ other, s'.jobs.find other = if other = id then some new else s.jobs.find other
  key : new.idempotencyKey = stored.idempotencyKey
  version : stored.version < new.version
  attempts : ∀ key, (∀ n, key ≠ buildAttemptKey stored n) →
    s'.attempts.find key = s.attempts.find key
  known : ∀ n attempt, s'.attempts.find (buildAttemptKey stored n) = some attempt →
    attempt.publishingJobId = id ∧ attempt.attemptNumber = n ∧
      attempt.attemptKey = buildAttemptKey stored n
  posts : ∃ created, s'.posts = s.posts ++ created ∧ ∀ post ∈ created, post.publishingJobId = id

theorem Writes.postsOf (h : Writes id stored new s s') (hne : other ≠ id) : s'.postsOf other = s.postsOf other := by
  obtain ⟨created, hposts, hcreated⟩ := h.posts
  unfold PublishingState.postsOf
  rw [hposts, filter_append]
  have hnone : created.filter (fun post ↦ post.publishingJobId = other) = [] := by
    rw [filter_eq_nil_iff]
    intro post hpost
    simpa [hcreated post hpost] using Ne.symm hne
  rw [hnone, append_nil]

theorem Writes.publishedPost (h : Writes id stored new s s')
    (hne : other ≠ id) : s'.publishedPost other = s.publishedPost other := by
  obtain ⟨created, hposts, hcreated⟩ := h.posts
  unfold PublishingState.publishedPost
  rw [hposts, find?_append]
  have hnone : created.find? (fun post ↦ post.publishingJobId = other) = none := by
    rw [find?_eq_none]
    intro post hpost
    simpa [hcreated post hpost] using Ne.symm hne
  rw [hnone, or_none]

theorem Writes.find_attempt (h : Writes id stored new s s')
    (htables : s.TablesSound) (hne : other ≠ id) (hother : s.jobs.find other = some job)
    (n : ℕ) : s'.attempts.find (buildAttemptKey job n) = s.attempts.find (buildAttemptKey job n) :=
  h.attempts _ fun m ↦ htables.key_ne h.row hother hne n m

theorem Writes.rely (h : Writes id stored new s s') (htables : s.TablesSound)
    (hguard : s.statusAt stored stored.retryCount ≠ some .ambiguous) : s.Rely s' where
  row := by
    intro other row hrow
    by_cases hother : other = id
    · subst hother
      obtain rfl := mem_unique h.row hrow
      exact ⟨new, by rw [h.jobs, if_pos rfl], h.key, .inl ⟨h.version, hguard⟩⟩
    · refine ⟨row, by rw [h.jobs, if_neg hother]; exact hrow, rfl, .inr ⟨rfl, rfl, .inl rfl, ?_, ?_⟩⟩
      · exact h.publishedPost hother
      · exact h.find_attempt htables hother hrow

theorem Writes.tablesSound (h : Writes id stored new s s')
    (htables : s.TablesSound) (hjob : s'.JobSound id new) : s'.TablesSound := by
  -- every job of the new table has a job of the old one under its id, with the same key
  have hback : ∀ other row, s'.jobs.find other = some row →
      ∃ row', s.jobs.find other = some row' ∧ row'.idempotencyKey = row.idempotencyKey := by
    intro other row hrow
    rw [h.jobs] at hrow
    split_ifs at hrow with hother
    · cases hrow
      exact ⟨stored, hother ▸ h.row, h.key.symm⟩
    · exact ⟨row, hrow, rfl⟩
  have hforth : ∀ other row, s.jobs.find other = some row →
      ∃ row', s'.jobs.find other = some row' ∧ row'.idempotencyKey = row.idempotencyKey := by
    intro other row hrow
    rw [h.jobs]
    split_ifs with hother
    · subst hother
      obtain rfl := mem_unique h.row hrow
      exact ⟨new, rfl, h.key⟩
    · exact ⟨row, hrow, rfl⟩
  constructor
  · intro first row second row' hrow hrow' hkey
    obtain ⟨old, hold, holdKey⟩ := hback first row hrow
    obtain ⟨old', hold', holdKey'⟩ := hback second row' hrow'
    exact htables.keys _ _ _ _ hold hold' ((holdKey.trans hkey).trans holdKey'.symm)
  · intro key attempt hattempt
    by_cases hown : ∃ n, key = buildAttemptKey stored n
    · obtain ⟨n, rfl⟩ := hown
      obtain ⟨hid, hnumber, hkey⟩ := h.known n attempt hattempt
      refine ⟨hkey, new, ?_, ?_⟩
      · rw [hid, h.jobs, if_pos rfl]
      · rw [hnumber, buildAttemptKey_congr h.key]
    · rw [h.attempts key fun n hn ↦ hown ⟨n, hn⟩] at hattempt
      obtain ⟨hkey, row, hrow, hsame⟩ := htables.known key attempt hattempt
      obtain ⟨row', hrow', hkey'⟩ := hforth _ row hrow
      exact ⟨hkey, row', hrow', hsame.trans (buildAttemptKey_congr hkey' _).symm⟩
  · intro post hpost
    obtain ⟨created, hposts, hcreated⟩ := h.posts
    rw [hposts, mem_append] at hpost
    rcases hpost with hold | hnew
    · obtain ⟨row, hrow⟩ := isSome_iff_exists.mp (htables.posted post hold)
      obtain ⟨row', hrow', -⟩ := hforth _ row hrow
      rw [hrow']
      rfl
    · rw [hcreated post hnew, h.jobs, if_pos rfl]
      rfl
  · intro other row hrow
    by_cases hother : other = id
    · subst hother
      rw [h.jobs, if_pos rfl] at hrow
      cases hrow
      exact hjob
    · rw [h.jobs, if_neg hother] at hrow
      refine (htables.job other row hrow).of_same rfl rfl (fun n ↦ ?_) (h.postsOf hother)
        (fun hambiguous ↦ ((htables.job other row hrow).taken hambiguous).1) fun hrunning ↦ hrunning
      unfold statusAt
      rw [h.find_attempt htables hother hrow]

end PublishingState

end ContentGenerator.Publishing

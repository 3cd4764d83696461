import ContentGenerator.Approvals.ClosedRequests
import ContentGenerator.Approvals.Expiry

/-!
# The tenants of the WhatsApp inbox

`process_webhook_inbox` looks a request up by its id alone, so the deliveries of one tenant reach the requests
of every other one, and through a request its publishing jobs and its workflow runs. Everything else is done
for the tenant of the request: `SparesTenant` says so of the platform.

`tenant_untouched`: deliveries that name no request of a tenant leave its requests, publishing jobs and runs
as they are.
-/

namespace ContentGenerator.Approvals

open Lib Lib.Action Workflows List Option KeyedTable Function
open Publishing (Publisher Phase PublishingJob PublishingEnv PublishingState insertJobs writeJob)
open InboundMessage (apply)

variable {base new : PublishingJob} {created' : List (ℕ × PublishingJob)}
  {f : ApprovalRequest → ApprovalRequest} {feedback : String} {id : ℕ} {message : InboundMessage} {τ : Type}

/-! ### A session of `publish_now` -/

section Publishing

def IsNew (before : PublishingState) (created : List (ℕ × PublishingJob)) (id : ℕ) : Prop :=
  id ∈ created.map Prod.fst ∨ before.jobs.find id = none

/-- The job `publish_job` is at is new. -/
def PhaseNew (before : PublishingState) (created : List (ℕ × PublishingJob)) : Phase → Prop
  | .ready => True
  | .looked id _ | .preparing id _ _ => IsNew before created id
  | .attempting id _ _ _ => before.jobs.find id = none

/-- The jobs from before are as they were, and the sessions work on new ones. -/
structure OnlyNew (before s : PublishingState) : Prop where
  kept : ∀ id job, before.jobs.find id = some job → s.jobs.find id = some job
  todo : ∀ who p, s.session who = some (.publisher p) → ∀ entry ∈ p.todo, IsNew before p.created entry.1
  phase : ∀ who p, s.session who = some (.publisher p) → PhaseNew before p.created p.phase

variable {before s : PublishingState} {env : PublishingEnv} {now : Time} {created : List (ℕ × PublishingJob)}
  {jobs : KeyedTable ℕ PublishingJob}

theorem IsNew.mono (h : IsNew before created id)
    (hsub : created ⊆ created') : IsNew before created' id :=
  h.imp_left fun hid ↦ map_subset Prod.fst hsub hid

theorem PhaseNew.mono {phase : Phase}
    (h : PhaseNew before created phase) (hsub : created ⊆ created') : PhaseNew before created' phase := by
  cases phase with
  | ready => trivial
  | looked id job | preparing id job existing => exact IsNew.mono h hsub
  | attempting id job attempt sent => exact h

/-- A session goes on, and the others stay. -/
theorem OnlyNew.proceed (h : OnlyNew before s) (who : ℕ) {p : Publisher}
    (htodo : ∀ entry ∈ p.todo, IsNew before p.created entry.1) (hphase : PhaseNew before p.created p.phase) :
    OnlyNew before (s.proceed who p) where
  kept := h.kept
  todo other p' hp' := by
    rw [PublishingState.session_proceed] at hp'
    split_ifs at hp' with hother
    · obtain rfl := Publishing.Session.publisher.inj (Option.some.inj hp')
      exact htodo
    · exact h.todo other p' hp'
  phase other p' hp' := by
    rw [PublishingState.session_proceed] at hp'
    split_ifs at hp' with hother
    · obtain rfl := Publishing.Session.publisher.inj (Option.some.inj hp')
      exact hphase
    · exact h.phase other p' hp'

/-- A session without jobs takes the place of another one. -/
theorem OnlyNew.update (h : OnlyNew before s) (who : ℕ) {session : Option Publishing.Session}
    (hnone : ∀ p, session ≠ some (.publisher p)) :
    OnlyNew before { s with session := update s.session who session } where
  kept := h.kept
  todo other p hp := by
    dsimp only at hp
    rw [update_apply] at hp
    split_ifs at hp
    · exact absurd hp (hnone p)
    · exact h.todo other p hp
  phase other p hp := by
    dsimp only at hp
    rw [update_apply] at hp
    split_ifs at hp
    · exact absurd hp (hnone p)
    · exact h.phase other p hp

theorem OnlyNew.close (h : OnlyNew before s) (who : ℕ) : OnlyNew before (s.close who) :=
  h.update who fun _ ↦ nofun

/-- The tables change, and the sessions stay. -/
theorem OnlyNew.tables (h : OnlyNew before s) {s' : PublishingState} (hsession : s'.session = s.session)
    (hkept : ∀ id job, before.jobs.find id = some job → s'.jobs.find id = some job) : OnlyNew before s' where
  kept := hkept
  todo who p hp := h.todo who p (hsession ▸ hp)
  phase who p hp := h.phase who p (hsession ▸ hp)

/-- What a session inserts was not there before. -/
theorem OnlyNew.of_created (h : OnlyNew before s) (hjobs : insertJobs created s.jobs = some jobs)
    (hid : IsNew before created id) : before.jobs.find id = none := by
  refine hid.elim (fun hmem ↦ ?_) fun hnone ↦ hnone
  obtain ⟨entry, hentry, rfl⟩ := List.mem_map.mp hmem
  cases hfind : before.jobs.find entry.1 with
  | none => rfl
  | some job =>
    have hnone := (Publishing.insertJobs_created hjobs hentry).1
    exact absurd ((h.kept entry.1 job hfind).symm.trans hnone) (some_ne_none job)

theorem kept_write {jobs' : KeyedTable ℕ PublishingJob}
    (hkept : ∀ id job, before.jobs.find id = some job → jobs.find id = some job)
    (hid : before.jobs.find id = none) (hwrite : writeJob id base new jobs = some jobs') :
    ∀ id job, before.jobs.find id = some job → jobs'.find id = some job := by
  obtain ⟨stored, -, -, rfl⟩ := Publishing.writeJob_eq_some_iff.mp hwrite
  intro other job hjob
  have hother : other ≠ id := by
    rintro rfl
    exact absurd (hjob.symm.trans hid) (some_ne_none job)
  rw [find_modify_of_ne _ _ hother]
  exact hkept other job hjob

theorem OnlyNew.flush (h : OnlyNew before s)
    (hjobs : (insertJobs created s.jobs).bind (writeJob id base new) = some jobs)
    (hid : IsNew before created id) :
    (∀ id job, before.jobs.find id = some job → jobs.find id = some job) ∧
      ∀ other, IsNew before created other → before.jobs.find other = none := by
  obtain ⟨inserted, hinserted, hwrite⟩ := bind_eq_some_iff.mp hjobs
  refine ⟨kept_write (fun other job hjob ↦ ?_) (h.of_created hinserted hid) hwrite, fun _ ↦ h.of_created hinserted⟩
  exact Publishing.insertJobs_find hinserted (h.kept other job hjob)

/-- A step of the session. -/
theorem OnlyNew.apply (h : OnlyNew before s) (step : PublishStep) :
    OnlyNew before (s.apply env (now, step.op)) := by
  have heffect := PublishingState.apply_effect env s now step.op
  generalize s.apply env (now, step.op) = s' at heffect ⊢
  generalize hop : step.op = op at heffect
  cases heffect with
  | idle => exact h
  | closed who => exact h.close _
  | opened who accounts scheduledFor => exact h.proceed who (by simp) trivial
  | known who p account rest hsession => exact h.proceed who (h.todo who p hsession) (h.phase who p hsession)
  | created who p account rest hsession =>
    have hsub := subset_append_left p.created [(account.id, account.create p.scheduledFor)]
    refine h.proceed who (fun entry hentry ↦ ?_) ((h.phase who p hsession).mono hsub)
    dsimp only at hentry
    split_ifs at hentry
    · rcases mem_append.mp hentry with hold | hnew
      · exact (h.todo who p hsession entry hold).mono hsub
      · exact .inl (List.mem_map_of_mem (mem_append_right _ hnew))
    · exact (h.todo who p hsession entry hentry).mono hsub
  | claimed => cases step <;> exact absurd hop nofun
  | ended who p jobs hsession hjobs =>
    have hended : OnlyNew before { s with jobs := jobs } :=
      h.tables rfl fun id job hjob ↦ Publishing.insertJobs_find hjobs (h.kept id job hjob)
    exact hended.close who
  | deferred who retryAfterSeconds p id job rest jobs hsession haccounts hphase htodo hjobs =>
    have hnew := h.todo who p hsession
    rw [htodo] at hnew
    obtain ⟨hkept, hnone⟩ := h.flush hjobs (hnew _ mem_cons_self)
    have hwritten : OnlyNew before { s with jobs := jobs } := h.tables rfl hkept
    refine hwritten.proceed who (fun entry hentry ↦ ?_) ?_
    · exact .inr (hnone _ (hnew entry (mem_cons_of_mem _ hentry)))
    · rw [hphase]
      trivial
  | passed _ who p p' hsession hworker hcreated haccounts hscheduled htodo hphase =>
    refine h.proceed who (fun entry hentry ↦ ?_) (hphase ▸ trivial)
    rw [hcreated]
    rcases htodo with hsame | ⟨head, hcons⟩
    · exact h.todo who p hsession entry (hsame ▸ hentry)
    · exact h.todo who p hsession entry (hcons ▸ mem_cons_of_mem _ hentry)
  | looked who p id job rest hsession haccounts hphase htodo =>
    have hnew := h.todo who p hsession
    rw [htodo] at hnew
    exact h.proceed who (fun entry hentry ↦ hnew entry (mem_cons_of_mem _ hentry))
      (hnew _ mem_cons_self)
  | found who p id job hsession hphase =>
    have hnew := h.phase who p hsession
    rw [hphase] at hnew
    exact h.proceed who (h.todo who p hsession) hnew
  | prepared who p id job existing attempt jobs attempts hsession hphase hattempt hjobs =>
    have hnew := h.phase who p hsession
    rw [hphase] at hnew
    obtain ⟨hkept, hnone⟩ := h.flush hjobs hnew
    have hwritten : OnlyNew before
        { s with jobs := jobs, attempts := attempts, events := .prepared id :: s.events } :=
      h.tables rfl hkept
    refine hwritten.proceed who (fun entry hentry ↦ ?_) (hnone id hnew)
    exact .inr (hnone _ (h.todo who p hsession entry hentry))
  | called who p id job attempt hsession hphase =>
    have hnew := h.phase who p hsession
    rw [hphase] at hnew
    have hsent : OnlyNew before { s with calls := attempt.attemptKey :: s.calls } := h.tables rfl h.kept
    exact hsent.proceed who (h.todo who p hsession) hnew
  | finished who outcome p id job attempt sent jobs done s' hsession hphase hpossible hjobs hdone hafter =>
    have hnew := h.phase who p hsession
    rw [hphase] at hnew
    have hdoneNew : OnlyNew before done := h.tables (hdone ▸ rfl) (hdone ▸ kept_write h.kept hnew hjobs)
    rcases hafter with rfl | rfl
    · exact hdoneNew.close who
    · exact hdoneNew.proceed who (h.todo who p hsession) trivial
  | loaded _ who id job session hfree hjob haction =>
    refine h.update who fun p hp ↦ ?_
    rcases haction with ⟨rfl, -⟩ | ⟨rfl, -⟩ <;> exact absurd (Option.some.inj hp) nofun
  | checked who id quota job => exact h.update who fun p hp ↦ absurd (Option.some.inj hp) nofun
  | cancelled | retried => cases step <;> exact absurd hop nofun

/-- A call of `publish_now` leaves the jobs from before as they were, where it has committed as well. -/
theorem onlyNew_run (env : PublishingEnv) (script : PublishScript) (before : PublishingState) :
    OnlyNew before (script.run env before).1 ∧
      ∀ tables, (script.run env before).2 = some tables → OnlyNew before tables := by
  have hopened : OnlyNew before { before with session := fun _ ↦ none } :=
    ⟨fun _ _ hjob ↦ hjob, fun _ _ hp ↦ absurd hp nofun, fun _ _ hp ↦ absurd hp nofun⟩
  have hstart : OnlyNew before (PublishingState.apply env { before with session := fun _ ↦ none }
      (0, .publishNow 0 script.accounts script.scheduledFor)) :=
    hopened.proceed 0 (by simp) trivial
  unfold PublishScript.run
  refine foldlRecOn (motive := fun acc : PublishingState × Option PublishingState ↦
    OnlyNew before acc.1 ∧ ∀ tables, acc.2 = some tables → OnlyNew before tables) _ _
    ⟨hstart, fun _ htables ↦ absurd htables (some_ne_none _).symm⟩ ?_
  rintro acc ⟨hseen, hcommitted⟩ step -
  have hafter : OnlyNew before (acc.1.apply env (step.1, step.2.op)) := hseen.apply step.2
  refine ⟨hafter, fun tables htables ↦ ?_⟩
  dsimp only at htables
  split_ifs at htables
  · exact Option.some.inj htables ▸ hafter
  · exact hcommitted tables htables

theorem kept_flushCreated (h : OnlyNew before s) :
    ∀ id job, before.jobs.find id = some job → (flushCreated s).jobs.find id = some job := by
  unfold flushCreated
  split
  · rename_i publisher hsession
    cases hjobs : insertJobs publisher.created s.jobs with
    | none => exact h.kept
    | some jobs => exact fun id job hjob ↦ Publishing.insertJobs_find hjobs (h.kept id job hjob)
  · exact h.kept

end Publishing

/-! ### What a tenant has -/

/-- The requests, the publishing jobs and the workflow runs of a tenant. -/
structure TenantView where
  requests : ℕ → Option ApprovalRequest
  jobs : ℕ → Option PublishingJob
  runs : ℕ → Option TenantRun

def Database.jobsOf (db : Database τ) (tenantId : String) (id : ℕ) : Option PublishingJob :=
  (db.publishing.jobs.find id).filter fun _ ↦ db.jobTenant id = tenantId

def Database.runsOf (db : Database τ) (tenantId : String) (id : ℕ) : Option TenantRun :=
  (db.runs.find id).filter fun run ↦ run.tenantId = tenantId

def Db.ofTenant (db : Db (Database τ)) (tenantId : String) : TenantView where
  requests id := (db.requests.find id).filter fun request ↦ request.tenantId = tenantId
  jobs := db.rest.jobsOf tenantId
  runs := db.rest.runsOf tenantId

/-- A service leaves the publishing jobs and the runs of a tenant as they are, and deletes no content. -/
structure Spares (tenantId : String) (db db' : Database τ) : Prop where
  jobs : db'.jobsOf tenantId = db.jobsOf tenantId
  runs : db'.runsOf tenantId = db.runsOf tenantId
  contentJobs : ∀ job, (db.contentJobs.find job).isSome → (db'.contentJobs.find job).isSome

/-- A call spares a tenant, at its end and where it has committed. -/
structure Reply.Spares {α : Type} (tenantId : String) (db : Database τ) (reply : Reply (Database τ) α) :
    Prop where
  rest : Approvals.Spares tenantId db reply.rest
  committed : ∀ db', reply.committed = some db' → Approvals.Spares tenantId db db'

/-- What the platform does for a tenant spares every other one, and regenerated content is new. -/
structure SparesTenant (p : Platform (Database τ)) (tenantId : String) : Prop where
  recordPreference : ∀ other job outcome db, Spares tenantId db (p.recordPreference other job outcome db)
  markJobClusterState : ∀ other job state db, Spares tenantId db (p.markJobClusterState other job state db)
  regenerate : ∀ other job feedback channel db,
    (p.regenerateWithFeedback other job feedback channel db).Spares tenantId db
  fresh : ∀ other job feedback channel db revised,
    (p.regenerateWithFeedback other job feedback channel db).result = .ok revised →
      db.contentJobs.find revised = none
  publishNow : ∀ other, other ≠ tenantId → ∀ request db, (p.publishNow other request db).Spares tenantId db
  resume : ∀ other, other ≠ tenantId → ∀ token outcome decision db,
    (p.resumeWaitingNode other token outcome decision db).Spares tenantId db

section Services

variable {services : Services τ} {base : Platform (Database τ)} {now : Time} {tenantId other : String}
  {db : Database τ}

theorem Spares.refl (tenantId : String) (db : Database τ) : Spares tenantId db db := ⟨rfl, rfl, fun _ h ↦ h⟩

/-- What the services write elsewhere. -/
theorem spares_others (tenantId : String) (db : Database τ) (others : τ) :
    Spares tenantId db { db with others := others } := ⟨rfl, rfl, fun _ h ↦ h⟩

/-- A call that changes nothing. -/
theorem Reply.spares_refl {α : Type} (tenantId : String) (db : Database τ) (result : Except PyException α) :
    ({ result := result, rest := db } : Reply (Database τ) α).Spares tenantId db :=
  ⟨.refl tenantId db, nofun⟩

theorem spares_publish (hother : other ≠ tenantId) {tables : PublishingState}
    (hkept : ∀ id job, db.publishing.jobs.find id = some job → tables.jobs.find id = some job) :
    Spares tenantId db (db.publish other tables) where
  jobs := by
    funext id
    unfold Database.jobsOf Database.publish
    dsimp only
    rcases eq_none_or_eq_some (db.publishing.jobs.find id) with hjob | ⟨job, hjob⟩
    · simp only [hjob, isSome_none, Bool.false_eq_true, if_false, filter_none, hother,
        decide_false]
      exact filter_eq_none_iff.mpr fun _ _ ↦ Bool.false_ne_true
    · simp only [hjob, hkept id job hjob, isSome_some, if_true]
  runs := rfl
  contentJobs _ h := h

theorem spares_publishNow (hother : other ≠ tenantId) (request : PublishNowRequest) :
    (publishNow services other request db).Spares tenantId db := by
  unfold publishNow
  cases services.publishScript other request db with
  | error exc => exact Reply.spares_refl tenantId db _
  | ok script =>
    obtain ⟨hseen, hcommitted⟩ := onlyNew_run services.publishingEnv script db.publishing
    refine ⟨spares_publish hother (kept_flushCreated hseen), fun db' hdb' ↦ ?_⟩
    obtain ⟨tables, htables, rfl⟩ := map_eq_some_iff.mp hdb'
    exact spares_publish hother (hcommitted tables htables).kept

/-- The id of the next content job is new. -/
theorem find_nextContentJob (db : Database τ) : db.contentJobs.find db.nextContentJob = none := by
  rw [find_eq_none_iff]
  intro hmem
  exact absurd (le_foldr_max _ hmem) (Nat.not_succ_le_self _)

theorem spares_prepared (tenantId : String) (db : Database τ) (other : String) (others : τ) :
    Spares tenantId db
      { db with contentJobs := db.contentJobs.insertNew db.nextContentJob other, others := others } where
  jobs := rfl
  runs := rfl
  contentJobs job hjob := by
    have hne : job ≠ db.nextContentJob := by
      rintro rfl
      rw [find_nextContentJob] at hjob
      exact absurd hjob Bool.false_ne_true
    dsimp only
    rwa [find_insertNew_of_ne _ _ hne]

theorem spares_regenerate (job : ℕ) (feedback channel : String) :
    (regenerateWithFeedback services other job feedback channel db).Spares tenantId db := by
  unfold regenerateWithFeedback
  by_cases hjob : db.contentJobs.find job = some other
  · rw [if_pos hjob]
    cases services.generate other job feedback channel db with
    | refused exc others => exact ⟨spares_others tenantId db others, fun _ h ↦ by cases h⟩
    | prepared committed error others =>
      refine ⟨spares_prepared tenantId db other others, fun db' hdb' ↦ ?_⟩
      exact Option.some.inj hdb' ▸ spares_prepared tenantId db other committed
  · rw [if_neg hjob]
    exact Reply.spares_refl tenantId db _

theorem fresh_regenerate {job : ℕ} {channel : String} {revised : ℕ}
    (h : (regenerateWithFeedback services other job feedback channel db).result = .ok revised) :
    db.contentJobs.find revised = none := by
  unfold regenerateWithFeedback at h
  by_cases hjob : db.contentJobs.find job = some other
  · rw [if_pos hjob] at h
    cases hgenerate : services.generate other job feedback channel db with
    | refused exc others =>
      rw [hgenerate] at h
      cases h
    | prepared committed error others =>
      rw [hgenerate] at h
      cases error with
      | some exc => cases h
      | none => exact Except.ok.inj h ▸ find_nextContentJob db
  · rw [if_neg hjob] at h
    cases h

theorem spares_resume (hother : other ≠ tenantId) (text outcome : String) (decision : JsonObject) :
    (resumeWaitingNode services now other text outcome decision db).Spares tenantId db := by
  unfold resumeWaitingNode
  cases hfound : db.runOfToken services other text with
  | none => exact Reply.spares_refl tenantId db _
  | some node =>
    obtain ⟨runId, token, run⟩ := node
    dsimp only
    cases hresume : run.resume now token outcome decision with
    | error exc => exact Reply.spares_refl tenantId db _
    | ok resumed =>
      refine ⟨⟨rfl, ?_, fun _ h ↦ h⟩, nofun⟩
      obtain ⟨node, -, hnode⟩ := bind_eq_some_iff.mp hfound
      obtain ⟨found, hrun, heq⟩ := map_eq_some_iff.mp hnode
      obtain ⟨rfl, -, rfl⟩ : node.1 = runId ∧ node.2 = token ∧ found = run := by
        simpa only [Prod.mk.injEq] using heq
      obtain ⟨hrun, htenant⟩ := filter_eq_some_iff.mp hrun
      have htenant : found.tenantId = other := of_decide_eq_true htenant
      have hsame : resumed.tenantId = other := (TenantRun.resume_eq_ok hresume).2.1.trans htenant
      funext id
      unfold Database.runsOf
      dsimp only
      by_cases hid : id = node.1
      · rw [hid, find_modify_self, hrun, map_some, filter_some,
          filter_some, hsame, htenant]
        simp only [hother, decide_false, Bool.false_eq_true, if_false]
      · rw [find_modify_of_ne _ _ hid]

theorem databasePlatform_spares (services : Services τ) (base : Platform (Database τ)) (now : Time)
    (tenantId : String) : SparesTenant (databasePlatform services base now) tenantId where
  recordPreference _ _ _ db := by
    rw [databasePlatform_recordPreference]
    exact spares_others tenantId db _
  markJobClusterState _ _ _ db := by
    rw [databasePlatform_markJobClusterState]
    exact spares_others tenantId db _
  regenerate _ job feedback channel _ := by
    rw [databasePlatform_regenerate]
    exact spares_regenerate job feedback channel
  fresh _ _ _ _ _ _ h := by
    rw [databasePlatform_regenerate] at h
    exact fresh_regenerate h
  publishNow _ hother request _ := by
    rw [databasePlatform_publishNow]
    exact spares_publishNow hother request
  resume _ hother token outcome decision _ := by
    rw [databasePlatform_resume]
    exact spares_resume hother token outcome decision

end Services

/-! ### The handlers -/

/-- The tenant has what it had, and the content of its requests is there. -/
structure Spared (tenantId : String) (view : TenantView) (db : Db (Database τ)) : Prop where
  same : db.ofTenant tenantId = view
  contentJobs : ∀ id request job, view.requests id = some request → request.contentJobId = some job →
    (db.rest.contentJobs.find job).isSome

def SparedIn (tenantId : String) (view : TenantView) (w : World (Database τ)) : Prop :=
  Spared tenantId view w.db ∧ Spared tenantId view w.stored

section Handlers

variable {p : Platform (Database τ)} {now : Time} {tenantId other : String} {view : TenantView}
  {db : Db (Database τ)} {w : World (Database τ)}

theorem Spared.find_requests (h : Spared tenantId view db) (id : ℕ) :
    (db.requests.find id).filter (fun request ↦ request.tenantId = tenantId) = view.requests id :=
  congrFun (congrArg TenantView.requests h.same) id

variable {row : ApprovalRequest} {job : ℕ}

/-- The requests of the tenant are in the table. -/
theorem Spared.find_of_view (h : Spared tenantId view db)
    (hrow : view.requests id = some row) : db.requests.find id = some row :=
  (filter_eq_some_iff.mp ((h.find_requests id).trans hrow)).1

theorem Spared.tenant_ne (h : Spared tenantId view db) (hid : view.requests id = none)
    (hrow : db.requests.find id = some row) : row.tenantId ≠ tenantId := by
  have hnone := (h.find_requests id).trans hid
  rw [hrow, filter_some] at hnone
  intro htenant
  rw [if_pos (decide_eq_true htenant)] at hnone
  exact absurd hnone (some_ne_none row)

theorem Spared.rest (h : Spared tenantId view db) {rest : Database τ} (hspares : Spares tenantId db.rest rest) :
    Spared tenantId view { db with rest := rest } where
  same := by
    rw [← h.same]
    unfold Db.ofTenant
    rw [hspares.jobs, hspares.runs]
  contentJobs id request job hrequest hjob := hspares.contentJobs job (h.contentJobs id request job hrequest hjob)

/-- Other requests are written. -/
theorem Spared.requests (h : Spared tenantId view db) {requests : KeyedTable ℕ ApprovalRequest}
    (hrequests : ∀ id, (requests.find id).filter (fun request ↦ request.tenantId = tenantId) =
      view.requests id) : Spared tenantId view { db with requests := requests } where
  same := by
    rw [← h.same]
    unfold Db.ofTenant
    congr 1
    funext id
    exact (hrequests id).trans (h.find_requests id).symm
  contentJobs := h.contentJobs

theorem Spared.update (h : Spared tenantId view db) (hid : view.requests id = none)
    (hf : ∀ row, (f row).tenantId = row.tenantId) :
    Spared tenantId view { db with requests := db.requests.modify id f } := by
  refine h.requests fun found ↦ ?_
  by_cases hfound : found = id
  · rw [hfound, find_modify_self, hid]
    refine filter_eq_none_iff.mpr fun row hrow ↦ ?_
    obtain ⟨old, hold, rfl⟩ := map_eq_some_iff.mp hrow
    rw [hf]
    exact fun htenant ↦ h.tenant_ne hid hold (of_decide_eq_true htenant)
  · rw [find_modify_of_ne _ _ hfound]
    exact h.find_requests found

theorem SparedIn.request_ne (h : SparedIn tenantId view w) (hid : view.requests id = none)
    (hrow : w.request id = some row) : row.tenantId ≠ tenantId := h.1.tenant_ne hid hrow

theorem SparedIn.create (h : SparedIn tenantId view w) (hrow : row.tenantId ≠ tenantId) :
    SparedIn tenantId view (w.create row) ∧ view.requests w.nextId = none := by
  have hfree : w.db.requests.find w.nextId = none := request_nextId w
  have hnone : view.requests w.nextId = none := by
    rw [← h.1.find_requests, hfree, filter_none]
  refine ⟨⟨h.1.requests fun found ↦ ?_, h.2⟩, hnone⟩
  by_cases hfound : found = w.nextId
  · rw [hfound, find_insertNew_self _ _ hfree, filter_some, hnone,
      if_neg fun h ↦ hrow (of_decide_eq_true h)]
  · rw [find_insertNew_of_ne _ _ hfound]
    exact h.1.find_requests found

theorem keeps_spared_update (hid : view.requests id = none)
    (hf : ∀ row, (f row).tenantId = row.tenantId) :
    Keeps (SparedIn (τ := τ) tenantId view) (updateRequest id f) := fun _ hw ↦ ⟨hw.1.update hid hf, hw.2⟩

theorem keeps_spared_touch {f : Database τ → Database τ} (hf : ∀ db, Spares tenantId db (f db)) :
    Keeps (SparedIn tenantId view) (touch f) := fun _ hw ↦ ⟨hw.1.rest (hf _), hw.2⟩

theorem keeps_spared_call {α : Type} {f : Database τ → Reply (Database τ) α}
    (hf : ∀ db, (f db).Spares tenantId db) : Keeps (SparedIn tenantId view) (call f) := by
  intro w hw
  have hreply := hf w.db.rest
  refine ⟨hw.1.rest hreply.rest, ?_⟩
  change Spared tenantId view (w.after (f w.db.rest)).stored
  unfold World.after
  cases hcommitted : (f w.db.rest).committed with
  | none => exact hw.2
  | some db' => exact hw.1.rest (hreply.committed db' hcommitted)

theorem keeps_spared_commit : Keeps (SparedIn (τ := τ) tenantId view) commit := fun _ hw ↦ ⟨hw.1, hw.1⟩

theorem Spared.inbox (h : Spared tenantId view db) (inbox : KeyedTable ℕ WebhookInbox) :
    Spared tenantId view { db with inbox := inbox } := ⟨h.same, h.contentJobs⟩

theorem keeps_spared_updateInbox (inboxId : ℕ) (f : WebhookInbox → WebhookInbox) :
    Keeps (SparedIn (τ := τ) tenantId view) (updateInbox inboxId f) := fun _ hw ↦ ⟨hw.1.inbox _, hw.2⟩

theorem triple_createOrRefresh_spared (hother : other ≠ tenantId)
    (hjob : ∀ id row, view.requests id = some row → row.contentJobId ≠ some job)
    {recipient approvalType : String} {relatedEntityType relatedEntityId : Option String} {expiresAt : Time} :
    Triple (SparedIn (τ := τ) tenantId view)
      (createOrRefreshRequest other (some job) recipient approvalType relatedEntityType relatedEntityId expiresAt)
      (fun id w ↦ SparedIn tenantId view w ∧ view.requests id = none) (SparedIn tenantId view) := by
  refine triple_read_bind fun w hw ↦ ?_
  have hfresh : ∀ id, w.requestToRefresh other (some job) approvalType relatedEntityType relatedEntityId =
      some id → view.requests id = none := by
    intro id hfound
    obtain ⟨row, hrow, hrowJob⟩ := exists_of_requestForContentJob hfound
    cases hview : view.requests id with
    | none => rfl
    | some row' =>
      obtain rfl : row' = row := mem_unique (hw.1.find_of_view hview) hrow
      exact absurd hrowJob (hjob id row' hview)
  cases hfound : w.requestToRefresh other (some job) approvalType relatedEntityType relatedEntityId with
  | some id =>
    have hid := hfresh id hfound
    refine triple_bind (m := fun _ ↦ SparedIn tenantId view) (Keeps.triple (keeps_spared_update hid ?_))
      fun _ ↦ triple_pure fun w hw ↦ ⟨hw, hid⟩
    exact fun _ ↦ rfl
  | none =>
    refine triple_read_bind fun w hw ↦ ?_
    have hcreated : ∀ w' : World (Database τ), SparedIn tenantId view w' →
        SparedIn tenantId view (w'.create
          { tenantId := other, contentJobId := some job, recipient := recipient, approvalType := approvalType,
            relatedEntityType := relatedEntityType, relatedEntityId := relatedEntityId
            expiresAt := some expiresAt }) := fun _ hw' ↦ (hw'.create hother).1
    have hid : view.requests w.nextId = none := by
      rw [← hw.1.find_requests, show w.db.requests.find w.nextId = none from request_nextId w,
        filter_none]
    exact triple_bind (m := fun _ ↦ SparedIn tenantId view) (triple_modify hcreated) fun _ ↦
      triple_pure fun w hw ↦ ⟨hw, hid⟩

/-- Sending new content for another tenant. -/
theorem keeps_spared_sendForApproval (hp : SparesTenant p tenantId) (hother : other ≠ tenantId)
    (hjob : ∀ id row, view.requests id = some row → row.contentJobId ≠ some job)
    {recipient : Option String} {channels : List String} {deliver : Bool} :
    Keeps (SparedIn tenantId view) (sendForApproval p now other job recipient channels deliver) := by
  refine keeps_bind (keeps_readOr _) fun configured ↦ keeps_ite (fun _ ↦ keeps_raise _) fun _ ↦ ?_
  refine keeps_read_bind fun w _ ↦ ?_
  cases p.groundingBundle other job w.db.rest with
  | none => exact keeps_raise _
  | some grounding =>
    refine keeps_ite (fun _ ↦ keeps_raise _) fun _ ↦ keeps_read_bind fun _ _ ↦ Triple.keeps ?_
    refine triple_bind (triple_createOrRefresh_spared hother hjob) fun sent ↦ triple_of_pure fun hsent ↦
      Keeps.triple ?_
    have hdeliver : Keeps (SparedIn tenantId view) (deliverAll p other sent job
        (normalizedChannels (if channels = [] then ["telegram", "whatsapp"] else channels))) :=
      keeps_deliverAll_of (fun _ ↦ keeps_spared_update hsent fun _ ↦ rfl) other job _
    refine keeps_bind (keeps_ite (fun _ ↦ hdeliver) fun _ ↦ keeps_pure ()) fun _ ↦ ?_
    exact keeps_bind (keeps_spared_update hsent fun _ ↦ rfl) fun _ ↦
      keeps_bind (keeps_spared_touch fun db ↦ hp.markJobClusterState _ _ _ db) fun _ ↦ keeps_pure _

theorem stampWorkflowBinding_tenantId (binding : Option JsonObject) (row : ApprovalRequest) :
    (stampWorkflowBinding binding row).tenantId = row.tenantId := by
  unfold stampWorkflowBinding
  cases binding.filter (· ≠ []) <;> rfl

/-- A revision of a request of another tenant. -/
theorem keeps_spared_reviseContent (hp : SparesTenant p tenantId) (hid : view.requests id = none)
    {request : ApprovalRequest} (hother : request.tenantId ≠ tenantId) :
    Keeps (SparedIn tenantId view) (reviseContent p now id feedback request job) := by
  have hstamp : ∀ binding, Keeps (SparedIn (τ := τ) tenantId view)
      (updateRequest id (stampWorkflowBinding binding)) := fun binding ↦
    keeps_spared_update hid (stampWorkflowBinding_tenantId binding)
  refine keeps_bind (keeps_spared_touch fun db ↦ hp.recordPreference _ _ _ db) fun _ ↦
    keeps_call_bind_of (keeps_spared_call fun db ↦ hp.regenerate _ _ _ _ db) fun w revised hw hrevised ↦ ?_
  have hjob : ∀ id row, view.requests id = some row → row.contentJobId ≠ some revised := by
    intro id row hrow hrowJob
    have hsome := hw.1.contentJobs id row revised hrow hrowJob
    rw [hp.fresh _ _ _ _ _ _ hrevised] at hsome
    exact absurd hsome Bool.false_ne_true
  have hsend : ∀ channels : List String, Keeps (SparedIn tenantId view) (do
      let _ ← sendForApproval p now request.tenantId revised (some request.recipient) channels true
      updateRequest id (stampWorkflowBinding (getWorkflowBinding request))) := fun channels ↦
    keeps_bind (keeps_spared_sendForApproval hp hother hjob) fun _ ↦ hstamp _
  refine keeps_bind (keeps_spared_update hid fun _ ↦ stampWorkflowBinding_tenantId _ _) fun _ ↦ ?_
  cases (getWorkflowBinding request).map bindingChannels with
  | none => exact hsend _
  | some channels =>
    cases channels with
    | none => exact keeps_raise _
    | some items => exact hsend _

/-- A decision on a request of another tenant. -/
theorem keeps_spared_applyIntent (hp : SparesTenant p tenantId) (hid : view.requests id = none)
    {intent : String} {feedback : Option String} :
    Keeps (SparedIn tenantId view) (applyIntent p now id intent feedback) := by
  have hset : ∀ status, Keeps (SparedIn (τ := τ) tenantId view) (setStatus id status) := fun _ ↦
    keeps_spared_update hid fun _ ↦ rfl
  have htouch : ∀ outcome other job,
      Keeps (SparedIn tenantId view) (touch (p.recordPreference other job outcome)) := fun outcome other job ↦
    keeps_spared_touch fun db ↦ hp.recordPreference other job outcome db
  have hnote : ∀ entry, Keeps (SparedIn (τ := τ) tenantId view) (note entry) := fun _ _ hw ↦ hw
  refine keeps_applyIntent_of ?_ (fun text ↦ ?_) ?_ ?_
  · exact keeps_applyApprove_of (hset _) (htouch "approve") fun w request published hw hrequest ↦
      keeps_bind (hnote _) fun _ ↦ keeps_bind (keeps_spared_call fun db ↦
        hp.publishNow _ (hw.request_ne hid hrequest) published db) fun _ ↦ hnote _
  · exact keeps_applyRevise_of (hset _) (keeps_spared_update hid fun _ ↦ rfl) fun w request job hw hrequest ↦
      keeps_spared_reviseContent hp hid (hw.request_ne hid hrequest)
  · exact keeps_applyReject_of (hset _) (htouch "reject")
  · exact keeps_maybeResume_of fun w request token outcome decision hw hrequest ↦
      keeps_bind (hnote _) fun _ ↦ keeps_bind (keeps_spared_call fun db ↦
        hp.resume _ (hw.request_ne hid hrequest) token outcome decision db) fun _ ↦ hnote _

end Handlers

/-! ### Deliveries -/

/-- A delivery of the WhatsApp webhook, or the processing of a stored one whose messages name no request of
the tenant. -/
def NamesNone (p : Platform (Database τ)) (tenantId : String) (w : World (Database τ)) : InboundMessage → Prop
  | .whatsappWebhook _ => True
  | .whatsappInbox inboxId => ∀ message ∈ inboxMessages p inboxId w, ∀ id request,
    messageRequest p message = some id → w.request id = some request → request.tenantId ≠ tenantId
  | _ => False

section Deliveries

variable {p : Platform (Database τ)} {now : Time} {tenantId : String} {view : TenantView}
  {w : World (Database τ)}

/-- The handler of a delivery. -/
theorem triple_delivery (hp : SparesTenant p tenantId) (hw : SparedIn tenantId view w)
    (hnone : NamesNone p tenantId w message) :
    Triple (fun s ↦ s = w) (message.handler p now) (fun _ ↦ SparedIn tenantId view) (SparedIn tenantId view) := by
  cases message with
  | telegramCallback data cbChatId | telegramMessage chatId text => exact hnone.elim
  | whatsappWebhook raw =>
    refine Triple.mono (Keeps.triple (keeps_bind (keeps_readOr _) fun other ↦ keeps_bind (keeps_modify ?_) fun _ ↦
      keeps_spared_commit)) (at_state hw) (fun _ _ h ↦ h) fun _ h ↦ h
    intro s hs
    split_ifs
    · exact hs
    · exact ⟨hs.1.inbox _, hs.2⟩
  | whatsappInbox inboxId =>
    refine triple_processWebhookInbox_of hw keeps_spared_commit (keeps_spared_updateInbox inboxId)
      fun message w₁ hturn ↦ keeps_applyMessage_of (fun id hid ↦ keeps_spared_applyIntent hp ?_) w₁
    rw [← hw.1.find_requests]
    refine filter_eq_none_iff.mpr fun request hrequest htenant ↦ ?_
    exact hnone message hturn.mem id request hid hrequest (of_decide_eq_true htenant)

/-- One delivery in its transaction. -/
theorem Spared.apply (hp : SparesTenant p tenantId) (hw : Spared tenantId view w.stored)
    (hnone : NamesNone p tenantId w.opened message) :
    Spared tenantId view (apply p w (now, message)).stored := by
  have hopened : SparedIn tenantId view w.opened := ⟨hw, hw⟩
  have hdelivered : Triple (fun s ↦ s = w.opened) (message.handler p now) (fun _ ↦ SparedIn tenantId view)
      (SparedIn tenantId view) := triple_delivery hp hopened hnone
  have hhandled := hdelivered.state rfl
  change Spared tenantId view ((transaction (message.handler p now)).final w.opened).stored
  unfold Action.final Approvals.transaction
  cases hresult : message.handler p now w.opened with
  | mk result w' =>
    rw [hresult] at hhandled
    cases result with
    | ok u => exact hhandled.1
    | error exc => exact hhandled.2

end Deliveries

/-- A tenant has what it had through every run of WhatsApp deliveries that name none of its requests. -/
theorem tenant_untouched (services : Services τ) (base : Platform (Database τ)) (tenantId : String)
    (w : World (Database τ)) (messages : List (Time × InboundMessage))
    (hcontent : ∀ id request job, w.stored.requests.find id = some request →
      request.contentJobId = some job → (w.stored.rest.contentJobs.find job).isSome)
    (hmessages : Along
      (fun w message ↦ apply (databasePlatform services base message.1) w message)
      (fun w message ↦ NamesNone (databasePlatform services base message.1) tenantId w.opened message.2)
      messages w) :
    Along (fun w message ↦ apply (databasePlatform services base message.1) w message)
      (fun s message ↦
        (apply (databasePlatform services base message.1) s message).stored.ofTenant tenantId =
          w.stored.ofTenant tenantId) messages w := by
  have hstart : Spared tenantId (w.stored.ofTenant tenantId) w.stored :=
    ⟨rfl, fun id request job hrequest hjob ↦
      hcontent id request job (filter_eq_some_iff.mp hrequest).1 hjob⟩
  have hstep : ∀ (s : World (Database τ)) (message : Time × InboundMessage),
      Spared tenantId (w.stored.ofTenant tenantId) s.stored →
      NamesNone (databasePlatform services base message.1) tenantId s.opened message.2 →
      Spared tenantId (w.stored.ofTenant tenantId)
        (apply (databasePlatform services base message.1) s message).stored :=
    fun s message hs hnone ↦ hs.apply (databasePlatform_spares services base message.1 tenantId) hnone
  exact hmessages.mono_invariant hstep (fun s message hs hnone ↦ (hstep s message hs hnone).same) hstart

/-! ### Two tenants -/

/-- A request of the tenant `other`, whose workflow waits for it, a request of the tenant `tenant`, and a
delivery stored for the latter. -/
def twoTenants : World (Database Unit) :=
  let binding := buildWorkflowBinding (some "run") (some "row") (some "a") (some "token") "stop" true []
  let db : Db (Database Unit) :=
    { requests := (single 1
        { tenantId := "other", recipient := "recipient",
          responsePayloadJson := [("workflow", .obj binding)] }).insertNew 2
        { tenantId := "tenant", recipient := "recipient" }
      inbox := .single 1 { tenantId := some "tenant", dedupeKey := "raw", raw := "raw" }
      rest :=
        { runs := .single 7
            { tenantId := "other", env := catalogueEnv approvalGraph repairedGlobals
              state := pausedApproval, waitTokens := waitTokens_pausedApproval }
          others := () } }
  { db := db, stored := db }

/-- The tables after the delivery has been processed, when its message approves a request. -/
def afterApproval (text : String) : Db (Database Unit) :=
  (apply
    (databasePlatform idleServices (mockPlatform [{ rawText := text, intent := "approve" }]) 5) twoTenants
    (5, .whatsappInbox 1)).stored

/-- The delivery decides the request of the other tenant and resumes its workflow. -/
theorem delivery_changes_other_tenant :
    (twoTenants.stored.inbox.find 1).map WebhookInbox.tenantId = some (some "tenant") ∧
      ((twoTenants.stored.ofTenant "other").requests 1).map ApprovalRequest.status = some .pending ∧
      (((afterApproval "APPROVE 1").ofTenant "other").requests 1).map ApprovalRequest.status =
        some .approved ∧
      (((twoTenants.stored.ofTenant "other").runs 7).bind fun run ↦
        (run.state.nodes.find ⟨"a", ""⟩).map NodeRun.status) = some .waiting ∧
      (((afterApproval "APPROVE 1").ofTenant "other").runs 7).bind (fun run ↦
        (run.state.nodes.find ⟨"a", ""⟩).map NodeRun.status) = some .succeeded := by
  refine ⟨by decide +kernel, by decide +kernel, by decide +kernel, by decide +kernel, by decide +kernel⟩

/-- A delivery that approves the request of its own tenant. -/
theorem delivery_spares_other_tenant :
    (afterApproval "APPROVE 2").ofTenant "other" = twoTenants.stored.ofTenant "other" := by
  refine (tenant_untouched idleServices (mockPlatform [{ rawText := "APPROVE 2", intent := "approve" }]) "other"
    twoTenants [(5, .whatsappInbox 1)] ?_ ⟨?_, trivial⟩).1
  · intro id request job hrequest hjob
    have hcontents : ∀ entry ∈ twoTenants.stored.requests.entries, entry.2.contentJobId = none := by
      decide +kernel
    have hnone := hcontents _ ((find_eq_some_iff _ _ _).mp hrequest)
    exact absurd (hjob.symm.trans hnone) (some_ne_none job)
  · intro message hmessage id request hid hrequest
    obtain rfl := mem_singleton.mp hmessage
    obtain rfl : 2 = id := Option.some.inj hid
    obtain rfl : { tenantId := "tenant", recipient := "recipient" } = request := Option.some.inj hrequest
    decide

end ContentGenerator.Approvals

import ContentGenerator.ContentGeneration.Generation

/-!
# Which content jobs are closed

A content job is to be COMPLETED or FAILED once its caller is done, and FAILED with a message when anything has
raised. The generation closes it as COMPLETED on the straight path, and as FAILED when the reviewer rejects a
risky story; every other exception leaves it as the last commit has it, which is RUNNING. The rejection is in a
transaction that the task rolls back and the node commits.

`content_job_closed_iff` is the exact condition.
-/

namespace ContentGenerator.ContentGeneration

open Lib Lib.Action List Option Failure

variable {cluster : StoryCluster} {commitError error : Option String} {outcome : Option Failure}
  {status : ContentJobStatus} {result : OrchestrationResult} {script : GenerationScript}
  {s : GenerationSession}

/-- The job is closed, and as FAILED with a message when something has raised. -/
def Closed (result : Except Failure Unit) (job : ContentJob) : Prop :=
  (job.status = .completed ∨ job.status = .failed) ∧
    ∀ failure, result = .error failure →
      job.status = .failed ∧ ∃ message, job.errorMessage = some message ∧ message ≠ ""

/-! ### Conditions on the answers -/

/-- One of the lookups whose exceptions are ignored fails in the database. -/
def GenerationScript.lookupsBreak (script : GenerationScript) : Bool :=
  script.bestTone.any isDatabase || script.brandProfile.any isDatabase

/-- The calls up to the verdict of the reviewer go through. -/
structure GenerationScript.ReachesReview (script : GenerationScript) (result : OrchestrationResult) : Prop where
  sourceArticles : script.sourceArticles = none
  lookups : script.lookupsBreak = false
  llmFlush : script.llmFlush = none
  orchestrator : script.orchestrator = .ok result

/-- All calls of `generate_content` after its first commit go through, and the reviewer does not reject. -/
structure GenerationScript.GoesThrough (script : GenerationScript) (result : OrchestrationResult)
    (package : GeneratedPackage) : Prop where
  review : script.ReachesReview result
  accepted : ∀ cluster, script.cluster = some cluster → rejects cluster result = false
  package : script.package = .ok package
  createAssets : script.createAssets = none
  persistCommit : script.persistCommit = none
  imageTask : script.imageTask = none
  ttsTask : script.ttsTask = none
  videoPipeline : ∀ plan, script.plan = some plan → plan.makesVideo → script.videoPipeline = none
  auditRecord : script.auditRecord = none
  finalizeFlush : script.finalizeFlush = none

/-- The reviewer rejects the draft, and the flush of the rejection goes through. -/
structure GenerationScript.Rejected (script : GenerationScript) (result : OrchestrationResult) : Prop where
  review : script.ReachesReview result
  rejected : ∀ cluster, script.cluster = some cluster → rejects cluster result
  rejectionFlush : script.rejectionFlush = none

/-- The calls that the caller makes itself go through. -/
def Entry.GoesThrough : Entry → Prop
  | .task _ commitError => commitError = none
  | .node canonicalText stampFlush assetGroup _ =>
    ∃ text, canonicalText = .ok text ∧ (text ≠ "" → stampFlush = none) ∧ assetGroup = none

/-- The caller is the node, which commits what the generation leaves in the session. -/
def Entry.isNode : Entry → Prop
  | .task .. => False
  | .node .. => True

/-! ### Calls -/

section Calls

variable {P : GenerationSession → Prop} {err : GenerationSession → Prop}

theorem triple_call
    (h : ∀ failure s, outcome = some failure → P s → err { s with broken := s.broken || failure.isDatabase }) :
    Triple P (call outcome) (fun _ s ↦ P s ∧ outcome = none) err := by
  cases outcome with
  | none => exact triple_pure fun s hs ↦ ⟨hs, rfl⟩
  | some failure => exact fun s hs ↦ h failure s rfl hs

theorem triple_answer {α : Type} {outcome : Except Failure α}
    (h : ∀ failure s, outcome = .error failure → P s → err { s with broken := s.broken || failure.isDatabase }) :
    Triple P (answer outcome) (fun value s ↦ P s ∧ outcome = .ok value) err := by
  cases outcome with
  | ok value => exact triple_pure fun s hs ↦ ⟨hs, rfl⟩
  | error failure => exact fun s hs ↦ h failure s rfl hs

theorem triple_ensure {condition : Prop} [Decidable condition] {failure : Failure}
    (h : ∀ s, P s → ¬ condition → err s) :
    Triple P (ensure condition failure) (fun _ s ↦ P s ∧ condition) err := by
  refine triple_ite (fun hcondition ↦ triple_pure fun s hs ↦ ⟨hs, hcondition⟩) fun hcondition ↦ ?_
  exact triple_raise fun s hs ↦ h s hs hcondition

/-- A statement goes through in a session that is in order. -/
theorem triple_statement
    (h : ∀ s, P s → error ≠ none ∨ s.broken = true → err { s with broken := true }) :
    Triple P (statement error) (fun _ s ↦ (P s ∧ s.broken = false) ∧ error = none) err := by
  refine triple_read_bind_eq fun s hs ↦ ?_
  cases hbroken : s.broken with
  | true =>
    refine triple_raise (at_state ?_)
    have hsame : { s with broken := true } = s := by
      cases s
      cases hbroken
      rfl
    exact hsame ▸ h s hs (.inr hbroken)
  | false =>
    cases error with
    | none => exact triple_pure (at_state ⟨⟨hs, hbroken⟩, rfl⟩)
    | some text =>
      refine at_state ?_
      have hraised := h s hs (.inl (some_ne_none text))
      have hcall : err { s with broken := s.broken || (database text).isDatabase } := by
        rw [hbroken]
        exact hraised
      exact hcall

/-- A commit goes through in a session that is in order. -/
theorem triple_commit {Q : GenerationSession → Prop}
    (h : ∀ s, P s → error ≠ none ∨ s.broken = true → err { s with broken := true })
    (hcommit : ∀ s, P s → s.broken = false → error = none → Q { s with commits := s.commits ++ s.rows.toList }) :
    Triple P (commit error) (fun _ ↦ Q) err :=
  triple_bind (triple_statement h) fun _ ↦ triple_modify fun s hs ↦ hcommit s hs.1.1 hs.1.2 hs.2

theorem triple_ignoring {Q : GenerationSession → Prop}
    (h : ∀ s, P s → Q { s with broken := s.broken || outcome.any isDatabase }) :
    Triple P (ignoring outcome) (fun _ ↦ Q) err := by
  intro s hs
  cases outcome with
  | none =>
    have hs' := h s hs
    rw [any_none, Bool.or_false] at hs'
    exact hs'
  | some failure => exact h s hs

end Calls

/-! ### How a generation ends -/

def HasStatus (status : ContentJobStatus) (s : GenerationSession) : Prop :=
  (∀ rows ∈ s.commits, rows.job.status = .running) ∧ ∃ rows, s.rows = some rows ∧ rows.job.status = status

def NoJob (s : GenerationSession) : Prop := s.commits = [] ∧ (s.rows = none ∨ s.broken = true)

/-- The generation has raised and nothing has closed the job as FAILED. -/
structure LeftOpen (script : GenerationScript) (s : GenerationSession) : Prop where
  commits : ∀ rows ∈ s.commits, rows.job.status = .running
  not_through : ∀ result package, ¬ script.GoesThrough result package
  not_rejected : ∀ result, ¬ script.Rejected result
  not_failed : s.broken = true ∨ ∀ rows, s.rows = some rows → rows.job.status ≠ .failed

/-- The reviewer has rejected the draft, and the session can still be committed. -/
structure ClosedByReviewer (script : GenerationScript) (s : GenerationSession) : Prop where
  commits : ∀ rows ∈ s.commits, rows.job.status = .running
  not_through : ∀ result package, ¬ script.GoesThrough result package
  usable : s.broken = false
  closed : ∃ result rows, script.Rejected result ∧ s.rows = some rows ∧ rows.job.status = .failed ∧
    rows.job.errorMessage = some (rejectionMessage result)

/-- The three ways a generation can raise. -/
inductive Ended (script : GenerationScript) (s : GenerationSession) : Prop
  | noJob (h : NoJob s)
  | leftOpen (h : LeftOpen script s)
  | closedByReviewer (h : ClosedByReviewer script s)

/-- The straight path: the job is COMPLETED in the session. -/
structure Completes (script : GenerationScript) (s : GenerationSession) : Prop where
  status : HasStatus .completed s
  usable : s.broken = false
  through : ∃ result package, script.GoesThrough result package
  has_cluster : ∃ cluster, script.cluster = some cluster

theorem HasStatus.mapJob {status' : ContentJobStatus} {f : ContentJob → ContentJob}
    (h : HasStatus status s) (hf : ∀ job, job.status = status → (f job).status = status') :
    HasStatus status' (s.mapJob f) := by
  obtain ⟨hcommits, rows, hrows, hstatus⟩ := h
  refine ⟨hcommits, { rows with job := f rows.job }, ?_, hf rows.job hstatus⟩
  unfold GenerationSession.mapJob
  rw [hrows]
  rfl

theorem GenerationScript.ReachesReview.result_eq {result' : OrchestrationResult}
    (h : script.ReachesReview result) (h' : script.ReachesReview result') : result' = result :=
  Except.ok.inj (h'.orchestrator.symm.trans h.orchestrator)

/-- What the reviewer has accepted is not rejected. -/
theorem not_rejected (hcluster : script.cluster = some cluster)
    (hreview : script.ReachesReview result) (haccepted : rejects cluster result = false)
    (result' : OrchestrationResult) : ¬ script.Rejected result' := by
  intro h
  have hrejects := h.rejected cluster hcluster
  rw [hreview.result_eq h.review, haccepted] at hrejects
  exact Bool.false_ne_true hrejects

/-- A failure before the reviewer's verdict. -/
theorem ended_before_review (h : HasStatus .running s) (hreview : ∀ result, ¬ script.ReachesReview result)
    (broken : Bool) : Ended script { s with broken := broken } := by
  refine .leftOpen ⟨h.1, fun result package hthrough ↦ hreview result hthrough.review,
    fun result hrejected ↦ hreview result hrejected.review, .inr fun rows hrows ↦ ?_⟩
  obtain ⟨-, rows', hrows', hstatus⟩ := h
  rw [mem_unique hrows hrows', hstatus]
  exact ContentJobStatus.noConfusion

/-- A failure after the reviewer's verdict. -/
theorem ended_after_review (h : HasStatus status s) (hstatus : status ≠ .failed)
    (hrejected : ∀ result, ¬ script.Rejected result)
    (hthrough : ∀ result package, ¬ script.GoesThrough result package) (broken : Bool) :
    Ended script { s with broken := broken } := by
  refine .leftOpen ⟨h.1, hthrough, hrejected, .inr fun rows hrows ↦ ?_⟩
  obtain ⟨-, rows', hrows', hsame⟩ := h
  rw [mem_unique hrows hrows', hsame]
  exact hstatus

/-! ### The stages -/

/-- The prepare stage commits a RUNNING job. -/
theorem triple_prepare (script : GenerationScript) :
    Triple (fun s ↦ s = {}) (prepare script)
      (fun read s ↦ ((HasStatus .running s ∧ s.broken = false) ∧ script.plan = some read.1) ∧
        script.cluster = some read.2) (Ended script) := by
  have hnone : ∀ s : GenerationSession, s = {} → ∀ broken, Ended script { s with broken := broken } := by
    rintro s rfl broken
    exact .noJob ⟨rfl, .inl rfl⟩
  refine triple_bind (triple_answer fun _ s _ hs ↦ hnone s hs _) fun plan ↦ triple_of_pure fun hplan ↦ ?_
  refine triple_bind (triple_ensure fun s hs _ ↦ hs ▸ hnone {} rfl false) fun _ ↦ triple_of_pure fun _ ↦ ?_
  refine triple_bind (triple_answer fun _ s _ hs ↦ hnone s hs _) fun cluster ↦ triple_of_pure fun hcluster ↦ ?_
  refine triple_bind (triple_ensure fun s hs _ ↦ hs ▸ hnone {} rfl false) fun _ ↦ triple_of_pure fun _ ↦ ?_
  refine triple_bind (triple_answer fun _ s _ hs ↦ hnone s hs _) fun accountIds ↦ triple_of_pure fun _ ↦ ?_
  refine triple_bind (triple_statement fun s hs _ ↦ hnone s hs true) fun _ ↦ triple_of_pure fun _ ↦ ?_
  refine triple_bind (triple_modify (q := fun _ s ↦
    s = { rows := some (script.prepared plan cluster accountIds) }) fun s hs ↦ ?_) fun _ ↦ ?_
  · rw [hs.1]
  have hplan' : script.plan = some plan := by
    unfold found at hplan
    split at hplan
    · cases hplan
      assumption
    · cases hplan
  have hcluster' : script.cluster = some cluster := by
    unfold found at hcluster
    split at hcluster
    · cases hcluster
      assumption
    · cases hcluster
  refine triple_bind (triple_commit (Q := fun s ↦ HasStatus .running s ∧ s.broken = false) ?_ ?_) fun _ ↦
    triple_pure fun s hs ↦ ⟨⟨hs, hplan'⟩, hcluster'⟩
  · rintro s rfl -
    exact .noJob ⟨rfl, .inr rfl⟩
  · rintro s rfl - -
    refine ⟨⟨fun rows hrows ↦ ?_, _, rfl, rfl⟩, rfl⟩
    rw [mem_singleton.mp hrows]
    rfl

/-- The language model stage: what the reviewer accepts goes on. -/
theorem triple_runLlmGenerationStage (hcluster : script.cluster = some cluster) :
    Triple (fun s ↦ HasStatus .running s ∧ s.broken = false) (runLlmGenerationStage script cluster)
      (fun result s ↦ (HasStatus .running s ∧ s.broken = false) ∧
        (script.ReachesReview result ∧ rejects cluster result = false)) (Ended script) := by
  refine triple_bind (triple_statement fun s hs herror ↦ ended_before_review hs.1 (fun result h ↦ ?_) true)
    fun _ ↦ triple_of_pure fun hsources ↦ ?_
  · rcases herror with herror | hbroken
    · exact herror h.sourceArticles
    · exact Bool.false_ne_true (hs.2.symm.trans hbroken)
  refine triple_bind (triple_ignoring (Q := fun s ↦
    HasStatus .running s ∧ s.broken = script.bestTone.any isDatabase) fun s hs ↦ ⟨hs.1.1, ?_⟩) fun _ ↦ ?_
  · rw [hs.2, Bool.false_or]
  refine triple_bind (triple_ignoring (Q := fun s ↦ HasStatus .running s ∧ s.broken = script.lookupsBreak)
    fun s hs ↦ ⟨hs.1, ?_⟩) fun _ ↦ ?_
  · rw [hs.2]
    rfl
  refine triple_bind (triple_modify (q := fun _ s ↦ HasStatus .running s ∧ s.broken = script.lookupsBreak)
    fun s hs ↦ ⟨hs.1.mapJob fun _ hjob ↦ hjob, hs.2⟩) fun _ ↦ ?_
  refine triple_bind (triple_statement fun s hs herror ↦ ended_before_review hs.1 (fun result h ↦ ?_) true)
    fun _ ↦ triple_of_pure fun hflush ↦ ?_
  · rcases herror with herror | hbroken
    · exact herror h.llmFlush
    · rw [hs.2, h.lookups] at hbroken
      exact Bool.false_ne_true hbroken
  refine triple_bind (triple_answer fun failure s herror hs ↦ ended_before_review hs.1.1 (fun result h ↦ ?_) _)
    fun result ↦ triple_of_pure fun hresult ↦ ?_
  · cases h.orchestrator.symm.trans herror
  have hreview : ∀ s : GenerationSession, s.broken = script.lookupsBreak → s.broken = false →
      script.ReachesReview result := fun s hsame hbroken ↦ ⟨hsources, hsame.symm.trans hbroken, hflush, hresult⟩
  refine triple_ite (fun hrejects ↦ ?_) fun haccepted ↦ ?_
  · -- the status is written, flushed, and left to the caller
    refine triple_bind (triple_modify (q := fun _ s ↦ HasStatus .failed s ∧ s.broken = false ∧
      script.ReachesReview result ∧ ∀ rows, s.rows = some rows →
        rows.job.errorMessage = some (rejectionMessage result)) fun s hs ↦ ?_) fun _ ↦ ?_
    · refine ⟨hs.1.1.mapJob fun _ _ ↦ rfl, hs.2, hreview s hs.1.2 hs.2, fun rows hrows ↦ ?_⟩
      obtain ⟨old, -, rfl⟩ := map_eq_some_iff.mp hrows
      rfl
    have hnot : script.ReachesReview result → ∀ result' package, ¬ script.GoesThrough result' package := by
      intro hthis result' package h
      have haccepted := h.accepted cluster hcluster
      rw [hthis.result_eq h.review, hrejects] at haccepted
      exact Bool.false_ne_true haccepted.symm
    refine triple_bind (triple_statement fun s hs herror ↦ .leftOpen ?_) fun _ ↦ triple_raise fun s hs ↦ ?_
    · refine ⟨hs.1.1, hnot hs.2.2.1, fun result' h ↦ ?_, .inl rfl⟩
      rcases herror with herror | hbroken
      · exact herror h.rejectionFlush
      · exact Bool.false_ne_true (hs.2.1.symm.trans hbroken)
    · obtain ⟨⟨⟨hstatus, hbroken, hthis, hmessage⟩, -⟩, hrejectionFlush⟩ := hs
      obtain ⟨rows, hrows, hfailed⟩ := hstatus.2
      refine .closedByReviewer ⟨hstatus.1, hnot hthis, hbroken, result, rows, ?_, hrows, hfailed, hmessage rows hrows⟩
      refine ⟨hthis, fun other hother ↦ ?_, hrejectionFlush⟩
      rw [mem_unique hother hcluster]
      exact hrejects
  · refine triple_pure fun s hs ↦ ⟨⟨hs.1.1, hs.2⟩, hreview s hs.1.2 hs.2, ?_⟩
    exact Bool.eq_false_iff.mpr haccepted

/-- The assets stage commits the texts, and the job is still RUNNING. -/
theorem triple_persistOrchestratedAssets
    (hrejected : ∀ result, ¬ script.Rejected result) :
    Triple (fun s ↦ HasStatus .running s ∧ s.broken = false) (persistOrchestratedAssets script result)
      (fun package s ↦ (HasStatus .running s ∧ s.broken = false) ∧
        (script.package = .ok package ∧ script.createAssets = none ∧ script.persistCommit = none))
      (Ended script) := by
  have hended : ∀ s, HasStatus .running s → (∀ result package, ¬ script.GoesThrough result package) →
      ∀ broken, Ended script { s with broken := broken } := fun s hs hnot broken ↦
    ended_after_review hs ContentJobStatus.noConfusion hrejected hnot broken
  refine triple_bind (triple_answer fun failure s herror hs ↦ hended s hs.1 (fun _ package h ↦ ?_) _)
    fun package ↦ triple_of_pure fun hpackage ↦ ?_
  · cases h.package.symm.trans herror
  refine triple_bind (triple_statement fun s hs herror ↦ hended s hs.1 (fun _ _ h ↦ ?_) true)
    fun _ ↦ triple_of_pure fun hassets ↦ ?_
  · rcases herror with herror | hbroken
    · exact herror h.createAssets
    · exact Bool.false_ne_true (hs.2.symm.trans hbroken)
  refine triple_bind (triple_modify (q := fun _ s ↦ HasStatus .running s ∧ s.broken = false)
    fun s hs ↦ ⟨hs.1.1.mapJob fun _ hjob ↦ hjob, hs.2⟩) fun _ ↦ ?_
  refine triple_bind (triple_commit (Q := fun s ↦ (HasStatus .running s ∧ s.broken = false) ∧
    script.persistCommit = none) (fun s hs herror ↦ hended s hs.1 (fun _ _ h ↦ ?_) true)
    fun s hs hbroken hcommit ↦ ⟨⟨⟨fun rows hrows ↦ ?_, hs.1.2⟩, hbroken⟩, hcommit⟩) fun _ ↦
      triple_pure fun s hs ↦ ⟨hs.1, hpackage, hassets, hs.2⟩
  · rcases herror with herror | hbroken
    · exact herror h.persistCommit
    · exact Bool.false_ne_true (hs.2.symm.trans hbroken)
  · rcases mem_append.mp hrows with hrows | hrows
    · exact hs.1.1 rows hrows
    · obtain ⟨rows', hrows', hstatus⟩ := hs.1.2
      have hopen : s.rows = some rows := mem_toList.mp hrows
      rw [mem_unique hopen hrows']
      exact hstatus

/-- The last stage closes the job when all its calls go through. -/
theorem triple_finalizeGeneration {plan : ContentPlan} {package : GeneratedPackage}
    (hplan : script.plan = some plan) (hrejected : ∀ result, ¬ script.Rejected result) :
    Triple (fun s ↦ HasStatus .running s ∧ s.broken = false) (finalizeGeneration script plan package)
      (fun _ s ↦ (HasStatus .completed s ∧ s.broken = false) ∧ (script.imageTask = none ∧ script.ttsTask = none ∧
        (∀ other, script.plan = some other → other.makesVideo → script.videoPipeline = none) ∧
        script.auditRecord = none ∧ script.finalizeFlush = none)) (Ended script) := by
  have hended : ∀ s, HasStatus .running s → (∀ result package, ¬ script.GoesThrough result package) →
      ∀ broken, Ended script { s with broken := broken } := fun s hs hnot broken ↦
    ended_after_review hs ContentJobStatus.noConfusion hrejected hnot broken
  have hclosing : ∀ s, HasStatus .completed s → (∀ result package, ¬ script.GoesThrough result package) →
      ∀ broken, Ended script { s with broken := broken } := fun s hs hnot broken ↦
    ended_after_review hs ContentJobStatus.noConfusion hrejected hnot broken
  refine triple_bind (triple_call fun failure s hfailure hs ↦ hended s hs.1 (fun _ _ h ↦ ?_) _)
    fun _ ↦ triple_of_pure fun himage ↦ ?_
  · cases h.imageTask.symm.trans hfailure
  refine triple_bind (triple_call fun failure s hfailure hs ↦ hended s hs.1 (fun _ _ h ↦ ?_) _)
    fun _ ↦ triple_of_pure fun htts ↦ ?_
  · cases h.ttsTask.symm.trans hfailure
  refine triple_bind (triple_modify (q := fun _ s ↦ HasStatus .running s ∧ s.broken = false)
    fun s hs ↦ ⟨hs.1.mapJob fun _ hjob ↦ hjob, hs.2⟩) fun _ ↦ ?_
  refine triple_bind (m := fun _ s ↦ (HasStatus .running s ∧ s.broken = false) ∧
    (plan.makesVideo → script.videoPipeline = none)) ?_ fun _ ↦ triple_of_pure fun hvideo ↦ ?_
  · refine triple_ite (fun hmakes ↦ ?_) fun hmakes ↦ triple_pure fun s hs ↦ ⟨hs, fun h ↦ (hmakes h).elim⟩
    refine triple_bind (triple_modify (q := fun _ s ↦ HasStatus .running s ∧ s.broken = false)
      fun s hs ↦ ⟨hs.1.mapJob fun _ hjob ↦ hjob, hs.2⟩) fun _ ↦ ?_
    refine (triple_call fun failure s hfailure hs ↦ hended s hs.1 (fun _ _ h ↦ ?_) _).mono (fun _ hs ↦ hs)
      (fun _ s hs ↦ ⟨hs.1, fun _ ↦ hs.2⟩) fun _ hs ↦ hs
    cases (h.videoPipeline plan hplan hmakes).symm.trans hfailure
  refine triple_bind (triple_modify (q := fun _ s ↦ HasStatus .completed s ∧ s.broken = false)
    fun s hs ↦ ⟨hs.1.mapJob fun _ _ ↦ rfl, hs.2⟩) fun _ ↦ ?_
  refine triple_bind (triple_modify (q := fun _ s ↦ HasStatus .completed s ∧ s.broken = false)
    fun s hs ↦ ⟨⟨hs.1.1, ?_⟩, hs.2⟩) fun _ ↦ ?_
  · obtain ⟨rows, hrows, hstatus⟩ := hs.1.2
    exact ⟨{ rows with assetGroup := closingStatus package }, congrArg (Option.map _) hrows, hstatus⟩
  refine triple_bind (triple_statement fun s hs herror ↦ hclosing s hs.1 (fun _ _ h ↦ ?_) true)
    fun _ ↦ triple_of_pure fun haudit ↦ ?_
  · rcases herror with herror | hbroken
    · exact herror h.auditRecord
    · exact Bool.false_ne_true (hs.2.symm.trans hbroken)
  refine (triple_statement fun s hs herror ↦ hclosing s hs.1.1 (fun _ _ h ↦ ?_) true).mono (fun _ hs ↦ hs)
    (fun _ s hs ↦ ⟨⟨hs.1.1.1.1, hs.1.2⟩, himage, htts, fun other hother hmakes ↦ ?_, haudit, hs.2⟩) fun _ hs ↦ hs
  · rcases herror with herror | hbroken
    · exact herror h.finalizeFlush
    · exact Bool.false_ne_true (hs.2.symm.trans hbroken)
  · rw [mem_unique hother hplan] at hmakes
    exact hvideo hmakes

/-- A generation returns when everything goes through, or raises in one of three ways. -/
theorem triple_generateContent (script : GenerationScript) :
    Triple (fun s ↦ s = {}) (generateContent script) (fun _ ↦ Completes script) (Ended script) := by
  refine triple_bind (triple_prepare script) fun ⟨plan, cluster⟩ ↦ triple_of_pure fun hcluster ↦
    triple_of_pure fun hplan ↦ ?_
  refine triple_bind (triple_runLlmGenerationStage hcluster) fun result ↦ triple_of_pure fun ⟨hreview, haccepted⟩ ↦ ?_
  have hrejected := not_rejected hcluster hreview haccepted
  refine triple_bind (triple_persistOrchestratedAssets hrejected) fun package ↦
    triple_of_pure fun ⟨hpackage, hassets, hcommit⟩ ↦ ?_
  refine (triple_finalizeGeneration hplan hrejected).mono (fun _ hs ↦ hs) (fun _ s hs ↦ ?_) fun _ hs ↦ hs
  obtain ⟨⟨hstatus, husable⟩, himage, htts, hvideo, haudit, hflush⟩ := hs
  refine ⟨hstatus, husable, ⟨result, package, ?_⟩, cluster, hcluster⟩
  refine ⟨hreview, fun other hother ↦ ?_, hpackage, hassets, hcommit, himage, htts, hvideo, haudit, hflush⟩
  rw [mem_unique hother hcluster]
  exact haccepted

/-! ### The callers -/

/-- What is left when the caller's own part has run: the straight path to its end, a failure of the caller's own
calls, or an exception of the generation. -/
inductive CallerEnded (script : GenerationScript) (goesThrough : Prop) (s : GenerationSession) : Prop
  | generation (h : Ended script s)
  | tail (h : HasStatus .completed s) (hrejected : ∀ result, ¬ script.Rejected result) (htail : ¬ goesThrough)

theorem Completes.not_rejected (h : Completes script s) (result : OrchestrationResult) : ¬ script.Rejected result := by
  obtain ⟨other, package, hthrough⟩ := h.through
  obtain ⟨cluster, hcluster⟩ := h.has_cluster
  exact ContentGeneration.not_rejected hcluster hthrough.review (hthrough.accepted cluster hcluster) result

theorem Completes.tail (h : Completes script s) {goesThrough : Prop} (htail : ¬ goesThrough) (broken : Bool) :
    CallerEnded script goesThrough { s with broken := broken } :=
  .tail h.status h.not_rejected htail

/-- The node, up to the commit of the engine. -/
theorem triple_node (script : GenerationScript) (canonicalText : Except Failure String)
    (stampFlush assetGroup commitError : Option String) :
    Triple (fun s ↦ s = {}) (generateContent script >>= fun _ ↦ nodeTail canonicalText stampFlush assetGroup)
      (fun _ s ↦ Completes script s ∧ (Entry.node canonicalText stampFlush assetGroup commitError).GoesThrough)
      (CallerEnded script (Entry.node canonicalText stampFlush assetGroup commitError).GoesThrough) := by
  refine triple_bind ((triple_generateContent script).mono (fun _ hs ↦ hs) (fun _ _ hs ↦ hs)
    fun _ hs ↦ .generation hs) fun _ ↦ ?_
  refine triple_bind (m := fun text s ↦ Completes script s ∧ canonicalText = .ok text)
    (triple_answer fun failure s herror hs ↦ hs.tail ?_ _) fun text ↦ triple_of_pure fun htext ↦ ?_
  · rintro ⟨text, htext, -⟩
    cases htext.symm.trans herror
  have hsame : ∀ other, canonicalText = .ok other → other = text := fun other hother ↦
    Except.ok.inj (hother.symm.trans htext)
  refine triple_bind (m := fun _ s ↦ Completes script s ∧ (text ≠ "" → stampFlush = none)) ?_ fun _ ↦
    triple_of_pure fun hstamp ↦ ?_
  · refine triple_ite (fun hempty ↦ triple_pure fun s hs ↦ ⟨hs, fun h ↦ (h hempty).elim⟩) fun hfull ↦ ?_
    refine triple_bind (triple_modify (q := fun _ ↦ Completes script) fun s hs ↦
      ⟨hs.status.mapJob fun _ hjob ↦ hjob, hs.usable, hs.through, hs.has_cluster⟩) fun _ ↦ ?_
    refine (triple_statement (P := Completes script) fun s hs herror ↦ hs.tail ?_ true).mono (fun _ hs ↦ hs)
      (fun _ s hs ↦ ⟨hs.1.1, fun _ ↦ hs.2⟩) fun _ hs ↦ hs
    rintro ⟨other, hother, hflush, -⟩
    rcases herror with herror | hbroken
    · exact herror (hflush (hsame other hother ▸ hfull))
    · exact Bool.false_ne_true (hs.usable.symm.trans hbroken)
  refine (triple_statement (P := Completes script) fun s hs herror ↦ hs.tail ?_ true).mono (fun _ hs ↦ hs)
    (fun _ s hs ↦ ⟨hs.1.1, text, htext, hstamp, hs.2⟩) fun _ hs ↦ hs
  rintro ⟨other, hother, -, hgroup⟩
  rcases herror with herror | hbroken
  · exact herror hgroup
  · exact Bool.false_ne_true (hs.usable.symm.trans hbroken)

/-- A job whose last commit is RUNNING is not closed. -/
theorem not_closed_of_running {result : Except Failure Unit} {job : ContentJob} (h : job.status = .running) :
    ¬ Closed result job := by
  rintro ⟨hcompleted | hfailed, -⟩
  · cases h.symm.trans hcompleted
  · cases h.symm.trans hfailed

theorem rejectionMessage_ne_empty (result : OrchestrationResult) : rejectionMessage result ≠ "" := by
  intro h
  have hlength := congrArg String.length h
  unfold rejectionMessage at hlength
  rw [String.length_append] at hlength
  exact absurd hlength (Nat.ne_of_gt (Nat.add_pos_left (by decide) _))

variable {entry : Entry} {result : Except Failure Unit} {commits : List GenerationRows} {rows : GenerationRows}

/-- The condition under which the job of a caller is closed. -/
def GenerationScript.Closes (script : GenerationScript) (entry : Entry) : Prop :=
  ((∃ result package, script.GoesThrough result package) ∧ entry.GoesThrough) ∨
    (entry.isNode ∧ ∃ result, script.Rejected result)

/-- The task commits at the end of the straight path only. -/
theorem triple_task (script : GenerationScript) (celeryTaskId : String) (commitError : Option String) :
    Triple (fun s ↦ s = {}) (generateContent script >>= fun _ ↦ taskTail celeryTaskId commitError)
      (fun _ s ↦ script.Closes (.task celeryTaskId commitError) ∧
        ∃ before rows, s.commits = before ++ [rows] ∧ rows.job.status = .completed)
      (fun s ↦ s.commits = [] ∨ (∀ rows ∈ s.commits, rows.job.status = .running) ∧
        ¬ script.Closes (.task celeryTaskId commitError)) := by
  have hnot : (∀ result package, ¬ script.GoesThrough result package) →
      ¬ script.Closes (.task celeryTaskId commitError) := by
    rintro hthrough (⟨⟨result, package, h⟩, -⟩ | ⟨hnode, -⟩)
    · exact hthrough result package h
    · exact hnode
  refine triple_bind ((triple_generateContent script).mono (fun _ hs ↦ hs) (fun _ _ hs ↦ hs) fun s hs ↦ ?_)
    fun _ ↦ ?_
  · cases hs with
    | noJob h => exact .inl h.1
    | leftOpen h | closedByReviewer h => exact .inr ⟨h.commits, hnot h.not_through⟩
  refine triple_bind (triple_modify (q := fun _ ↦ Completes script) fun s hs ↦
    ⟨hs.status.mapJob fun job hjob ↦ ?_, hs.usable, hs.through, hs.has_cluster⟩) fun _ ↦ ?_
  · split_ifs
    · exact hjob
    · exact hjob
  refine triple_commit (fun s hs herror ↦ .inr ⟨hs.status.1, ?_⟩) fun s hs hbroken hcommit ↦
    ⟨.inl ⟨hs.through, hcommit⟩, ?_⟩
  · rintro (⟨-, hcommit⟩ | ⟨hnode, -⟩)
    · rcases herror with herror | hbroken
      · exact herror hcommit
      · exact Bool.false_ne_true (hs.usable.symm.trans hbroken)
    · exact hnode
  · obtain ⟨rows, hrows, hstatus⟩ := hs.status.2
    refine ⟨s.commits, rows, ?_, hstatus⟩
    dsimp only
    rw [hrows]
    rfl

theorem closed_task_iff {celeryTaskId : String}
    (hfinished : finished script (.task celeryTaskId commitError) = some (result, commits))
    (hrows : commits.getLast? = some rows) :
    Closed result rows.job ↔ script.Closes (.task celeryTaskId commitError) := by
  have hrun := triple_task script celeryTaskId commitError {} rfl
  unfold finished at hfinished
  dsimp only at hfinished
  revert hrun hfinished
  generalize (generateContent script >>= fun _ ↦ taskTail celeryTaskId commitError) {} = run
  obtain ⟨ended, s⟩ := run
  intro hfinished hrun
  cases hfinished
  cases ended with
  | ok u =>
    obtain ⟨hcloses, before, last, hcommits, hstatus⟩ := hrun
    have hlast : s.commits.getLast? = some last := by
      rw [hcommits]
      exact getLast?_concat
    obtain rfl : last = rows := mem_unique hlast hrows
    refine iff_of_true ⟨.inl hstatus, fun failure hfailure ↦ ?_⟩ hcloses
    cases hfailure
  | error failure =>
    rcases hrun with hempty | ⟨hrunning, hnot⟩
    · rw [hempty] at hrows
      cases hrows
    · exact iff_of_false (not_closed_of_running (hrunning rows (mem_of_getLast? hrows))) hnot

/-- A commit that goes through. -/
theorem commit_eq_ok {s' : GenerationSession} (h : commit error s = (.ok (), s')) :
    s.broken = false ∧ s' = { s with commits := s.commits ++ s.rows.toList } := by
  have hcommit : Triple (fun t ↦ t = s) (commit error)
      (fun _ t ↦ s.broken = false ∧ t = { s with commits := s.commits ++ s.rows.toList }) fun _ ↦ True := by
    refine triple_commit (fun _ _ _ ↦ trivial) ?_
    rintro t rfl hbroken -
    exact ⟨hbroken, rfl⟩
  have hs := hcommit s rfl
  rw [h] at hs
  exact hs

/-- The node's result is recorded with what the session holds. -/
theorem closed_node_iff {canonicalText : Except Failure String} {stampFlush assetGroup : Option String}
    (hfinished : finished script (.node canonicalText stampFlush assetGroup commitError) = some (result, commits))
    (hrows : commits.getLast? = some rows) :
    Closed result rows.job ↔ script.Closes (.node canonicalText stampFlush assetGroup commitError) := by
  have hrun := triple_node script canonicalText stampFlush assetGroup commitError {} rfl
  unfold finished at hfinished
  dsimp only at hfinished
  revert hrun hfinished
  generalize (generateContent script >>= fun _ ↦ nodeTail canonicalText stampFlush assetGroup) {} = run
  obtain ⟨ended, s⟩ := run
  intro hfinished hrun
  dsimp only at hfinished
  split at hfinished
  case h_2 => cases hfinished
  case h_1 s' hcommit =>
    obtain ⟨hbroken, rfl⟩ := commit_eq_ok hcommit
    obtain ⟨rfl, rfl⟩ := Prod.mk.inj (Option.some.inj hfinished)
    dsimp only at hrows
    -- what the session holds is what is committed last
    have hlast : ∀ held, s.rows = some held → held = rows := by
      intro held hheld
      rw [hheld] at hrows
      exact Option.some.inj (getLast?_concat.symm.trans hrows)
    cases ended with
    | ok u =>
      obtain ⟨hcompletes, htail⟩ := hrun
      obtain ⟨held, hheld, hstatus⟩ := hcompletes.status.2
      rw [hlast held hheld] at hstatus
      refine iff_of_true ⟨.inl hstatus, fun failure hfailure ↦ ?_⟩ (.inl ⟨hcompletes.through, htail⟩)
      cases hfailure
    | error failure =>
      have hfailed : Closed (.error failure) rows.job → rows.job.status = .failed := fun h ↦ (h.2 failure rfl).1
      cases hrun with
      | tail hstatus hrejected htail =>
        obtain ⟨held, hheld, hcompleted⟩ := hstatus.2
        rw [hlast held hheld] at hcompleted
        refine iff_of_false (fun h ↦ ?_) ?_
        · cases hcompleted.symm.trans (hfailed h)
        · rintro (⟨-, hgoes⟩ | ⟨-, other, hother⟩)
          · exact htail hgoes
          · exact hrejected other hother
      | generation hended =>
        cases hended with
        | noJob h =>
          obtain ⟨hcommits, hnone | hbreaks⟩ := h
          · rw [hcommits, hnone] at hrows
            cases hrows
          · exact (Bool.false_ne_true (hbroken.symm.trans hbreaks)).elim
        | leftOpen h =>
          refine iff_of_false (fun hclosed ↦ ?_) ?_
          · cases hheld : s.rows with
            | none =>
              rw [hheld] at hrows
              rw [toList_none, append_nil] at hrows
              exact not_closed_of_running (h.commits rows (mem_of_getLast? hrows)) hclosed
            | some held =>
              rcases h.not_failed with hbreaks | hstatus
              · exact Bool.false_ne_true (hbroken.symm.trans hbreaks)
              · have hne := hstatus held hheld
                rw [hlast held hheld] at hne
                exact hne (hfailed hclosed)
          · rintro (⟨⟨other, package, hthrough⟩, -⟩ | ⟨-, other, hother⟩)
            · exact h.not_through other package hthrough
            · exact h.not_rejected other hother
        | closedByReviewer h =>
          obtain ⟨other, held, hrejected, hheld, hstatus, hmessage⟩ := h.closed
          rw [hlast held hheld] at hstatus hmessage
          refine iff_of_true ⟨.inr hstatus, fun _ _ ↦ ⟨hstatus, _, hmessage, ?_⟩⟩ (.inr ⟨trivial, other, hrejected⟩)
          exact rejectionMessage_ne_empty other

/-- A job that a generation has created is closed when its caller is done, exactly when all calls go through and
the reviewer accepts, or the reviewer rejects and the caller is the node. -/
theorem content_job_closed_iff (hfinished : finished script entry = some (result, commits))
    (hrows : commits.getLast? = some rows) : Closed result rows.job ↔ script.Closes entry := by
  cases entry with
  | task celeryTaskId commitError => exact closed_task_iff hfinished hrows
  | node canonicalText stampFlush assetGroup commitError => exact closed_node_iff hfinished hrows

/-! ### Runs -/

/-- A story with a reviewed brief; the calls go through. -/
def reviewedStory (reviewerPassed : Bool) (imageTask : Option Failure) : GenerationScript where
  jobId := "job"
  plan := some { decision := "generate" }
  cluster := some { headline := "Flood", riskLevel := some "risky" }
  brief := some { status := "approved" }
  orchestrator := .ok { reviewerPassed := reviewerPassed, reviewerIssues := ["unsupported"] }
  package := .ok {}
  imageTask := imageTask

/-- The node commits the rejection of the reviewer. -/
theorem rejection_closed : ∃ result commits rows,
    finished (reviewedStory false none) (.node (.ok "") none none none) = some (result, commits) ∧
      commits.getLast? = some rows ∧ Closed result rows.job := by
  have hrejected : (reviewedStory false none).Rejected
      { reviewerPassed := false, reviewerIssues := ["unsupported"] } := by
    refine ⟨⟨rfl, rfl, rfl, rfl⟩, fun cluster hcluster ↦ ?_, rfl⟩
    cases hcluster
    decide
  refine ⟨_, _, _, rfl, rfl, ?_⟩
  have hcloses : (reviewedStory false none).Closes (.node (.ok "") none none none) :=
    .inr ⟨trivial, _, hrejected⟩
  exact (content_job_closed_iff rfl rfl).mpr hcloses

/-- A broker failure leaves the job RUNNING. -/
theorem broker_failure_open : ∃ result commits rows,
    finished (reviewedStory true (some (.other "broker unreachable"))) (.task "" none) = some (result, commits) ∧
      commits.getLast? = some rows ∧ ¬ Closed result rows.job :=
  ⟨_, _, _, rfl, rfl, not_closed_of_running rfl⟩

end ContentGenerator.ContentGeneration

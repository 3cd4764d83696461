import ContentGenerator.ContentGeneration.Generation

/-!
# What a generation commits

`committedRows` is what a generation commits on its way through one of its callers. A committed job carries no
review and has not completed, or it carries the review of its texts (`graded_of_mem_committedRows`): the review
comes with the commit of the texts, and the job completes after it.
-/

namespace ContentGenerator.ContentGeneration

open Lib Lib.Action Option JsonObject

variable {f : ContentJob → ContentJob}

/-- What a generation commits, in order, through one of its callers. -/
def committedRows (script : GenerationScript) : Entry → List GenerationRows
  | .task celeryTaskId commitError =>
    (final (generateContent script >>= fun _ ↦ taskTail celeryTaskId commitError) {}).commits
  | .node canonicalText stampFlush assetGroup commitError =>
    (final (commit commitError)
      (final (generateContent script >>= fun _ ↦ nodeTail canonicalText stampFlush assetGroup) {})).commits

variable {script : GenerationScript}

/-- The job carries no review yet, and has not completed. -/
def Unreviewed (rows : GenerationRows) : Prop :=
  rows.job.groundingBundle.get "risk_review" = none ∧ rows.job.status ≠ .completed

/-- The job carries the review of its texts. -/
def Reviewed (script : GenerationScript) (rows : GenerationRows) : Prop :=
  ∃ package, script.package = .ok package ∧
    rows.job.groundingBundle.get "risk_review" = some (.obj package.findings.policyFlags)

def Graded (script : GenerationScript) (rows : GenerationRows) : Prop := Unreviewed rows ∨ Reviewed script rows

/-- All commits are graded, and the rows of the session are as `P` says. -/
def CommitsGraded (script : GenerationScript) (P : GenerationRows → Prop) (s : GenerationSession) : Prop :=
  (∀ rows ∈ s.commits, Graded script rows) ∧ ∀ rows, s.rows = some rows → P rows

variable {P : GenerationRows → Prop}

theorem CommitsGraded.mapJob {s : GenerationSession} {P' : GenerationRows → Prop}
    (h : CommitsGraded script P s) (hf : ∀ rows, P rows → P' { rows with job := f rows.job }) :
    CommitsGraded script P' (s.mapJob f) := by
  refine ⟨h.1, fun rows hrows ↦ ?_⟩
  obtain ⟨old, hold, rfl⟩ := map_eq_some_iff.mp hrows
  exact hf old (h.2 old hold)

theorem keeps_call (outcome : Option Failure) : Keeps (CommitsGraded script P) (call outcome) := by
  cases outcome with
  | none => exact keeps_pure ()
  | some failure => exact fun s hs ↦ hs

theorem keeps_answer {α : Type} (outcome : Except Failure α) : Keeps (CommitsGraded script P) (answer outcome) := by
  cases outcome with
  | ok value => exact keeps_pure value
  | error failure => exact fun s hs ↦ hs

theorem keeps_ensure {condition : Prop} [Decidable condition] (failure : Failure) :
    Keeps (CommitsGraded script P) (ensure condition failure) :=
  keeps_ite (fun _ ↦ keeps_pure ()) fun _ ↦ keeps_raise failure

theorem keeps_statement (error : Option String) : Keeps (CommitsGraded script P) (statement error) :=
  keeps_bind (keeps_read _) fun _ ↦ keeps_ite (fun _ ↦ keeps_raise _) fun _ ↦ keeps_call _

theorem keeps_ignoring (outcome : Option Failure) : Keeps (CommitsGraded script P) (ignoring outcome) :=
  keeps_tryCatch (keeps_call outcome) fun _ ↦ keeps_pure ()

theorem keeps_commit (hP : ∀ rows, P rows → Graded script rows) (error : Option String) :
    Keeps (CommitsGraded script P) (commit error) := by
  refine keeps_bind (keeps_statement error) fun _ ↦ keeps_modify fun s hs ↦ ⟨fun rows hrows ↦ ?_, hs.2⟩
  rcases List.mem_append.mp hrows with hrows | hrows
  · exact hs.1 rows hrows
  · exact hP rows (hs.2 rows (mem_toList.mp hrows))

theorem keeps_modifyJob (hf : ∀ rows, P rows → P { rows with job := f rows.job }) :
    Keeps (CommitsGraded script P) (modifyJob f) :=
  keeps_modify fun _ hs ↦ hs.mapJob hf

theorem keeps_prepare (script : GenerationScript) : Keeps (CommitsGraded script Unreviewed) (prepare script) := by
  refine keeps_bind (keeps_answer _) fun plan ↦ keeps_bind (keeps_ensure _) fun _ ↦
    keeps_bind (keeps_answer _) fun cluster ↦ keeps_bind (keeps_ensure _) fun _ ↦
    keeps_bind (keeps_answer _) fun accountIds ↦ keeps_bind (keeps_statement _) fun _ ↦
    keeps_bind (keeps_modify fun s hs ↦ ⟨hs.1, fun rows hrows ↦ ?_⟩) fun _ ↦
    keeps_bind (keeps_commit (fun _ ↦ .inl) _) fun _ ↦ keeps_pure _
  cases hrows
  exact ⟨rfl, ContentJobStatus.noConfusion⟩

theorem keeps_runLlmGenerationStage (cluster : StoryCluster) :
    Keeps (CommitsGraded script Unreviewed) (runLlmGenerationStage script cluster) := by
  refine keeps_bind (keeps_statement _) fun _ ↦ keeps_bind (keeps_ignoring _) fun _ ↦
    keeps_bind (keeps_ignoring _) fun _ ↦ keeps_bind (keeps_modifyJob fun _ hrows ↦ hrows) fun _ ↦
    keeps_bind (keeps_statement _) fun _ ↦ keeps_bind (keeps_answer _) fun result ↦
    keeps_ite (fun _ ↦ ?_) fun _ ↦ keeps_pure _
  exact keeps_bind (keeps_modifyJob fun rows hrows ↦ ⟨hrows.1, ContentJobStatus.noConfusion⟩) fun _ ↦
    keeps_bind (keeps_statement _) fun _ ↦ keeps_raise _

theorem reviewed_of_reviewedGrounding {package : GeneratedPackage} (hpackage : script.package = .ok package)
    (result : OrchestrationResult) (rows : GenerationRows) (metadata : JsonObject) :
    Reviewed script { rows with job :=
      { rows.job with
        groundingBundle := reviewedGrounding package result rows.job.groundingBundle
        providerMetadata := metadata } } := by
  refine ⟨package, hpackage, ?_⟩
  dsimp only [reviewedGrounding]
  rw [get_set_of_ne _ _ (by decide), get_set_of_ne _ _ (by decide), get_set_self]

/-- The assets stage brings the review. -/
theorem triple_persist (result : OrchestrationResult) :
    Triple (CommitsGraded script Unreviewed) (persistOrchestratedAssets script result)
      (fun _ ↦ CommitsGraded script (Reviewed script)) (CommitsGraded script (Graded script)) := by
  have hweaken : ∀ s, CommitsGraded script Unreviewed s → CommitsGraded script (Graded script) s :=
    fun s hs ↦ ⟨hs.1, fun rows hrows ↦ .inl (hs.2 rows hrows)⟩
  refine triple_bind (m := fun package s ↦ CommitsGraded script Unreviewed s ∧ script.package = .ok package) ?_ fun package ↦
    triple_of_pure fun hpackage ↦ ?_
  · cases hanswer : script.package with
    | ok package => exact triple_pure fun s hs ↦ ⟨hs, rfl⟩
    | error failure => exact fun s hs ↦ hweaken _ hs
  refine triple_bind ((keeps_statement _).triple.mono (fun _ hs ↦ hs) (fun _ _ hs ↦ hs) hweaken) fun _ ↦ ?_
  refine triple_bind (triple_modify (q := fun _ ↦ CommitsGraded script (Reviewed script)) fun s hs ↦
    hs.mapJob fun rows _ ↦ reviewed_of_reviewedGrounding hpackage result rows _) fun _ ↦ ?_
  refine triple_bind ((keeps_commit (fun _ ↦ .inr) _).triple.mono (fun _ hs ↦ hs) (fun _ _ hs ↦ hs)
    fun s hs ↦ ⟨hs.1, fun rows hrows ↦ .inr (hs.2 rows hrows)⟩) fun _ ↦ triple_pure fun _ hs ↦ hs

theorem keeps_finalizeGeneration (plan : ContentPlan) (package : GeneratedPackage) :
    Keeps (CommitsGraded script (Reviewed script)) (finalizeGeneration script plan package) := by
  refine keeps_bind (keeps_call _) fun _ ↦ keeps_bind (keeps_call _) fun _ ↦
    keeps_bind (keeps_modifyJob fun _ hrows ↦ hrows) fun _ ↦ keeps_bind ?_ fun _ ↦
    keeps_bind (keeps_modifyJob fun _ hrows ↦ hrows) fun _ ↦
    keeps_bind (keeps_modify fun s hs ↦ ⟨hs.1, fun rows hrows ↦ ?_⟩) fun _ ↦
    keeps_bind (keeps_statement _) fun _ ↦ keeps_statement _
  · exact keeps_ite (fun _ ↦ keeps_bind (keeps_modifyJob fun _ hrows ↦ hrows) fun _ ↦ keeps_call _)
      fun _ ↦ keeps_pure ()
  · obtain ⟨old, hold, rfl⟩ := map_eq_some_iff.mp hrows
    exact hs.2 old hold

/-- A generation commits graded rows only, and what it leaves in the session is graded. -/
theorem triple_generateContent_graded (script : GenerationScript) :
    Triple (CommitsGraded script Unreviewed) (generateContent script) (fun _ ↦ CommitsGraded script (Reviewed script))
      (CommitsGraded script (Graded script)) := by
  have hweaken : ∀ s, CommitsGraded script Unreviewed s → CommitsGraded script (Graded script) s :=
    fun s hs ↦ ⟨hs.1, fun rows hrows ↦ .inl (hs.2 rows hrows)⟩
  refine triple_bind ((keeps_prepare script).triple.mono (fun _ hs ↦ hs) (fun _ _ hs ↦ hs) hweaken)
    fun ⟨plan, cluster⟩ ↦ ?_
  refine triple_bind ((keeps_runLlmGenerationStage cluster).triple.mono (fun _ hs ↦ hs) (fun _ _ hs ↦ hs) hweaken)
    fun result ↦ triple_bind (triple_persist result) fun package ↦ ?_
  exact (keeps_finalizeGeneration plan package).triple.mono (fun _ hs ↦ hs) (fun _ _ hs ↦ hs)
    fun s hs ↦ ⟨hs.1, fun rows hrows ↦ .inr (hs.2 rows hrows)⟩

theorem commitsGraded_caller (script : GenerationScript) {tail : Action GenerationSession Failure Unit}
    (htail : Keeps (CommitsGraded script (Reviewed script)) tail) :
    CommitsGraded script (Graded script) (final (generateContent script >>= fun _ ↦ tail) {}) := by
  have hstart : CommitsGraded script Unreviewed {} := ⟨fun _ h ↦ (List.not_mem_nil h).elim, fun _ h ↦ by cases h⟩
  suffices h : Triple (CommitsGraded script Unreviewed) (generateContent script >>= fun _ ↦ tail)
      (fun _ ↦ CommitsGraded script (Graded script)) (CommitsGraded script (Graded script)) from
    h.state hstart
  refine triple_bind (triple_generateContent_graded script) fun _ ↦ ?_
  have hweaken : ∀ s, CommitsGraded script (Reviewed script) s → CommitsGraded script (Graded script) s :=
    fun s hs ↦ ⟨hs.1, fun rows hrows ↦ .inr (hs.2 rows hrows)⟩
  exact htail.triple.mono (fun _ hs ↦ hs) (fun _ ↦ hweaken) hweaken

theorem graded_of_mem_committedRows {entry : Entry} {rows : GenerationRows}
    (h : rows ∈ committedRows script entry) : Graded script rows := by
  cases entry with
  | task celeryTaskId commitError =>
    refine (commitsGraded_caller script ?_).1 rows h
    refine keeps_bind (keeps_modifyJob fun rows hrows ↦ ?_) fun _ ↦ keeps_commit (fun _ ↦ .inr) _
    split_ifs
    · exact hrows
    · exact hrows
  | node canonicalText stampFlush assetGroup commitError =>
    refine (keeps_commit (fun _ hrows ↦ hrows) commitError _ (commitsGraded_caller script ?_)).1 rows h
    refine keeps_bind (keeps_answer _) fun text ↦ keeps_bind ?_ fun _ ↦ keeps_statement _
    refine keeps_ite (fun _ ↦ keeps_pure ()) fun _ ↦
      keeps_bind (keeps_modifyJob fun rows hrows ↦ ?_) fun _ ↦ keeps_statement _
    obtain ⟨package, hpackage, hreview⟩ := hrows
    refine ⟨package, hpackage, ?_⟩
    dsimp only
    rw [get_set_of_ne _ _ (by decide)]
    exact hreview

end ContentGenerator.ContentGeneration

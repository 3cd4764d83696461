import ContentGenerator.ContentGeneration.CommittedRows
import ContentGenerator.Lib.Play
import ContentGenerator.Publishing.Steps

/-!
# What is published of a content job

Generations and publishing sessions over the same content jobs. A generation is seen through its commits
(`committedRows`), `publish_now` and `execute_due_jobs` as in `Publishing.Sessions`. The only look at the
content between an attempt and its call of the provider is `_risk_label_from_content_job` (`job_executor.py`).

A job is `Released` when its generation has completed and neither review has blocked it. `calls_released`: the
provider is called for released jobs only, when the sessions load content jobs whose generation has completed
and that the originality report has not blocked. The policy review is what the risk check looks at.
-/

namespace ContentGenerator.Publishing

open Lib ContentGeneration Option Except
open PublishingState (PublishingOp)
open Function (update update_of_ne update_self)

/-! ### The risk label -/

/-- `grounding.get("risk_review", {})`. -/
def riskReview (grounding : JsonObject) : JsonObject :=
  match grounding.get "risk_review" with
  | some (.obj review) => review
  | _ => []

def riskLabelFromContentJob (render : Json → String) (job : ContentJob) : String :=
  match ((riskReview job.groundingBundle).getTruthy "label").or (job.groundingBundle.getTruthy "risk_label") with
  | some label => label.text render
  | none => "low"

/-! ### The system -/

/-- The content jobs a session has loaded: a request holds them from its start, a worker the one it has read for
its publishing job. -/
inductive Loaded
  | request (rows : String → Option GenerationRows)
  | worker (read : Option (ℕ × String × GenerationRows))

/-- The committed content, the commits that the generations under way still make, and the publishing sessions
with what they have loaded. `script` remembers which generation made a content job, and `completed` the content
jobs that have been committed as completed. -/
structure ContentSystem where
  content : String → Option GenerationRows := fun _ ↦ none
  coming : String → List GenerationRows := fun _ ↦ []
  script : String → Option GenerationScript := fun _ ↦ none
  completed : List String := []
  publishing : PublishingState := {}
  loaded : ℕ → Loaded := fun _ ↦ .worker none

/-- A step: a generation begins, or its next commit; a worker reads the content job of its attempt; a step of a
publishing session. -/
inductive ContentOp
  | generates (contentJobId : String) (script : GenerationScript) (entry : Entry)
  | commits (contentJobId : String)
  | getContentJob (who : ℕ)
  | publishing (now : Time) (op : PublishingOp)

namespace ContentSystem

/-- The session is at the risk check of the attempt, or past it, and has not called the provider. -/
def AtCheck (s : ContentSystem) (who id : ℕ) (job : PublishingJob) : Prop :=
  ∃ p attempt, s.publishing.session who = some (.publisher p) ∧ p.phase = .attempting id job attempt false

/-- What `get_job` returns to a session at the risk check. -/
def loadedRows (s : ContentSystem) (who id : ℕ) (contentJobId : String) : Option GenerationRows :=
  match s.loaded who with
  | .request rows => rows contentJobId
  | .worker (some (readFor, readId, rows)) => if readFor = id ∧ readId = contentJobId then some rows else none
  | .worker none => none

/-- The content job of the attempt is there, and its risk label is not "blocked". -/
def passesRiskCheck (render : Json → String) (s : ContentSystem) (who : ℕ) : Bool :=
  match s.publishing.session who with
  | some (.publisher p) =>
    match p.phase with
    | .attempting id job _ false =>
      (s.loadedRows who id job.contentJobId).any fun rows ↦ riskLabelFromContentJob render rows.job ≠ "blocked"
    | _ => false
  | _ => false

/-- A worker reads the content job of its attempt. -/
def getContentJob (s : ContentSystem) (who : ℕ) : ContentSystem :=
  match s.loaded who, s.publishing.session who with
  | .worker _, some (.publisher p) =>
    match p.phase with
    | .attempting id job _ false =>
      match s.content job.contentJobId with
      | some rows =>
        { s with loaded := update s.loaded who (.worker (some (id, job.contentJobId, rows))) }
      | none => s
    | _ => s
  | _, _ => s

/-- One step. A request begins when its content jobs are there, and the provider is called past the risk check. -/
def apply (render : Json → String) (env : PublishingEnv) (s : ContentSystem) : ContentOp → ContentSystem
  | .generates contentJobId script entry =>
    if (s.script contentJobId).isSome then s
    else
      { s with
        script := update s.script contentJobId (some script)
        coming := update s.coming contentJobId (committedRows script entry) }
  | .commits contentJobId =>
    match s.coming contentJobId with
    | [] => s
    | rows :: rest =>
      { s with
        content := update s.content contentJobId (some rows)
        coming := update s.coming contentJobId rest
        completed := if rows.job.status = .completed then contentJobId :: s.completed else s.completed }
  | .getContentJob who => s.getContentJob who
  | .publishing now op =>
    let publishing := s.publishing.apply env (now, op)
    match op with
    | .publishNow who accounts _ =>
      if (s.publishing.session who).isNone ∧
          accounts.all fun account ↦ (s.content account.contentJobId).isSome then
        { s with publishing := publishing, loaded := update s.loaded who (.request s.content) }
      else s
    | .executeDueJobs who _ _ _ =>
      if (s.publishing.session who).isNone then
        { s with publishing := publishing, loaded := update s.loaded who (.worker none) }
      else s
    | .callProvider who => if s.passesRiskCheck render who then { s with publishing := publishing } else s
    | _ => { s with publishing := publishing }

/-! ### Released content -/

/-- The generation of the job has completed, and neither its policy review nor its originality report has
blocked it. -/
def Released (s : ContentSystem) (contentJobId : String) : Prop :=
  contentJobId ∈ s.completed ∧ ∃ script package, s.script contentJobId = some script ∧
    script.package = .ok package ∧ package.findings.blocked = false ∧ package.originalityBlocked = false

/-- When the step calls the provider, it does so for released content. -/
def CallsReleased (render : Json → String) (s : ContentSystem) : ContentOp → Prop
  | .publishing _ (.callProvider who) => s.passesRiskCheck render who →
      ∀ id job, s.AtCheck who id job → s.Released job.contentJobId
  | _ => True

/-- The generation has completed in the rows, and its originality report has not blocked the content. -/
def Finished (s : ContentSystem) (contentJobId : String) (rows : GenerationRows) : Prop :=
  rows.job.status = .completed ∧ ∃ script, s.script contentJobId = some script ∧
    ∀ package, script.package = .ok package → package.originalityBlocked = false

/-- A request prepares an attempt for a content job that it has loaded as finished, and a worker reads the
content job of its attempt as finished. -/
def LoadsFinished (s : ContentSystem) : ContentOp → Prop
  | .publishing _ (.prepare who) => ∀ p id job existing rows loaded,
      s.publishing.session who = some (.publisher p) → p.phase = .preparing id job existing →
        s.loaded who = .request rows → rows job.contentJobId = some loaded → s.Finished job.contentJobId loaded
  | .getContentJob who => ∀ id job rows, s.AtCheck who id job → s.content job.contentJobId = some rows →
      s.Finished job.contentJobId rows
  | _ => True

end ContentSystem

/-! ### The label of a reviewed job -/

section Labels

variable {script : GenerationScript} {rows : GenerationRows} {package : GeneratedPackage}

theorem label_eq_blocked_iff (findings : PackageFindings) :
    findings.label = "blocked" ↔ findings.blocked = true := by
  unfold PackageFindings.label
  split_ifs with hblocked
  · exact iff_of_true rfl hblocked
  · exact iff_of_false (by decide) hblocked
  · exact iff_of_false (by decide) hblocked
  · exact iff_of_false (by decide) hblocked

theorem label_ne_empty (findings : PackageFindings) : findings.label ≠ "" := by
  unfold PackageFindings.label
  split_ifs
  · decide
  · decide
  · decide
  · decide

/-- The risk label of a reviewed job is the label of its review. -/
theorem riskLabel_of_review (render : Json → String) {findings : PackageFindings}
    (h : rows.job.groundingBundle.get "risk_review" = some (.obj findings.policyFlags)) :
    riskLabelFromContentJob render rows.job = findings.label := by
  have hreview : riskReview rows.job.groundingBundle = findings.policyFlags := by
    unfold riskReview
    rw [h]
  have hlabel : (riskReview rows.job.groundingBundle).getTruthy "label" = some (.str findings.label) := by
    rw [hreview]
    exact if_pos (decide_eq_true (label_ne_empty findings))
  unfold riskLabelFromContentJob
  rw [hlabel]
  rfl

end Labels

/-! ### Runs -/

namespace ContentSystem

variable {render : Json → String} {env : PublishingEnv} {s : ContentSystem}

/-- Committed rows of a content job: they come from its generation, and it is known when they are completed. -/
def Known (s : ContentSystem) (contentJobId : String) (rows : GenerationRows) : Prop :=
  (∃ script, s.script contentJobId = some script ∧ Graded script rows) ∧
    (rows.job.status = .completed → contentJobId ∈ s.completed)

/-- All content rows, committed, coming or loaded, are rows of the generation that made the job. -/
structure Sound (s : ContentSystem) : Prop where
  content : ∀ id rows, s.content id = some rows → s.Known id rows
  coming : ∀ id, ∀ rows ∈ s.coming id, ∃ script, s.script id = some script ∧ Graded script rows
  loaded : ∀ who id contentJobId rows, s.loadedRows who id contentJobId = some rows → s.Known contentJobId rows
  worker : ∀ who readFor readId rows, s.loaded who = .worker (some (readFor, readId, rows)) →
    s.Finished readId rows
  request : ∀ who id job rows loaded, s.AtCheck who id job → s.loaded who = .request rows →
    rows job.contentJobId = some loaded → s.Finished job.contentJobId loaded

theorem sound_empty : Sound {} where
  content := fun _ _ h ↦ by cases h
  coming := fun _ _ h ↦ (List.not_mem_nil h).elim
  loaded := fun _ _ _ _ h ↦ by cases h
  worker := fun _ _ _ _ h ↦ by cases h
  request := fun _ _ _ _ _ _ h ↦ by cases h

/-- A session is at the risk check after a step when it was there before, or has prepared its attempt. -/
theorem atCheck_apply {now : Time} {op : PublishingOp} {who id : ℕ} {job : PublishingJob} {p : Publisher}
    {attempt : PublishingAttempt}
    (hsession : (s.publishing.apply env (now, op)).session who = some (.publisher p))
    (hphase : p.phase = .attempting id job attempt false) :
    s.AtCheck who id job ∨ op = .prepare who ∧ ∃ p' job' existing,
      s.publishing.session who = some (.publisher p') ∧ p'.phase = .preparing id job' existing ∧
        job'.contentJobId = job.contentJobId := by
  have hbefore : s.publishing.session who = some (.publisher p) → s.AtCheck who id job :=
    fun h ↦ ⟨p, attempt, h, hphase⟩
  -- a session that has proceeded to another phase is not at the check
  have hproceed : ∀ (t : PublishingState) other p', t.session = s.publishing.session →
      (∀ job attempt, p'.phase ≠ .attempting id job attempt false) →
        (t.proceed other p').session who = some (.publisher p) → s.AtCheck who id job := by
    intro t other p' hsame hother h
    rw [PublishingState.session_proceed, hsame] at h
    split_ifs at h
    · obtain rfl := Session.publisher.inj (Option.some.inj h)
      exact absurd hphase (hother job attempt)
    · exact hbefore h
  have hclose : ∀ (t : PublishingState) other, t.session = s.publishing.session →
      (t.close other).session who = some (.publisher p) → s.AtCheck who id job := by
    intro t other hsame h
    rw [PublishingState.session_close, hsame] at h
    split_ifs at h
    exact hbefore h
  have hupdate : ∀ other (session : Session), (∀ p, session ≠ .publisher p) →
      update s.publishing.session other (some session) who = some (.publisher p) → s.AtCheck who id job := by
    intro other session hne h
    rw [Function.update_apply] at h
    split_ifs at h
    · exact absurd (Option.some.inj h) (hne p)
    · exact hbefore h
  -- the phase stays
  have hkeeps : ∀ other p₀ p', s.publishing.session other = some (.publisher p₀) → p'.phase = p₀.phase →
      (s.publishing.proceed other p').session who = some (.publisher p) → s.AtCheck who id job := by
    intro other p₀ p' hopen hsame h
    rw [PublishingState.session_proceed] at h
    split_ifs at h with hwho
    · obtain rfl := Session.publisher.inj (Option.some.inj h)
      exact ⟨p₀, attempt, hwho ▸ hopen, hsame.symm.trans hphase⟩
    · exact hbefore h
  have heffect := PublishingState.apply_effect env s.publishing now op
  generalize s.publishing.apply env (now, op) = after at heffect hsession
  cases heffect with
  | idle => exact .inl (hbefore hsession)
  | closed | ended | cancelled | retried => exact .inl (hclose _ _ rfl hsession)
  | opened | claimed | looked | found => exact .inl (hproceed _ _ _ rfl (fun _ _ ↦ Phase.noConfusion) hsession)
  | known other p₀ _ _ hopen | created other p₀ _ _ hopen =>
    exact .inl (hkeeps other p₀ _ hopen (by rfl) hsession)
  | deferred _ _ _ _ _ _ _ _ _ hready | passed _ _ _ _ _ _ _ _ _ _ hready =>
    exact .inl (hproceed _ _ _ rfl (fun _ _ ↦ by rw [hready]; exact Phase.noConfusion) hsession)
  | prepared other p₀ id' job' existing attempt' jobs attempts hopen hpreparing =>
    rw [PublishingState.session_proceed] at hsession
    split_ifs at hsession with hwho
    · obtain rfl := Session.publisher.inj (Option.some.inj hsession)
      obtain ⟨rfl, rfl, -, -⟩ := Phase.attempting.inj hphase
      exact .inr ⟨by rw [hwho], p₀, job', existing, hwho ▸ hopen, hpreparing, rfl⟩
    · exact .inl (hbefore hsession)
  | called => exact .inl (hproceed _ _ _ rfl (fun _ _ h ↦ by simpa using (Phase.attempting.inj h).2.2.2) hsession)
  | finished other outcome p₀ id' job' attempt' sent jobs done after hopen hat hpossible hjobs hdone hafter =>
    subst hdone
    rcases hafter with rfl | rfl
    · exact .inl (hclose _ _ rfl hsession)
    · exact .inl (hproceed _ _ _ rfl (fun _ _ ↦ Phase.noConfusion) hsession)
  | loaded _ other id' job' session hfree hjob haction =>
    refine .inl (hupdate other session (fun p' ↦ ?_) hsession)
    rcases haction with ⟨rfl, -⟩ | ⟨rfl, -⟩ <;> exact Session.noConfusion
  | checked => exact .inl (hupdate _ _ (fun _ ↦ Session.noConfusion) hsession)

/-- A publishing step that loads nothing. -/
theorem Sound.withPublishing (h : s.Sound) {now : Time} {op : PublishingOp}
    (hloads : s.LoadsFinished (.publishing now op)) :
    Sound { s with publishing := s.publishing.apply env (now, op) } := by
  refine ⟨h.content, h.coming, h.loaded, h.worker, fun who id job rows loaded hat hrows hloaded ↦ ?_⟩
  obtain ⟨p, attempt, hsession, hphase⟩ := hat
  rcases atCheck_apply hsession hphase with hbefore | ⟨rfl, p', job', existing, hopen, hpreparing, hsame⟩
  · exact h.request who id job rows loaded hbefore hrows hloaded
  · rw [← hsame] at hloaded ⊢
    exact hloads p' id job' existing rows loaded hopen hpreparing hrows hloaded

/-- A session begins: it has loaded what is committed, or nothing. -/
theorem Sound.withLoaded (h : s.Sound) {now : Time} {op : PublishingOp} {who : ℕ} {loaded : Loaded}
    (hfree : s.publishing.session who = none) (hop : op ≠ .prepare who)
    (hothers : ∀ other, other ≠ who → op ≠ .prepare other)
    (hloaded : loaded = .request s.content ∨ loaded = .worker none) :
    Sound { s with
      publishing := s.publishing.apply env (now, op)
      loaded := update s.loaded who loaded } := by
  refine ⟨h.content, h.coming, fun other id contentJobId rows hrows ↦ ?_, fun other readFor readId rows hread ↦ ?_,
    fun other id job rows found hat hrows hfound ↦ ?_⟩
  · unfold loadedRows at hrows
    dsimp only at hrows
    by_cases hother : other = who
    · rw [hother, update_self] at hrows
      rcases hloaded with rfl | rfl
      · exact h.content contentJobId rows hrows
      · cases hrows
    · rw [update_of_ne hother] at hrows
      exact h.loaded other id contentJobId rows hrows
  · dsimp only at hread
    by_cases hother : other = who
    · rw [hother, update_self] at hread
      rcases hloaded with rfl | rfl <;> cases hread
    · rw [update_of_ne hother] at hread
      exact h.worker other readFor readId rows hread
  · obtain ⟨p, attempt, hsession, hphase⟩ := hat
    rcases atCheck_apply hsession hphase with hbefore | ⟨hprepare, -⟩
    · have hother : other ≠ who := by
        rintro rfl
        obtain ⟨p', -, hopen, -⟩ := hbefore
        rw [hfree] at hopen
        cases hopen
      dsimp only at hrows
      rw [update_of_ne hother] at hrows
      exact h.request other id job rows found hbefore hrows hfound
    · by_cases hother : other = who
      · exact absurd (hother ▸ hprepare) hop
      · exact absurd hprepare (hothers other hother)

theorem Sound.getContentJob (h : s.Sound) {who : ℕ} (hloads : s.LoadsFinished (.getContentJob who)) :
    (s.getContentJob who).Sound := by
  unfold ContentSystem.getContentJob
  split
  case h_2 => exact h
  case h_1 p _ hsession =>
    split
    case h_2 => exact h
    case h_1 id job attempt hphase =>
      split
      case h_2 => exact h
      case h_1 rows hrows =>
        have hfinished := hloads id job rows ⟨p, attempt, hsession, hphase⟩ hrows
        refine ⟨h.content, h.coming, fun other id' contentJobId found hfound ↦ ?_,
          fun other readFor readId found hread ↦ ?_, fun other id' job' found loaded hat hfound ↦ ?_⟩
        · unfold loadedRows at hfound
          dsimp only at hfound
          by_cases hother : other = who
          · rw [hother, update_self] at hfound
            dsimp only at hfound
            split_ifs at hfound with hsame
            rw [← hsame.2, ← Option.some.inj hfound]
            exact h.content job.contentJobId rows hrows
          · rw [update_of_ne hother] at hfound
            exact h.loaded other id' contentJobId found hfound
        · dsimp only at hread
          by_cases hother : other = who
          · rw [hother, update_self] at hread
            cases hread
            exact hfinished
          · rw [update_of_ne hother] at hread
            exact h.worker other readFor readId found hread
        · dsimp only at hfound
          by_cases hother : other = who
          · rw [hother, update_self] at hfound
            cases hfound
          · rw [update_of_ne hother] at hfound
            exact h.request other id' job' found loaded hat hfound

/-- A generation begins for a job without rows. -/
theorem Sound.generates (h : s.Sound) {id : String} (hnew : (s.script id).isSome = false)
    (script : GenerationScript) (entry : Entry) :
    Sound { s with
      script := update s.script id (some script)
      coming := update s.coming id (committedRows script entry) } := by
  have hkeeps : ∀ {other : String} {old : GenerationScript}, s.script other = some old →
      update s.script id (some script) other = some old := by
    intro other old hold
    rw [update_of_ne ?_, hold]
    rintro rfl
    rw [hold] at hnew
    cases hnew
  have hknown : ∀ {other rows}, s.Known other rows → ∃ new, update s.script id (some script) other = some new ∧
      Graded new rows := fun hrows ↦ hrows.1.imp fun _ hold ↦ ⟨hkeeps hold.1, hold.2⟩
  refine ⟨fun other rows hrows ↦ ⟨hknown (h.content other rows hrows), (h.content other rows hrows).2⟩,
    fun other rows hrows ↦ ?_, fun who job other rows hrows ↦ ⟨hknown (h.loaded who job other rows hrows),
      (h.loaded who job other rows hrows).2⟩, fun who readFor readId rows hread ↦ ?_,
    fun who job publishing rows loaded hat hrows hloaded ↦ ?_⟩
  · by_cases hother : other = id
    · subst hother
      dsimp only at hrows ⊢
      rw [update_self] at hrows ⊢
      exact ⟨script, rfl, graded_of_mem_committedRows hrows⟩
    · dsimp only at hrows
      rw [update_of_ne hother] at hrows
      exact (h.coming other rows hrows).imp fun _ hold ↦ ⟨hkeeps hold.1, hold.2⟩
  · obtain ⟨hcompleted, old, hold, hverdict⟩ := h.worker who readFor readId rows hread
    exact ⟨hcompleted, old, hkeeps hold, hverdict⟩
  · obtain ⟨hcompleted, old, hold, hverdict⟩ := h.request who job publishing rows loaded hat hrows hloaded
    exact ⟨hcompleted, old, hkeeps hold, hverdict⟩

theorem Sound.commits (h : s.Sound) (id : String) : (s.apply render env (.commits id)).Sound := by
  unfold ContentSystem.apply
  dsimp only
  split
  case h_1 => exact h
  case h_2 rows rest hcoming =>
    have hnext : ∀ row ∈ rows :: rest, ∃ script, s.script id = some script ∧ Graded script row :=
      fun row hrow ↦ h.coming id row (hcoming ▸ hrow)
    have hcompleted : ∀ other ∈ s.completed,
        other ∈ if rows.job.status = .completed then id :: s.completed else s.completed := by
      intro other hmem
      split_ifs
      · exact List.mem_cons_of_mem _ hmem
      · exact hmem
    refine ⟨fun other row hrow ↦ ?_, fun other row hrow ↦ ?_, fun who job other row hrow ↦
      ⟨(h.loaded who job other row hrow).1, fun hdone ↦
        hcompleted other ((h.loaded who job other row hrow).2 hdone)⟩, h.worker, h.request⟩
    · by_cases hother : other = id
      · subst hother
        dsimp only at hrow
        rw [update_self] at hrow
        cases hrow
        exact ⟨hnext rows List.mem_cons_self, fun hdone ↦ by simp [hdone]⟩
      · dsimp only at hrow
        rw [update_of_ne hother] at hrow
        exact ⟨(h.content other row hrow).1, fun hdone ↦
          hcompleted other ((h.content other row hrow).2 hdone)⟩
    · by_cases hother : other = id
      · subst hother
        dsimp only at hrow
        rw [update_self] at hrow
        exact hnext row (List.mem_cons_of_mem _ hrow)
      · dsimp only at hrow
        rw [update_of_ne hother] at hrow
        exact h.coming other row hrow

/-- Every step that loads finished content keeps the invariant. -/
theorem Sound.apply (h : s.Sound) (op : ContentOp) (hloads : s.LoadsFinished op) :
    (s.apply render env op).Sound := by
  cases op with
  | generates id script entry =>
    unfold ContentSystem.apply
    dsimp only
    split_ifs with hmade
    · exact h
    · exact h.generates (by simpa using hmade) script entry
  | commits id => exact h.commits id
  | getContentJob who => exact h.getContentJob hloads
  | publishing now op =>
    unfold ContentSystem.apply
    dsimp only
    split
    case h_1 who accounts scheduledFor =>
      split_ifs with hguard
      · exact h.withLoaded (isNone_iff_eq_none.mp hguard.1) PublishingOp.noConfusion
          (fun _ _ ↦ PublishingOp.noConfusion) (.inl rfl)
      · exact h
    case h_2 who workerId stale due =>
      split_ifs with hguard
      · exact h.withLoaded (isNone_iff_eq_none.mp hguard) PublishingOp.noConfusion
          (fun _ _ ↦ PublishingOp.noConfusion) (.inr rfl)
      · exact h
    case h_3 who =>
      split_ifs
      · exact h.withPublishing hloads
      · exact h
    case h_4 => exact h.withPublishing hloads

/-- What a session at the risk check has loaded is finished. -/
theorem Sound.finished (h : s.Sound) {who id : ℕ} {job : PublishingJob} {seen : GenerationRows}
    (hat : s.AtCheck who id job) (hseen : s.loadedRows who id job.contentJobId = some seen) :
    s.Finished job.contentJobId seen := by
  unfold loadedRows at hseen
  cases hloaded : s.loaded who with
  | request rows =>
    rw [hloaded] at hseen
    exact h.request who id job rows seen hat hloaded hseen
  | worker read =>
    rw [hloaded] at hseen
    obtain _ | ⟨readFor, readId, rows⟩ := read
    · cases hseen
    · dsimp only at hseen
      split_ifs at hseen with hsame
      cases hseen
      rw [← hsame.2]
      exact h.worker who readFor readId seen hloaded

theorem exists_of_passesRiskCheck {who id : ℕ} {job : PublishingJob} (hpasses : s.passesRiskCheck render who)
    (hat : s.AtCheck who id job) :
    ∃ seen, s.loadedRows who id job.contentJobId = some seen ∧
      riskLabelFromContentJob render seen.job ≠ "blocked" := by
  obtain ⟨p, attempt, hsession, hphase⟩ := hat
  unfold passesRiskCheck at hpasses
  rw [hsession] at hpasses
  dsimp only at hpasses
  rw [hphase] at hpasses
  dsimp only at hpasses
  obtain ⟨seen, hseen, hlabel⟩ := (any_eq_true _ _).mp hpasses
  exact ⟨seen, hseen, of_decide_eq_true hlabel⟩

/-- A call of the provider is for released content: what was loaded is finished, and the risk check has passed
its review. -/
theorem Sound.callsReleased (h : s.Sound) (op : ContentOp) : s.CallsReleased render op := by
  cases op with
  | publishing now op =>
    cases op with
    | callProvider who =>
      intro hpasses id job hat
      obtain ⟨seen, hseen, hlabel⟩ := exists_of_passesRiskCheck hpasses hat
      obtain ⟨hcompleted, script, hscript, horiginality⟩ := h.finished hat hseen
      obtain ⟨⟨script', hscript', hgraded⟩, hreached⟩ := h.loaded who id job.contentJobId seen hseen
      obtain rfl : script' = script := mem_unique hscript' hscript
      refine ⟨hreached hcompleted, script', ?_⟩
      rcases hgraded with hunreviewed | ⟨package, hpackage, hreview⟩
      · exact (hunreviewed.2 hcompleted).elim
      · refine ⟨package, hscript, hpackage, ?_, horiginality package hpackage⟩
        rw [riskLabel_of_review render hreview] at hlabel
        exact Bool.eq_false_iff.mpr fun hblocked ↦ hlabel ((label_eq_blocked_iff _).mpr hblocked)
    | _ => trivial
  | _ => trivial

end ContentSystem

/-- In a run of generations and publishing sessions the provider is called for released content only, when what
the sessions load for their attempts is finished. -/
theorem calls_released (render : Json → String) (env : PublishingEnv) (ops : List ContentOp)
    (hloads : Along (ContentSystem.apply render env) ContentSystem.LoadsFinished ops {}) :
    Along (ContentSystem.apply render env) (ContentSystem.CallsReleased render) ops {} := by
  have hstep : ∀ (s : ContentSystem) (op : ContentOp), s.Sound → s.LoadsFinished op →
      (s.apply render env op).Sound := fun s op hs hop ↦ hs.apply op hop
  exact hloads.mono_invariant hstep (fun s op hs _ ↦ hs.callsReleased op) ContentSystem.sound_empty

/-- A story of its own, which neither review blocks. -/
def ownStory : GenerationScript where
  jobId := "job"
  plan := some { decision := "generate" }
  cluster := some { headline := "Flood" }
  brief := some { status := "approved" }
  orchestrator := .ok { reviewerPassed := true }
  package := .ok {}

/-- A story whose texts are copied from a source: the policy review finds nothing, the originality report
blocks. -/
def copiedStory : GenerationScript := { ownStory with package := .ok { maxSourceSimilarity := 1 } }

/-- The account a content job is published to. -/
def storyRequest : JobRequest where
  id := 1
  contentJobId := "job"
  socialAccountId := some "account"
  platform := "x"
  provider := "live"
  idempotencyKey := "key"
  dryRun := false

/-- The generation completes, and a request comes to prepare an attempt for the job. -/
def storyLookedUp (story : GenerationScript) : List ContentOp :=
  [.generates "job" story (.task "" none), .commits "job", .commits "job", .commits "job",
    .publishing 0 (.publishNow 1 [storyRequest] none), .publishing 0 (.resolveAccount 1),
    .publishing 0 (.lookUpPost 1), .publishing 0 (.lookUpAttempt 1)]

def storyPrepared (story : GenerationScript) : List ContentOp :=
  storyLookedUp story ++ [.publishing 0 (.prepare 1)]

/-- The request has loaded the finished job, and the provider is called. -/
theorem own_story_released :
    Along (ContentSystem.apply (fun _ ↦ "") { isoFormat := fun _ ↦ "" })
      (ContentSystem.CallsReleased fun _ ↦ "") (storyPrepared ownStory ++ [.publishing 0 (.callProvider 1)]) {} := by
  refine calls_released _ _ _ ⟨trivial, trivial, trivial, trivial, trivial, trivial, trivial, trivial, ?_, trivial,
    trivial⟩
  intro p id job existing rows loaded hsession hphase hrows hloaded
  let looked := play (ContentSystem.apply (fun _ ↦ "") { isoFormat := fun _ ↦ "" }) (storyLookedUp ownStory) {}
  have hopen : looked.publishing.session 1 = some (.publisher _) := rfl
  have hstatus : (looked.loadedRows 1 1 "job").map (fun rows ↦ rows.job.status) = some .completed := by decide +kernel
  obtain rfl := Session.publisher.inj (mem_unique hopen hsession)
  have hid : job.contentJobId = "job" := congrArg PublishingJob.contentJobId (Phase.preparing.inj hphase).2.1.symm
  unfold ContentSystem.loadedRows at hstatus
  rw [show looked.loaded 1 = .request rows from hrows] at hstatus
  dsimp only at hstatus
  rw [hid] at hloaded ⊢
  rw [hloaded] at hstatus
  refine ⟨Option.some.inj hstatus, ownStory, rfl, fun package hpackage ↦ ?_⟩
  obtain rfl : {} = package := ok.inj hpackage
  decide +kernel

/-- The provider is called for content that the originality report has blocked. -/
theorem copied_story_published :
    ¬ Along (ContentSystem.apply (fun _ ↦ "") { isoFormat := fun _ ↦ "" })
      (ContentSystem.CallsReleased fun _ ↦ "") (storyPrepared copiedStory ++ [.publishing 0 (.callProvider 1)]) {} := by
  intro h
  rw [along_append] at h
  obtain ⟨-, hcall, -⟩ := h
  have hpasses : ContentSystem.passesRiskCheck (fun _ ↦ "")
      (play (ContentSystem.apply (fun _ ↦ "") { isoFormat := fun _ ↦ "" }) (storyPrepared copiedStory) {}) 1 = true := by
    decide +kernel
  obtain ⟨-, script, package, hscript, hpackage, -, horiginality⟩ := hcall hpasses _ _ ⟨_, _, rfl, rfl⟩
  have hcopied : some copiedStory = some script := hscript
  cases hcopied
  have hsame : (⟨{}, 1⟩ : GeneratedPackage) = package := ok.inj hpackage
  rw [← hsame] at horiginality
  exact absurd horiginality (by decide +kernel)

end ContentGenerator.Publishing

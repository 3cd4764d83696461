import Mathlib.Data.List.MinMax
import ContentGenerator.Lib.KeyedTable
import ContentGenerator.Lib.Overlap
import ContentGenerator.Lib.Play
import ContentGenerator.Workflows.Compiler

/-!
# Drafts and published versions

`save_draft` and `publish` on one workflow definition, as sessions that read, change their copies and
commit. The row of the definition has a version column, and a session that changes it commits only while
the stored version is the one it has read. The rows of the versions have no such column: a commit writes
the columns the session has changed, whatever has become of the row.

A draft that `save_draft` has read can be published before `save_draft` commits. `InTime` excludes just
that, up to a graph that makes no difference; nothing else changes a published version.

Main result: `published_kept_iff`.
-/

namespace ContentGenerator.Workflows

open Lib Option KeyedTable

variable {id : ℕ}

/-! ### Versions -/

inductive WorkflowDefinitionStatus
  | draft | active | archived
  deriving DecidableEq

/-- The columns of `WorkflowDefinition` that publishing changes, and its version column. -/
structure WorkflowDefinition where
  status : WorkflowDefinitionStatus := .draft
  currentVersionId : Option ℕ := none
  version : ℕ := 1

/-- `WorkflowVersion`. `Doc` is the type of a JSON column, with the equality of `dict`. -/
structure WorkflowVersion (Doc : Type) where
  version : ℕ
  graphJson : Doc
  inputSchemaJson : Doc
  outputSchemaJson : Doc
  checksum : Option String := none
  publishedAt : Option ℕ := none

structure WorkflowCompileResult (Doc : Type) where
  valid : Bool
  errors : List WorkflowCompileError := []
  normalizedGraph : Option Doc := none
  checksum : Option String := none

/-- The parts of the platform the service calls: the graph schema, the sanitizer and the compiler. -/
structure VersioningEnv (Doc Graph : Type) where
  sanitizeWorkflowGraph : Doc → Option Graph
  modelDump : Graph → Doc
  schemaVersion : Graph → ℕ
  withSchemaVersion : ℕ → Graph → Graph
  sanitizeMapping : Option Doc → Doc
  isTruthy : Doc → Bool
  validateGraph : Doc → CompileContext → WorkflowCompileResult Doc

/-- What `save_draft` and `publish` raise. -/
inductive VersioningError
  | http (statusCode : ℕ) (detail : String)
  | invalidGraph (message : String) (errors : List WorkflowCompileError)
  | validationError
  | assertionError

variable {Doc Graph : Type}

namespace WorkflowVersion

def isPublished (version : WorkflowVersion Doc) : Bool := version.publishedAt.isSome

theorem publishedAt_of_draft {version : WorkflowVersion Doc} (h : version.isPublished = false) :
    version.publishedAt = none :=
  isNone_iff_eq_none.mp (isSome_eq_false_iff.mp h)

/-- `save_draft` on the draft it has found. -/
def edit (env : VersioningEnv Doc Graph) (graph : Graph) (inputSchemaJson outputSchemaJson : Option Doc)
    (latest : WorkflowVersion Doc) : WorkflowVersion Doc :=
  { latest with
    graphJson := env.modelDump graph
    inputSchemaJson :=
      env.sanitizeMapping (some ((inputSchemaJson.filter env.isTruthy).getD latest.inputSchemaJson))
    outputSchemaJson :=
      env.sanitizeMapping (some ((outputSchemaJson.filter env.isTruthy).getD latest.outputSchemaJson))
    checksum := none }

/-- The draft `save_draft` creates. -/
def draft (env : VersioningEnv Doc Graph) (graph : Graph) (inputSchemaJson outputSchemaJson : Option Doc)
    (versionNumber : ℕ) : WorkflowVersion Doc where
  version := versionNumber
  graphJson := env.modelDump graph
  inputSchemaJson := env.sanitizeMapping inputSchemaJson
  outputSchemaJson := env.sanitizeMapping outputSchemaJson

/-- The graph `publish` stores: the normalized one, with the schema version of new publishes. -/
def publishedGraph (env : VersioningEnv Doc Graph) (version : WorkflowVersion Doc) :
    Option Doc → Except VersioningError Doc
  | none => .ok version.graphJson
  | some normalized =>
    match env.sanitizeWorkflowGraph normalized with
    | none => .error .validationError
    | some graph =>
      .ok (env.modelDump
        (if max (env.schemaVersion graph) 1 < 2 then env.withSchemaVersion 2 graph else graph))

/-- `publish` on the version it has read. -/
def publish (env : VersioningEnv Doc Graph) (now : ℕ) (context : CompileContext)
    (version : WorkflowVersion Doc) : Except VersioningError (WorkflowVersion Doc) :=
  if version.isPublished then .error (.http 409 "Version already published")
  else
    let result := env.validateGraph version.graphJson context
    if result.valid then
      match result.checksum, version.publishedGraph env result.normalizedGraph with
      | none, _ => .error .assertionError
      | some _, .error e => .error e
      | some checksum, .ok graphJson =>
        .ok
          { version with
            graphJson := graphJson
            publishedAt := some now
            checksum := some checksum }
    else .error (.invalidGraph "Workflow graph failed validation" result.errors)

/-- `publish` refuses a published version, and what it publishes differs in graph, checksum and time of
publication only. -/
theorem publish_spec {env : VersioningEnv Doc Graph} {now : ℕ} {context : CompileContext}
    {version new : WorkflowVersion Doc} (h : version.publish env now context = .ok new) :
    version.isPublished = false ∧ new.isPublished ∧ new.version = version.version := by
  unfold publish at h
  dsimp only at h
  split_ifs at h with hpublished
  refine ⟨by simpa using hpublished, ?_⟩
  split at h
  · simp at h
  · simp at h
  · cases h
    exact ⟨rfl, rfl⟩

variable [DecidableEq Doc]

/-- The stored version after a session that loaded `base` has written what it changed. -/
def flush (base new stored : WorkflowVersion Doc) : WorkflowVersion Doc where
  version := stored.version
  graphJson := flushColumn base.graphJson new.graphJson stored.graphJson
  inputSchemaJson := flushColumn base.inputSchemaJson new.inputSchemaJson stored.inputSchemaJson
  outputSchemaJson := flushColumn base.outputSchemaJson new.outputSchemaJson stored.outputSchemaJson
  checksum := flushColumn base.checksum new.checksum stored.checksum
  publishedAt := flushColumn base.publishedAt new.publishedAt stored.publishedAt

end WorkflowVersion

/-- `publish` writes the definition it has read as `base`. The update is sent when a column has changed,
and it finds the row only if its version is still the one that was read. -/
def WorkflowDefinition.activate (base : WorkflowDefinition) (id : ℕ) (stored : WorkflowDefinition) :
    Option WorkflowDefinition :=
  if base.currentVersionId = some id ∧ base.status = .active then some stored
  else if stored.version = base.version then
    some
      { status := flushColumn base.status .active stored.status
        currentVersionId := flushColumn base.currentVersionId (some id) stored.currentVersionId
        version := stored.version + 1 }
  else none

/-! ### Sessions -/

/-- How far a session has come. `save_draft`: the latest version, or the greatest number, is still to be
read; the draft has been changed; a new draft is to be inserted. `publish`: the definition has been read;
the version has been marked as published. -/
inductive VersioningSession (Doc Graph : Type)
  | saving (graph : Graph) (inputSchemaJson outputSchemaJson : Option Doc)
  | numbering (graph : Graph) (inputSchemaJson outputSchemaJson : Option Doc)
  | editing (id : ℕ) (loaded new : WorkflowVersion Doc)
  | inserting (id : ℕ) (draft : WorkflowVersion Doc)
  | publishing (definition : WorkflowDefinition) (versionId : Option ℕ) (context : CompileContext)
  | marking (definition : WorkflowDefinition) (id : ℕ) (loaded new : WorkflowVersion Doc)

/-- The committed rows of a definition and its versions, and the open sessions. -/
structure VersioningState (Doc Graph : Type) where
  definition : WorkflowDefinition := {}
  versions : KeyedTable ℕ (WorkflowVersion Doc) := ⟨[], List.nodup_nil⟩
  session : ℕ → Option (VersioningSession Doc Graph) := fun _ ↦ none

/-- A step of a session, or its end without a commit. `readVersion` carries the time, `readNumber` the id
of the new row. -/
inductive VersioningOp (Doc : Type)
  | saveDraft (who : ℕ) (graph : Doc) (inputSchemaJson outputSchemaJson : Option Doc)
  | readLatest (who : ℕ)
  | readNumber (who id : ℕ)
  | publish (who : ℕ) (versionId : Option ℕ) (context : CompileContext)
  | readVersion (who now : ℕ)
  | commit (who : ℕ)
  | rollback (who : ℕ)

namespace VersioningState

def latestVersion (s : VersioningState Doc Graph) : Option (ℕ × WorkflowVersion Doc) :=
  s.versions.entries.argmax fun entry ↦ entry.2.version

def nextVersionNumber (s : VersioningState Doc Graph) : ℕ :=
  (s.versions.entries.map fun entry ↦ entry.2.version).foldr max 0 + 1

/-- The version `publish` works on. -/
def versionToPublish (s : VersioningState Doc Graph) :
    Option ℕ → Except VersioningError (ℕ × WorkflowVersion Doc)
  | some id =>
    match s.versions.find id with
    | some version => .ok (id, version)
    | none => .error (.http 404 "Workflow version not found")
  | none =>
    match s.latestVersion with
    | some entry => .ok entry
    | none => .error (.http 400 "No draft version to publish")

/-- A session has come further, or is over. -/
def update (s : VersioningState Doc Graph) (who : ℕ) (session : Option (VersioningSession Doc Graph)) :
    VersioningState Doc Graph :=
  { s with session := Function.update s.session who session }

def hasNumber (s : VersioningState Doc Graph) (number : ℕ) : Bool :=
  s.versions.entries.any fun entry ↦ entry.2.version = number

variable [DecidableEq Doc]

/-- The commit of a session; one that fails is rolled back. -/
def commit (s : VersioningState Doc Graph) (who : ℕ) :
    VersioningSession Doc Graph → VersioningState Doc Graph
  | .editing id loaded new =>
    { s with versions := s.versions.modify id (WorkflowVersion.flush loaded new) }.update who none
  | .inserting id draft =>
    if (s.versions.find id).isSome ∨ s.hasNumber draft.version then s.update who none
    else { s with versions := s.versions.insertNew id draft }.update who none
  | .marking definition id loaded new =>
    match definition.activate id s.definition with
    | some activated =>
      { s with
        definition := activated
        versions := s.versions.modify id (WorkflowVersion.flush loaded new) }.update who none
    | none => s.update who none
  | _ => s

/-- The step. A step the session is not ready for does nothing, and a request that raises is over. -/
def apply (env : VersioningEnv Doc Graph) (s : VersioningState Doc Graph) :
    VersioningOp Doc → VersioningState Doc Graph
  | .saveDraft who graph inputSchemaJson outputSchemaJson =>
    match s.session who, env.sanitizeWorkflowGraph graph with
    | none, some parsed => s.update who (some (.saving parsed inputSchemaJson outputSchemaJson))
    | _, _ => s
  | .readLatest who =>
    match s.session who with
    | some (.saving graph inputSchemaJson outputSchemaJson) =>
      match s.latestVersion with
      | some (id, latest) =>
        if latest.isPublished then
          s.update who (some (.numbering graph inputSchemaJson outputSchemaJson))
        else
          s.update who
            (some (.editing id latest (latest.edit env graph inputSchemaJson outputSchemaJson)))
      | none => s.update who (some (.numbering graph inputSchemaJson outputSchemaJson))
    | _ => s
  | .readNumber who id =>
    match s.session who with
    | some (.numbering graph inputSchemaJson outputSchemaJson) =>
      s.update who (some (.inserting id
        (.draft env graph inputSchemaJson outputSchemaJson s.nextVersionNumber)))
    | _ => s
  | .publish who versionId context =>
    match s.session who with
    | none => s.update who (some (.publishing s.definition versionId context))
    | some _ => s
  | .readVersion who now =>
    match s.session who with
    | some (.publishing definition versionId context) =>
      match s.versionToPublish versionId with
      | .ok (id, version) =>
        match version.publish env now context with
        | .ok new => s.update who (some (.marking definition id version new))
        | .error _ => s.update who none
      | .error _ => s.update who none
    | _ => s
  | .commit who =>
    match s.session who with
    | some session => s.commit who session
    | none => s
  | .rollback who => s.update who none

/-! ### What a step can do -/

variable {env : VersioningEnv Doc Graph} {s s' : VersioningState Doc Graph} {who : ℕ}

/-- What each step can do, with the guards it has passed. -/
inductive Effect (env : VersioningEnv Doc Graph) (s : VersioningState Doc Graph) :
    VersioningOp Doc → VersioningState Doc Graph → Prop
  | idle (op : VersioningOp Doc) : Effect env s op s
  | closed (op : VersioningOp Doc) (who : ℕ) : Effect env s op (s.update who none)
  | saves (op : VersioningOp Doc) (who : ℕ) (session : VersioningSession Doc Graph)
      (hsession : (∃ graph input output, session = .saving graph input output) ∨
        ∃ graph input output, session = .numbering graph input output) :
      Effect env s op (s.update who (some session))
  | finds (who id : ℕ) (loaded new : WorkflowVersion Doc) (hrow : s.versions.find id = some loaded)
      (hdraft : loaded.isPublished = false) (hnew : new.publishedAt = loaded.publishedAt)
      (hchecksum : new.checksum = none) :
      Effect env s (.readLatest who) (s.update who (some (.editing id loaded new)))
  | numbers (who id : ℕ) (draft : WorkflowVersion Doc) (hdraft : draft.publishedAt = none)
      (hchecksum : draft.checksum = none) :
      Effect env s (.readNumber who id) (s.update who (some (.inserting id draft)))
  | opens (who : ℕ) (versionId : Option ℕ) (context : CompileContext) :
      Effect env s (.publish who versionId context)
        (s.update who (some (.publishing s.definition versionId context)))
  | marks (who now id : ℕ) (definition : WorkflowDefinition) (versionId : Option ℕ)
      (context : CompileContext) (loaded new : WorkflowVersion Doc)
      (hsession : s.session who = some (.publishing definition versionId context))
      (hrow : s.versions.find id = some loaded) (hdraft : loaded.isPublished = false)
      (hnew : new.isPublished) :
      Effect env s (.readVersion who now) (s.update who (some (.marking definition id loaded new)))
  | edits (who id : ℕ) (loaded new : WorkflowVersion Doc)
      (hsession : s.session who = some (.editing id loaded new)) :
      Effect env s (.commit who)
        ({ s with versions := s.versions.modify id (WorkflowVersion.flush loaded new) }.update who none)
  | inserts (who id : ℕ) (draft : WorkflowVersion Doc)
      (hsession : s.session who = some (.inserting id draft)) (hid : s.versions.find id = none)
      (hnumber : ¬ s.hasNumber draft.version) :
      Effect env s (.commit who) ({ s with versions := s.versions.insertNew id draft }.update who none)
  | publishes (who id : ℕ) (definition activated : WorkflowDefinition) (loaded new : WorkflowVersion Doc)
      (hsession : s.session who = some (.marking definition id loaded new))
      (hactivate : definition.activate id s.definition = some activated) :
      Effect env s (.commit who)
        ({ s with
            definition := activated
            versions := s.versions.modify id (WorkflowVersion.flush loaded new) }.update who none)

omit [DecidableEq Doc] in
theorem find_of_latestVersion {entry : ℕ × WorkflowVersion Doc} (h : s.latestVersion = some entry) :
    s.versions.find entry.1 = some entry.2 :=
  (find_eq_some_iff _ _ _).mpr (List.argmax_mem h)

omit [DecidableEq Doc] in
theorem find_of_versionToPublish {versionId : Option ℕ} {entry : ℕ × WorkflowVersion Doc}
    (h : s.versionToPublish versionId = .ok entry) : s.versions.find entry.1 = some entry.2 := by
  cases versionId with
  | some id =>
    unfold versionToPublish at h
    dsimp only at h
    split at h
    · rename_i version hfind
      cases h
      exact hfind
    · simp at h
  | none =>
    unfold versionToPublish at h
    dsimp only at h
    split at h
    · rename_i entry' hlatest
      cases h
      exact find_of_latestVersion hlatest
    · simp at h

theorem commit_effect {session : VersioningSession Doc Graph} (hsession : s.session who = some session) :
    Effect env s (.commit who) (s.commit who session) := by
  cases session with
  | editing id loaded new => exact .edits who id loaded new hsession
  | inserting id draft =>
    unfold commit
    dsimp only
    split_ifs with htaken
    · exact .closed _ who
    · obtain ⟨hid, hnumber⟩ := not_or.mp htaken
      exact .inserts who id draft hsession (not_isSome_iff_eq_none.mp hid) hnumber
  | marking definition id loaded new =>
    unfold commit
    dsimp only
    cases hactivate : definition.activate id s.definition with
    | none => exact .closed _ who
    | some activated => exact .publishes who id definition activated loaded new hsession hactivate
  | saving graph input output | numbering graph input output => exact .idle _
  | publishing definition versionId context => exact .idle _

/-- The inversion of the steps. -/
theorem apply_effect (env : VersioningEnv Doc Graph) (s : VersioningState Doc Graph)
    (op : VersioningOp Doc) : Effect env s op (s.apply env op) := by
  cases op with
  | saveDraft who graph input output =>
    unfold apply
    dsimp only
    split
    · exact .saves _ who _ (.inl ⟨_, _, _, rfl⟩)
    · exact .idle _
  | readLatest who =>
    unfold apply
    dsimp only
    split
    · rename_i graph input output hsession
      split
      · rename_i id latest hlatest
        split_ifs with hpublished
        · exact .saves _ who _ (.inr ⟨_, _, _, rfl⟩)
        · exact .finds who id latest _ (find_of_latestVersion hlatest)
            (Bool.eq_false_of_not_eq_true hpublished) rfl rfl
      · exact .saves _ who _ (.inr ⟨_, _, _, rfl⟩)
    · exact .idle _
  | readNumber who id =>
    unfold apply
    dsimp only
    split
    · exact .numbers who id _ rfl rfl
    · exact .idle _
  | publish who versionId context =>
    unfold apply
    dsimp only
    split
    · exact .opens who versionId context
    · exact .idle _
  | readVersion who now =>
    unfold apply
    dsimp only
    split
    · rename_i definition versionId context hsession
      split
      · rename_i id version hversion
        split
        · rename_i new hnew
          obtain ⟨hdraft, hpublished, -⟩ := WorkflowVersion.publish_spec hnew
          exact .marks who now id definition versionId context version new hsession
            (find_of_versionToPublish hversion) hdraft hpublished
        · exact .closed _ who
      · exact .closed _ who
    · exact .idle _
  | commit who =>
    unfold apply
    dsimp only
    split
    · rename_i session hsession
      exact commit_effect hsession
    · exact .idle _
  | rollback who => exact .closed _ who

/-! ### The invariant -/

def Published (s : VersioningState Doc Graph) (id : ℕ) : Prop :=
  ∃ version, s.versions.find id = some version ∧ version.isPublished

/-- A copy of the definition: the version it points at is published, and so is no row that was a draft
when the copy had the stored version. -/
def Copies (s : VersioningState Doc Graph) (definition : WorkflowDefinition) : Prop :=
  definition.version ≤ s.definition.version ∧
    ∀ id, definition.currentVersionId = some id → s.Published id

def SessionSound (s : VersioningState Doc Graph) : VersioningSession Doc Graph → Prop
  | .saving .. | .numbering .. => True
  | .editing _ loaded new =>
    loaded.publishedAt = none ∧ loaded.checksum = none ∧ new.publishedAt = none ∧ new.checksum = none
  | .inserting _ draft => draft.publishedAt = none ∧ draft.checksum = none
  | .publishing definition _ _ => s.Copies definition
  | .marking definition id loaded new =>
    s.Copies definition ∧ definition.currentVersionId ≠ some id ∧ (s.versions.find id).isSome ∧
      loaded.publishedAt = none ∧ new.isPublished ∧ (s.Published id → definition.version < s.definition.version)

/-- Numbers are unique, drafts have no checksum, and the current version is published. -/
structure Sound (s : VersioningState Doc Graph) : Prop where
  numbers : ∀ id version id' version', s.versions.find id = some version →
    s.versions.find id' = some version' → version.version = version'.version → id = id'
  drafts : ∀ id version, s.versions.find id = some version → version.publishedAt = none →
    version.checksum = none
  current : ∀ id, s.definition.currentVersionId = some id → s.Published id
  session : ∀ who session, s.session who = some session → s.SessionSound session

/-- What may happen to the rows behind an open session: the version of the definition grows, what is
published stays so, and whoever publishes a version takes the version of the definition further. -/
structure Rely (s s' : VersioningState Doc Graph) : Prop where
  version : s.definition.version ≤ s'.definition.version
  rows : ∀ id, (s.versions.find id).isSome → (s'.versions.find id).isSome
  stays : ∀ id, s.Published id → s'.Published id
  published : ∀ id, s'.Published id → s.Published id ∨ s.definition.version < s'.definition.version

omit [DecidableEq Doc] in
theorem Copies.rely {definition : WorkflowDefinition} (h : s.Copies definition) (hrely : s.Rely s') :
    s'.Copies definition :=
  ⟨h.1.trans hrely.version, fun id hid ↦ hrely.stays id (h.2 id hid)⟩

omit [DecidableEq Doc] in
theorem SessionSound.rely {session : VersioningSession Doc Graph} (h : s.SessionSound session)
    (hrely : s.Rely s') : s'.SessionSound session := by
  cases session with
  | saving graph input output => trivial
  | numbering graph input output => trivial
  | editing id loaded new => exact h
  | inserting id draft => exact h
  | publishing definition versionId context => exact Copies.rely h hrely
  | marking definition id loaded new =>
    obtain ⟨hcopies, hcurrent, hrow, hloaded, hnew, hstale⟩ := h
    refine ⟨hcopies.rely hrely, hcurrent, hrely.rows id hrow, hloaded, hnew, fun hpublished ↦ ?_⟩
    rcases hrely.published id hpublished with hbefore | hlt
    · exact (hstale hbefore).trans_le hrely.version
    · exact hcopies.1.trans_lt hlt

omit [DecidableEq Doc] in
/-- One session takes a step, and the others rely on it. -/
theorem Sound.step (h : s.Sound) (hrely : s.Rely s')
    (hnumbers : ∀ id version id' version', s'.versions.find id = some version →
      s'.versions.find id' = some version' → version.version = version'.version → id = id')
    (hdrafts : ∀ id version, s'.versions.find id = some version → version.publishedAt = none →
      version.checksum = none)
    (hcurrent : ∀ id, s'.definition.currentVersionId = some id → s'.Published id)
    {session : Option (VersioningSession Doc Graph)}
    (hsession : s'.session = Function.update s.session who session)
    (hown : ∀ own, session = some own → s'.SessionSound own) : s'.Sound where
  numbers := hnumbers
  drafts := hdrafts
  current := hcurrent
  session := by
    intro other own hother
    rw [hsession, Function.update_apply] at hother
    split_ifs at hother
    · exact hown own hother
    · exact (h.session other own hother).rely hrely

omit [DecidableEq Doc] in
/-- A step that leaves the rows alone. -/
theorem Sound.update (h : s.Sound) (who : ℕ) {session : Option (VersioningSession Doc Graph)}
    (hown : ∀ own, session = some own → s.SessionSound own) : (s.update who session).Sound := by
  have hrely : s.Rely (s.update who session) := ⟨le_rfl, fun _ h ↦ h, fun _ h ↦ h, fun _ h ↦ .inl h⟩
  exact h.step hrely h.numbers h.drafts h.current rfl fun own hsome ↦ (hown own hsome).rely hrely

/-! ### Commits -/

omit [DecidableEq Doc] in
/-- The rows of the versions have been rewritten, and the session is over. -/
theorem Sound.rewrite (h : s.Sound) {f : ℕ → WorkflowVersion Doc → WorkflowVersion Doc}
    (hrows : ∀ id, s'.versions.find id = (s.versions.find id).map (f id))
    (hnumber : ∀ id version, (f id version).version = version.version)
    (hdrafts : ∀ id version, s.versions.find id = some version → (f id version).publishedAt = none →
      (f id version).checksum = none)
    (hstays : ∀ id version, s.versions.find id = some version → version.isPublished →
      (f id version).isPublished)
    (hpublished : ∀ id version, s.versions.find id = some version → (f id version).isPublished →
      version.isPublished ∨ s.definition.version < s'.definition.version)
    (hversion : s.definition.version ≤ s'.definition.version)
    (hcurrent : ∀ id, s'.definition.currentVersionId = some id → s'.Published id)
    (hsession : s'.session = Function.update s.session who none) : s'.Sound := by
  have hback : ∀ id version, s'.versions.find id = some version →
      ∃ stored, s.versions.find id = some stored ∧ f id stored = version := by
    intro id version hfind
    rw [hrows] at hfind
    exact map_eq_some_iff.mp hfind
  have hrely : s.Rely s' := by
    refine ⟨hversion, fun id hsome ↦ ?_, fun id ⟨stored, hstored, hbefore⟩ ↦ ?_,
      fun id ⟨version, hfind, hafter⟩ ↦ ?_⟩
    · rw [hrows, isSome_map]
      exact hsome
    · exact ⟨f id stored, by rw [hrows, hstored, map_some], hstays id stored hstored hbefore⟩
    · obtain ⟨stored, hstored, rfl⟩ := hback id version hfind
      exact (hpublished id stored hstored hafter).imp_left fun hbefore ↦ ⟨stored, hstored, hbefore⟩
  refine h.step hrely ?_ ?_ hcurrent hsession fun own hown ↦ absurd hown (by simp)
  · intro id version id' version' hfind hfind' hsame
    obtain ⟨stored, hstored, rfl⟩ := hback id version hfind
    obtain ⟨stored', hstored', rfl⟩ := hback id' version' hfind'
    rw [hnumber, hnumber] at hsame
    exact h.numbers id stored id' stored' hstored hstored' hsame
  · intro id version hfind hdraft
    obtain ⟨stored, hstored, rfl⟩ := hback id version hfind
    exact hdrafts id stored hstored hdraft

omit [DecidableEq Doc] in
theorem find_modify_eq_map (s : VersioningState Doc Graph) (id : ℕ)
    (f : WorkflowVersion Doc → WorkflowVersion Doc) (other : ℕ) :
    (s.versions.modify id f).find other =
      (s.versions.find other).map fun version ↦ if other = id then f version else version := by
  rw [find_modify]
  split_ifs
  · rfl
  · exact map_id'.symm

/-- What `save_draft` writes of a draft leaves checksum and publication alone. -/
theorem flush_of_draft {loaded new : WorkflowVersion Doc} (stored : WorkflowVersion Doc)
    (hloaded : loaded.publishedAt = none) (hchecksum : loaded.checksum = none)
    (hnew : new.publishedAt = none) (hchecksum' : new.checksum = none) :
    (WorkflowVersion.flush loaded new stored).publishedAt = stored.publishedAt ∧
      (WorkflowVersion.flush loaded new stored).checksum = stored.checksum := by
  unfold WorkflowVersion.flush
  dsimp only
  rw [hloaded, hchecksum, hnew, hchecksum']
  exact ⟨flushColumn_unchanged _ _, flushColumn_unchanged _ _⟩

theorem Sound.edit (h : s.Sound) {loaded new : WorkflowVersion Doc}
    (hsession : s.session who = some (.editing id loaded new)) :
    ({ s with versions := s.versions.modify id (WorkflowVersion.flush loaded new) }.update who
      none).Sound := by
  obtain ⟨hloaded, hchecksum, hnew, hchecksum'⟩ := h.session who _ hsession
  have hflush : ∀ other stored,
      (if other = id then WorkflowVersion.flush loaded new stored else stored).publishedAt =
          stored.publishedAt ∧
        (if other = id then WorkflowVersion.flush loaded new stored else stored).checksum =
          stored.checksum := by
    intro other stored
    split_ifs
    · exact flush_of_draft stored hloaded hchecksum hnew hchecksum'
    · exact ⟨rfl, rfl⟩
  have hsame : ∀ other stored,
      (if other = id then WorkflowVersion.flush loaded new stored else stored).isPublished =
        stored.isPublished := fun other stored ↦ congrArg isSome (hflush other stored).1
  have hrows := find_modify_eq_map s id (WorkflowVersion.flush loaded new)
  refine h.rewrite hrows (fun other stored ↦ ?_) (fun other stored hstored hdraft ↦ ?_)
    (fun other stored _ hbefore ↦ (hsame other stored).trans hbefore)
    (fun other stored _ hafter ↦ .inl ((hsame other stored).symm.trans hafter)) le_rfl
    (fun other hother ↦ ?_) rfl
  · split_ifs <;> rfl
  · rw [(hflush other stored).1] at hdraft
    rw [(hflush other stored).2]
    exact h.drafts other stored hstored hdraft
  · obtain ⟨stored, hstored, hbefore⟩ := h.current other hother
    exact ⟨_, (hrows other).trans (congrArg _ hstored), (hsame other stored).trans hbefore⟩

/-- A publication takes the version of the definition further, if the definition did not point at the
version before. -/
theorem activate_spec {definition stored activated : WorkflowDefinition}
    (hcurrent : definition.currentVersionId ≠ some id)
    (h : definition.activate id stored = some activated) :
    stored.version = definition.version ∧ activated.version = stored.version + 1 ∧
      activated.currentVersionId = some id := by
  unfold WorkflowDefinition.activate at h
  split_ifs at h with hsame hversion
  · exact absurd hsame.1 hcurrent
  · cases h
    exact ⟨hversion, rfl, flushColumn_of_ne hcurrent.symm _⟩

theorem Sound.publish (h : s.Sound) {definition activated : WorkflowDefinition}
    {loaded new : WorkflowVersion Doc} (hsession : s.session who = some (.marking definition id loaded new))
    (hactivate : definition.activate id s.definition = some activated) :
    ({ s with
        definition := activated
        versions := s.versions.modify id (WorkflowVersion.flush loaded new) }.update who none).Sound := by
  obtain ⟨-, hcurrent, hrow, hloaded, hnew, -⟩ := h.session who _ hsession
  obtain ⟨-, hversion, hid⟩ := activate_spec hcurrent hactivate
  have hmarked : ∀ stored, (WorkflowVersion.flush loaded new stored).isPublished := by
    intro stored
    have hchanged : new.publishedAt ≠ loaded.publishedAt := by
      rw [hloaded]
      exact isSome_iff_ne_none.mp hnew
    have hflush : (WorkflowVersion.flush loaded new stored).publishedAt = new.publishedAt :=
      flushColumn_of_ne hchanged _
    exact (congrArg isSome hflush).trans hnew
  have hstays : ∀ other stored, stored.isPublished →
      (if other = id then WorkflowVersion.flush loaded new stored else stored).isPublished := by
    intro other stored hbefore
    split_ifs
    · exact hmarked stored
    · exact hbefore
  have hlt : s.definition.version < activated.version := by omega
  have hrows := find_modify_eq_map s id (WorkflowVersion.flush loaded new)
  refine h.rewrite hrows (fun other stored ↦ ?_) (fun other stored hstored hdraft ↦ ?_)
    (fun other stored _ ↦ hstays other stored) (fun _ _ _ _ ↦ .inr hlt) hlt.le
    (fun other hother ↦ ?_) rfl
  · split_ifs <;> rfl
  · by_cases hother : other = id
    · rw [if_pos hother] at hdraft
      exact absurd hdraft (isSome_iff_ne_none.mp (hmarked stored))
    · rw [if_neg hother] at hdraft ⊢
      exact h.drafts other stored hstored hdraft
  · obtain rfl := mem_unique hid hother
    obtain ⟨stored, hstored⟩ := isSome_iff_exists.mp hrow
    exact ⟨_, (hrows id).trans (congrArg _ hstored), by dsimp only; rw [if_pos rfl]; exact hmarked stored⟩

omit [DecidableEq Doc] in
theorem hasNumber_iff {number : ℕ} :
    s.hasNumber number ↔ ∃ id version, s.versions.find id = some version ∧ version.version = number := by
  unfold hasNumber
  rw [List.any_eq_true]
  constructor
  · rintro ⟨entry, hentry, hnumber⟩
    exact ⟨entry.1, entry.2, (find_eq_some_iff _ _ _).mpr hentry, of_decide_eq_true hnumber⟩
  · rintro ⟨id, version, hfind, hnumber⟩
    exact ⟨(id, version), (find_eq_some_iff _ _ _).mp hfind, decide_eq_true hnumber⟩

omit [DecidableEq Doc] in
theorem Sound.insert (h : s.Sound) {draft : WorkflowVersion Doc}
    (hsession : s.session who = some (.inserting id draft)) (hid : s.versions.find id = none)
    (hnumber : ¬ s.hasNumber draft.version) :
    ({ s with versions := s.versions.insertNew id draft }.update who none).Sound := by
  obtain ⟨hdraft, hchecksum⟩ := h.session who _ hsession
  have hold : ∀ other version, s.versions.find other = some version →
      (s.versions.insertNew id draft).find other = some version := by
    intro other version hfind
    rw [find_insertNew_of_ne _ _ (by rintro rfl; simp [hid] at hfind)]
    exact hfind
  have hback : ∀ other version, (s.versions.insertNew id draft).find other = some version →
      s.versions.find other = some version ∨ other = id ∧ version = draft := by
    intro other version hfind
    rw [find_insertNew] at hfind
    split_ifs at hfind with hnew
    · exact .inr ⟨hnew.1, (Option.some.inj hfind).symm⟩
    · exact .inl hfind
  have hfresh : ∀ other version, s.versions.find other = some version →
      version.version ≠ draft.version :=
    fun other version hfind hsame ↦ hnumber (hasNumber_iff.mpr ⟨other, version, hfind, hsame⟩)
  have hstays : ∀ other, s.Published other →
      ({ s with versions := s.versions.insertNew id draft }.update who none).Published other := by
    intro other hother
    obtain ⟨version, hfind, hpublished⟩ := hother
    exact ⟨version, hold other version hfind, hpublished⟩
  have hrely : s.Rely ({ s with versions := s.versions.insertNew id draft }.update who none) := by
    refine ⟨le_rfl, fun other hsome ↦ ?_, hstays, fun other hother ↦ .inl ?_⟩
    · obtain ⟨version, hfind⟩ := isSome_iff_exists.mp hsome
      exact isSome_iff_exists.mpr ⟨version, hold other version hfind⟩
    · obtain ⟨version, hfind, hpublished⟩ := hother
      rcases hback other version hfind with hbefore | ⟨-, rfl⟩
      · exact ⟨version, hbefore, hpublished⟩
      · unfold WorkflowVersion.isPublished at hpublished
        rw [hdraft] at hpublished
        exact absurd hpublished (by decide)
  refine h.step hrely ?_ ?_ (fun other hother ↦ hstays other (h.current other hother)) rfl
    fun own hown ↦ absurd hown (by simp)
  · intro first version second version' hfirst hsecond hsame
    rcases hback first version hfirst with hbefore | ⟨rfl, rfl⟩
    · rcases hback second version' hsecond with hbefore' | ⟨rfl, rfl⟩
      · exact h.numbers first version second version' hbefore hbefore' hsame
      · exact absurd hsame (hfresh first version hbefore)
    · rcases hback second version' hsecond with hbefore' | ⟨rfl, -⟩
      · exact absurd hsame.symm (hfresh second version' hbefore')
      · rfl
  · intro other version hfind hnone
    rcases hback other version hfind with hbefore | ⟨-, rfl⟩
    · exact h.drafts other version hbefore hnone
    · exact hchecksum

/-- Every step keeps the invariant. -/
theorem Sound.apply (h : s.Sound) (env : VersioningEnv Doc Graph) (op : VersioningOp Doc) :
    (s.apply env op).Sound := by
  have heffect := apply_effect env s op
  generalize s.apply env op = s' at heffect ⊢
  cases heffect with
  | idle op => exact h
  | closed op who => exact h.update who fun own hown ↦ absurd hown (by simp)
  | saves op who session hsession =>
    refine h.update who fun own hown ↦ ?_
    cases hown
    rcases hsession with ⟨graph, input, output, rfl⟩ | ⟨graph, input, output, rfl⟩ <;> trivial
  | finds who id loaded new hrow hdraft hnew hchecksum =>
    refine h.update who fun own hown ↦ ?_
    cases hown
    have hloaded : loaded.publishedAt = none := WorkflowVersion.publishedAt_of_draft hdraft
    exact ⟨hloaded, h.drafts id loaded hrow hloaded, hnew.trans hloaded, hchecksum⟩
  | numbers who id draft hdraft hchecksum =>
    refine h.update who fun own hown ↦ ?_
    cases hown
    exact ⟨hdraft, hchecksum⟩
  | opens who versionId context =>
    refine h.update who fun own hown ↦ ?_
    cases hown
    exact ⟨le_rfl, h.current⟩
  | marks who now id definition versionId context loaded new hsession hrow hdraft hnew =>
    refine h.update who fun own hown ↦ ?_
    cases hown
    have hcopies : s.Copies definition := h.session who _ hsession
    have hunpublished : ¬ s.Published id := by
      rintro ⟨version, hfind, hpublished⟩
      obtain rfl := mem_unique hfind hrow
      rw [hdraft] at hpublished
      exact absurd hpublished (by decide)
    refine ⟨hcopies, fun hcurrent ↦ hunpublished (hcopies.2 id hcurrent), ?_, ?_, hnew,
      fun hpublished ↦ absurd hpublished hunpublished⟩
    · rw [hrow]
      rfl
    · exact WorkflowVersion.publishedAt_of_draft hdraft
  | edits who id loaded new hsession => exact h.edit hsession
  | inserts who id draft hsession hid hnumber => exact h.insert hsession hid hnumber
  | publishes who id definition activated loaded new hsession hactivate =>
    exact h.publish hsession hactivate

/-! ### Published versions -/

def PublishedKept (s s' : VersioningState Doc Graph) : Prop :=
  ∀ id version, s.versions.find id = some version → version.isPublished →
    ∃ version', s'.versions.find id = some version' ∧ version'.graphJson = version.graphJson ∧
      version'.checksum = version.checksum ∧ version'.isPublished

omit [DecidableEq Doc] in
theorem PublishedKept.refl (s : VersioningState Doc Graph) : s.PublishedKept s :=
  fun _ version hfind hpublished ↦ ⟨version, hfind, rfl, rfl, hpublished⟩

omit [DecidableEq Doc] in
theorem PublishedKept.trans {s'' : VersioningState Doc Graph} (h : s.PublishedKept s')
    (h' : s'.PublishedKept s'') : s.PublishedKept s'' := by
  intro id version hfind hpublished
  obtain ⟨version', hfind', hgraph, hchecksum, hpublished'⟩ := h id version hfind hpublished
  obtain ⟨version'', hfind'', hgraph', hchecksum', hpublished''⟩ := h' id version' hfind' hpublished'
  exact ⟨version'', hfind'', hgraph'.trans hgraph, hchecksum'.trans hchecksum, hpublished''⟩

/-- `save_draft` commits a draft that nobody has published meanwhile, or it changes no graph: the new one
is the one it has read, or the one that is stored. -/
def InTime (s : VersioningState Doc Graph) : VersioningOp Doc → Prop
  | .commit who =>
    ∀ id loaded new stored, s.session who = some (.editing id loaded new) →
      s.versions.find id = some stored → stored.isPublished →
      new.graphJson = loaded.graphJson ∨ new.graphJson = stored.graphJson
  | _ => True

omit [DecidableEq Doc] in
/-- A step after which every row that is there is still there. -/
theorem publishedKept_of_find (h : ∀ id version, s.versions.find id = some version →
    version.isPublished → s'.versions.find id = some version) : s.PublishedKept s' :=
  fun id version hfind hpublished ↦ ⟨version, h id version hfind hpublished, rfl, rfl, hpublished⟩

theorem publishedKept_of_inTime (hsound : s.Sound) (env : VersioningEnv Doc Graph)
    {op : VersioningOp Doc} (h : s.InTime op) : s.PublishedKept (s.apply env op) := by
  have heffect := apply_effect env s op
  generalize s.apply env op = s' at heffect ⊢
  cases heffect with
  | idle op | closed op who | saves op who session hsession => exact .refl s
  | finds who id loaded new hrow hdraft hnew hchecksum | numbers who id draft hdraft hchecksum => exact .refl s
  | opens who versionId context => exact .refl s
  | marks who now id definition versionId context loaded new hsession hrow hdraft hnew => exact .refl s
  | edits who id loaded new hsession =>
    obtain ⟨hloaded, hchecksum, hnew, hchecksum'⟩ := hsound.session who _ hsession
    intro other stored hfind hpublished
    have hrow := (find_modify_eq_map s id (WorkflowVersion.flush loaded new) other).trans
      (congrArg _ hfind)
    refine ⟨_, hrow, ?_⟩
    dsimp only
    split_ifs with hother
    · subst hother
      obtain ⟨hpublishedAt, hsame⟩ := flush_of_draft stored hloaded hchecksum hnew hchecksum'
      refine ⟨?_, hsame, (congrArg isSome hpublishedAt).trans hpublished⟩
      exact flushColumn_eq_stored_iff.mpr (h other loaded new stored hsession hfind hpublished)
    · exact ⟨rfl, rfl, hpublished⟩
  | inserts who id draft hsession hid hnumber =>
    refine publishedKept_of_find fun other version hfind _ ↦ ?_
    exact (find_insertNew_of_ne _ _ (by rintro rfl; simp [hid] at hfind)).trans hfind
  | publishes who id definition activated loaded new hsession hactivate =>
    obtain ⟨-, hcurrent, -, -, -, hstale⟩ := hsound.session who _ hsession
    obtain ⟨hversion, -⟩ := activate_spec hcurrent hactivate
    refine publishedKept_of_find fun other version hfind hpublished ↦ ?_
    -- somebody else has published the version: then the copy of the definition would be stale
    have hother : other ≠ id := by
      rintro rfl
      have hlt := hstale ⟨version, hfind, hpublished⟩
      omega
    exact (find_modify_of_ne _ _ hother).trans hfind

theorem inTime_of_publishedKept (env : VersioningEnv Doc Graph) {op : VersioningOp Doc}
    (h : s.PublishedKept (s.apply env op)) : s.InTime op := by
  cases op with
  | commit who =>
    intro id loaded new stored hsession hfind hpublished
    obtain ⟨version, hversion, hgraph, -⟩ := h id stored hfind hpublished
    unfold apply at hversion
    dsimp only at hversion
    rw [hsession] at hversion
    have hrow := (find_modify_self s.versions id (WorkflowVersion.flush loaded new)).trans
      (congrArg _ hfind)
    obtain rfl := mem_unique hrow hversion
    exact flushColumn_eq_stored_iff.mp hgraph
  | _ => trivial

omit [DecidableEq Doc] in
theorem sound_fresh : Sound ({} : VersioningState Doc Graph) where
  numbers := fun _ _ _ _ hfind ↦ absurd hfind (by simp [find])
  drafts := fun _ _ hfind ↦ absurd hfind (by simp [find])
  current := fun _ hid ↦ absurd hid (by simp)
  session := fun _ _ hsession ↦ absurd hsession (by simp)

/-- In every run on a new definition: between any two moments, published versions keep graph and checksum,
and in every state the numbers of versions are unique, if and only if every commit of a draft is in time.
-/
theorem published_kept_iff (env : VersioningEnv Doc Graph) (ops : List (VersioningOp Doc)) :
    ((∀ before between after, ops = before ++ between ++ after →
        PublishedKept (play (apply env) before {})
          (play (apply env) between (play (apply env) before {}))) ∧
      ∀ before after, ops = before ++ after → ∀ id version id' version',
        (play (apply env) before {}).versions.find id = some version →
        (play (apply env) before {}).versions.find id' = some version' →
        version.version = version'.version → id = id') ↔
      Along (apply env) InTime ops {} := by
  have hnumbers : ∀ before after, ops = before ++ after → ∀ id version id' version',
      (play (apply env) before {}).versions.find id = some version →
      (play (apply env) before {}).versions.find id' = some version' →
      version.version = version'.version → id = id' := by
    intro before after _
    have hsound : (play (apply env) before {}).Sound :=
      play_invariant (fun s op (hs : s.Sound) ↦ hs.apply env op) before sound_fresh
    exact hsound.numbers
  rw [and_iff_left hnumbers]
  rw [← along_related_iff PublishedKept.refl PublishedKept.trans]
  exact along_congr (fun _ op hs _ ↦ Sound.apply hs env op)
    (fun _ op hs ↦ ⟨inTime_of_publishedKept env, publishedKept_of_inTime hs env⟩) ops sound_fresh

/-- In every state the current version of the definition is a published one, and a draft has no checksum. -/
theorem current_version_published (env : VersioningEnv Doc Graph) (ops : List (VersioningOp Doc)) :
    let s := play (apply env) ops {}
    (∀ id, s.definition.currentVersionId = some id → s.Published id) ∧
      ∀ id version, s.versions.find id = some version → version.publishedAt = none → version.checksum = none := by
  have hsound : (play (apply env) ops {}).Sound :=
    play_invariant (fun s op (hs : s.Sound) ↦ hs.apply env op) ops sound_fresh
  exact ⟨hsound.current, hsound.drafts⟩

/-! ### A draft published under the hands of its editor -/

/-- A graph with one node, in the schema version of new publishes. -/
def triggerGraph (label : String) : Json :=
  .obj
    [("schema_version", .int 2),
      ("nodes", .arr [.obj [("id", .str "start"), ("type", .str "trigger.manual"), ("label", .str label)]]),
      ("edges", .arr [])]

/-- The platform on graphs that are normalized and valid. -/
def normalizedEnv : VersioningEnv Json Json where
  sanitizeWorkflowGraph := some
  modelDump := fun graph ↦ graph
  schemaVersion := fun _ ↦ 2
  withSchemaVersion := fun _ graph ↦ graph
  sanitizeMapping := fun value ↦ value.getD (.obj [])
  isTruthy := Json.truthy
  validateGraph := fun graph _ ↦
    { valid := true
      normalizedGraph := some graph
      checksum := some "sha256" }

/-- A draft is saved; a second editor reads it; it is published; the second editor commits. -/
def lateDraft : List (VersioningOp Json) :=
  [.saveDraft 0 (triggerGraph "first") none none, .readLatest 0, .readNumber 0 1, .commit 0,
    .saveDraft 1 (triggerGraph "second") none none, .readLatest 1, .publish 2 none {},
    .readVersion 2 0, .commit 2, .commit 1]

/-- The published version has got the graph of the late draft, under the checksum of the old one. -/
theorem lateDraft_changes_published :
    ((play (apply normalizedEnv) (lateDraft.take 9) {}).versions.find 1).map
        (fun version ↦ (version.isPublished, version.graphJson, version.checksum)) =
      some (true, triggerGraph "first", some "sha256") ∧
    ((play (apply normalizedEnv) lateDraft {}).versions.find 1).map
        (fun version ↦ (version.isPublished, version.graphJson, version.checksum)) =
      some (true, triggerGraph "second", some "sha256") ∧
    triggerGraph "first" ≠ triggerGraph "second" := by
  decide +kernel

end VersioningState

end ContentGenerator.Workflows

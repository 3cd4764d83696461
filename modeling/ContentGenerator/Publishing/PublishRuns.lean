import ContentGenerator.Publishing.PublishKeys
import ContentGenerator.Workflows.InputColumns
import ContentGenerator.Workflows.ResolveInputs

/-!
# The publication keys of a run

The key of a publication is put together in four places: the legacy router supplies one for the run, a claim
writes the execution key of the row, `apply_side_effect_idempotency` hands the execution key on, and
`build_publish_idempotency_key` appends the account and the variant. In a run that is supplied with no key of
its own, every attempt at a publish row hands on the same client key (`PublishAttempt.clientKey`), since what
earlier attempts have left in the columns of the row is that key again (`publishColumns`).
`publishing_keys_iff` says when the keys of two rows differ.
-/

namespace ContentGenerator.Publishing

open Lib Workflows Relation List Option JsonObject
open Uuid (repeated)

variable {others : ResolveArgs → Except PyException JsonObject} {schemaVersion : ℕ} {text : String}
  {runId : Uuid}

/-! ### Dictionaries without a key -/

/-- The dictionary gives no idempotency key, and neither do the upstream outputs it carries. -/
inductive KeyFree : JsonObject → Prop
  | intro {d : JsonObject}
      (noKey : ∀ field ∈ d, field.1 = "idempotency_key" → field.2.truthy = false)
      (upstream : ∀ field ∈ d, field.1 = "upstream" → KeyFree (asDict (some field.2))) : KeyFree d

/-- The only idempotency key that the field may give is the one of the client. -/
def GivesAtMost (client : String) (field : String × Json) : Prop :=
  (field.1 = "idempotency_key" → field.2.truthy = true → field.2 = .str client) ∧
    (field.1 = "upstream" → KeyFree (asDict (some field.2)))

/-- The only idempotency key that the dictionary may give is the one of the client. -/
def GivesOnly (client : String) (d : JsonObject) : Prop := ∀ field ∈ d, GivesAtMost client field

section Dictionaries

variable {client key : String} {d d' seeded : JsonObject} {value : Json} {field : String × Json}

theorem KeyFree.nil : KeyFree [] := .intro (fun _ hmem ↦ by cases hmem) (fun _ hmem ↦ by cases hmem)

theorem KeyFree.of_names
    (h : ∀ field ∈ d, field.1 ≠ "idempotency_key" ∧ field.1 ≠ "upstream") : KeyFree d :=
  .intro (fun field hmem hname ↦ absurd hname (h field hmem).1)
    fun field hmem hname ↦ absurd hname (h field hmem).2

theorem KeyFree.givesOnly (h : KeyFree d) (client : String) : GivesOnly client d := by
  obtain ⟨hnoKey, hupstream⟩ := h
  intro field hmem
  refine ⟨fun hname htruthy ↦ ?_, hupstream field hmem⟩
  rw [hnoKey field hmem hname] at htruthy
  exact absurd htruthy (by decide)

theorem GivesOnly.set (h : GivesOnly client d) (hfield : GivesAtMost client (key, value)) :
    GivesOnly client (d.set key value) := by
  intro field hmem
  rcases JsonObject.mem_set hmem with hold | rfl
  · exact h field hold
  · exact hfield

theorem GivesOnly.update (h : GivesOnly client d) (h' : GivesOnly client d') :
    GivesOnly client (update d d') := by
  intro field hmem
  rcases mem_update hmem with hold | hnew
  · exact h field hold
  · exact h' field hnew

theorem GivesOnly.fillBlanks (h : GivesOnly client d) (h' : GivesOnly client d') :
    GivesOnly client (fillBlanks d d') := by
  unfold Workflows.fillBlanks
  refine foldl_invariant (P := GivesOnly client) (fun acc field hmem hacc ↦ ?_) h
  split_ifs
  · exact hacc.set (h' field hmem)
  · exact hacc

/-- The upstream output that a dictionary carries. -/
theorem GivesOnly.upstream (h : GivesOnly client d) : KeyFree (asDict (d.get "upstream")) := by
  cases hget : d.get "upstream" with
  | none => exact .nil
  | some value => exact (h _ (mem_of_get hget)).2 rfl

theorem GivesOnly.seedInputs (h : GivesOnly client d) (hseeded : GivesOnly client seeded) :
    GivesOnly client (seedInputs d seeded) :=
  (h.fillBlanks fun field hmem ↦ hseeded field (mem_of_mem_filter hmem)).fillBlanks
    (hseeded.upstream.givesOnly client)

theorem get_fillBlanks_of_not_blank (h : isBlankInput (d.get key) = false) (d' : JsonObject) :
    (fillBlanks d d').get key = d.get key := by
  unfold Workflows.fillBlanks
  refine foldl_invariant (P := fun acc : JsonObject ↦ acc.get key = d.get key)
    (fun acc field _ hacc ↦ ?_) rfl
  split_ifs with hblank
  · rw [get_set_of_ne, hacc]
    rintro rfl
    rw [hacc, h] at hblank
    exact absurd hblank (by decide)
  · exact hacc

theorem isBlankInput_str (h : text ≠ "") : isBlankInput (some (.str text)) = false := by
  unfold isBlankInput
  split <;> simp_all

theorem truthy_str (h : text ≠ "") : Json.truthy (.str text) = true := decide_eq_true h

theorem get_seedInputs_of_not_blank (h : isBlankInput (d.get key) = false) (seeded : JsonObject) :
    (seedInputs d seeded).get key = d.get key := by
  have hfilled := get_fillBlanks_of_not_blank h (seeded.filter fun field ↦ field.1 ≠ "upstream")
  unfold Workflows.seedInputs
  rw [get_fillBlanks_of_not_blank (hfilled ▸ h), hfilled]

end Dictionaries

/-! ### Runs without a key -/

/-- The inputs that the other parts of a run supply to a node: what its ports receive, or the bag. -/
def suppliedInputs (args : ResolveArgs) : JsonObject :=
  if 2 ≤ args.graph.schemaVersionOrOne then args.portInputs.inputs else args.bag

/-- Nothing that an attempt at a publish node is supplied with gives an idempotency key. -/
def AttemptKeyFree (env : EngineEnv) (st : EngineState) (id : RowId) (begun : NodeRun) : Prop :=
  ∀ graphNode impl, env.graph.node? id.nodeId = some graphNode → graphNode.type = "publish" →
    env.registry.get graphNode.type graphNode.version = some impl →
    KeyFree (suppliedInputs (resolveArgs env st.run (st.nodes.put id begun) graphNode impl
      (asDict (st.run.contextSnapshot.get "node_outputs"))
      (asDict (st.run.contextSnapshot.get "initial_inputs"))))

/-- No caller supplies an idempotency key: neither do the outputs and items that an operation hands on, nor
the inputs that an attempt finds. -/
structure SuppliesNoKey (env : EngineEnv) (now : Time) (op : Op) (st : EngineState) : Prop where
  outputs : ∀ h, op.handOff env now st = some h → KeyFree h.finish.output
  items : ∀ h, op.handOff env now st = some h →
    ∀ keyed ∈ uniqueIterationKeys env.render (fanOutItems h.finish.output),
      KeyFree (seedIterationInputs keyed.2 keyed.1 h.finish.id.nodeId)
  attempts : ∀ args token worker draw begun, op = .execute args token worker draw →
    st.Begins env now args token worker begun → AttemptKeyFree env st args.row begun

def executionKeyOf (env : EngineEnv) (id : RowId) (node : GraphNode) : String :=
  buildExecutionKey env.runId id.nodeId node.versionOrOne id.iterationKey

/-- The client key that the attempts at a row of a publish node hand on. -/
def clientKeyOf (env : EngineEnv) (id : RowId) (node : GraphNode) : String :=
  if 2 ≤ env.graph.schemaVersionOrOne then executionKeyOf env id node else s!"wf-publish-{env.runId}"

structure PublishColumns (env : EngineEnv) (node : GraphNode) (id : RowId) (row : NodeRun) : Prop where
  version : (if row.nodeVersion = 0 then 1 else row.nodeVersion) = node.versionOrOne
  executionKey : ∀ key, row.executionKey = some key → key = executionKeyOf env id node
  inputs : GivesOnly (clientKeyOf env id node) row.inputJson

def PublishRow (env : EngineEnv) (id : RowId) (row : NodeRun) : Prop :=
  ∀ node, env.graph.node? id.nodeId = some node → node.type = "publish" → PublishColumns env node id row

section Runs

variable {env : EngineEnv} {now : Time} {st : EngineState} {id : RowId} {node graphNode : GraphNode}
  {begun : NodeRun} {prepared : Prepared}

theorem versionOrOne_normalised (node : GraphNode) :
    (if node.versionOrOne = 0 then 1 else node.versionOrOne) = node.versionOrOne := by
  unfold GraphNode.versionOrOne
  split_ifs <;> simp_all

/-- A row that a hand-off creates for an iteration. -/
theorem publishRow_iterationRow {seeds : JsonObject} (hnode : env.graph.node? id.nodeId = some node)
    (hseeds : KeyFree seeds) : PublishRow env id (node.iterationRow seeds) := by
  intro other hother _
  obtain rfl := mem_unique hnode hother
  exact ⟨versionOrOne_normalised node, fun key hkey ↦ absurd hkey (by simp [GraphNode.iterationRow]),
    hseeds.givesOnly _⟩

theorem publishRule (env : EngineEnv) : InputRule env (PublishRow env) where
  congr := by
    intro id row row' h hsame node hnode hpublish
    obtain ⟨hversion, hkey, hinputs⟩ := h node hnode hpublish
    refine ⟨?_, ?_, ?_⟩
    · rw [hsame.nodeVersion]
      exact hversion
    · rw [hsame.executionKey]
      exact hkey
    · rw [hsame.inputJson]
      exact hinputs
  claims := by
    intro id row h node hnode hpublish
    obtain ⟨hversion, -, hinputs⟩ := h node hnode hpublish
    refine ⟨hversion, fun key hkey ↦ ?_, hinputs⟩
    rw [← Option.some.inj hkey, hversion]
    rfl
  resets := by
    intro id row h node hnode hpublish
    obtain ⟨hversion, hkey, -⟩ := h node hnode hpublish
    exact ⟨hversion, hkey, KeyFree.nil.givesOnly _⟩
  starts := by
    intro node hnode other hother _
    obtain rfl := mem_unique hnode hother
    exact ⟨rfl, fun key hkey ↦ absurd hkey (by simp [startRow]), KeyFree.nil.givesOnly _⟩

theorem seedsHold_of_suppliesNoKey {op : Op} (h : SuppliesNoKey env now op st) {handOff : HandOff}
    (hop : op.handOff env now st = some handOff) : SeedsHold env (PublishRow env) handOff where
  created node hnode keyed hkeyed := publishRow_iterationRow hnode (h.items handOff hop keyed hkeyed)
  reused node _ keyed hkeyed row hrow other hother hpublish := by
    obtain ⟨hversion, hkey, hinputs⟩ := hrow other hother hpublish
    exact ⟨hversion, hkey, hinputs.update ((h.items handOff hop keyed hkeyed).givesOnly _)⟩
  downstream node hnode := by
    refine publishRow_iterationRow hnode (.intro (fun field hmem hname ↦ ?_) fun field hmem hname ↦ ?_)
    · rcases mem_cons.mp hmem with rfl | hmem
      · simp at hname
      · rw [mem_singleton.mp hmem] at hname
        simp at hname
    · rcases mem_cons.mp hmem with rfl | hmem
      · simp at hname
      · rw [mem_singleton.mp hmem]
        exact h.outputs handOff hop

/-! ### What an attempt hands on -/

variable {args : ResolveArgs} {resolved : JsonObject}

theorem legacy_inputs (hfree : KeyFree args.bag) (h : resolveLegacyNodeInputs others args = .ok resolved)
    (hpublish : args.graphNode.type = "publish") :
    resolved.get "idempotency_key" = some (.str s!"wf-publish-{args.runId}") ∧
      GivesOnly s!"wf-publish-{args.runId}" resolved := by
  have hbag : getTruthy args.bag "idempotency_key" = none := by
    obtain ⟨hnoKey, -⟩ := hfree
    unfold getTruthy
    refine filter_eq_none_iff.mpr fun value hvalue ↦ ?_
    rw [hnoKey _ (mem_of_get hvalue) rfl]
    decide
  rw [resolveLegacyNodeInputs, if_pos hpublish] at h
  obtain ⟨rest, rfl, hrest⟩ := legacyPublishInputs_key hbag h
  have hget : rest.get "idempotency_key" = none :=
    get_eq_none_iff.mpr fun field hmem ↦ (hrest field hmem).1
  refine ⟨by rw [get_append_singleton, hget, none_or, if_pos rfl], fun field hmem ↦ ?_⟩
  rcases mem_append.mp hmem with hold | hnew
  · exact ⟨fun hname ↦ absurd hname (hrest field hold).1, fun hname ↦ absurd hname (hrest field hold).2⟩
  · rw [mem_singleton.mp hnew]
    exact ⟨fun _ _ ↦ rfl, fun hname ↦ absurd hname (by simp)⟩

theorem sideEffect_key {client executionKey : String} {inputs : JsonObject} (h : GivesOnly client inputs)
    (hkey : getTruthy inputs "idempotency_key" = none →
      applySideEffectIdempotency "publish" inputs executionKey =
        inputs.set "idempotency_key" (.str client)) :
    (applySideEffectIdempotency "publish" inputs executionKey).get "idempotency_key" =
        some (.str client) ∧
      GivesOnly client (applySideEffectIdempotency "publish" inputs executionKey) := by
  cases htruthy : getTruthy inputs "idempotency_key" with
  | none =>
    rw [hkey htruthy]
    exact ⟨get_set_self _ _ _, h.set ⟨fun _ _ ↦ rfl, fun hname ↦ absurd hname (by simp)⟩⟩
  | some value =>
    obtain ⟨hget, hvalue⟩ := filter_eq_some_iff.mp htruthy
    have hclient : value = .str client := (h _ (mem_of_get hget)).1 rfl hvalue
    rw [applySideEffectIdempotency, if_neg (fun hnone ↦ by simp [htruthy] at hnone), hget, hclient]
    exact ⟨rfl, h⟩

/-- The key that the legacy router gives for a run is not empty. -/
theorem runKey_ne_empty (runId : String) : s!"wf-publish-{runId}" ≠ "" := by
  intro hempty
  have hlength : "wf-publish-".length + runId.length = "".length := by
    rw [← String.length_append]
    exact congrArg String.length hempty
  simp at hlength

theorem prepare_publish (henv : env.resolveNodeInputs = resolveNodeInputs others)
    (hrun : env.runId = runId.text) (hnode : env.graph.node? id.nodeId = some graphNode)
    (hpublish : graphNode.type = "publish") (hcolumns : PublishColumns env graphNode id begun)
    (hfree : AttemptKeyFree env st id begun) (h : st.prepare env graphNode id begun = .ok prepared) :
    prepared.executionKey = executionKeyOf env id graphNode ∧
      prepared.inputs.get "idempotency_key" = some (.str (clientKeyOf env id graphNode)) ∧
      GivesOnly (clientKeyOf env id graphNode) prepared.inputs := by
  obtain ⟨himpl, hexecution, resolved, hresolved, -, hinputs⟩ := prepareInputs_cases h
  have hid : graphNode.id = id.nodeId := WorkflowGraph.id_of_node? hnode
  have hattempt : prepared.executionKey = executionKeyOf env id graphNode := by
    rw [hexecution, attemptKey, hid]
    cases hkey : begun.executionKey.filter (· ≠ "") with
    | none => rfl
    | some key => exact hcolumns.executionKey key (filter_eq_some_iff.mp hkey).1
  refine ⟨hattempt, ?_⟩
  have hsupplied := hfree graphNode prepared.impl hnode hpublish himpl
  rw [henv] at hresolved
  rw [suppliedInputs] at hsupplied
  rw [hinputs, hpublish, hattempt, seededInputs, if_neg (by decide)]
  have hversion : (resolveArgs env st.run (st.nodes.put id begun) graphNode prepared.impl
      (asDict (st.run.contextSnapshot.get "node_outputs"))
      (asDict (st.run.contextSnapshot.get "initial_inputs"))).graph.schemaVersionOrOne =
        env.graph.schemaVersionOrOne := rfl
  by_cases hports : 2 ≤ env.graph.schemaVersionOrOne
  · rw [resolveNodeInputs, if_pos (hversion ▸ hports)] at hresolved
    rw [if_pos (hversion ▸ hports)] at hsupplied
    rw [← Except.ok.inj hresolved]
    have hclient : clientKeyOf env id graphNode = executionKeyOf env id graphNode := if_pos hports
    refine sideEffect_key ((hsupplied.givesOnly _).seedInputs hcolumns.inputs) fun hnone ↦ ?_
    rw [hclient, executionKeyOf, hrun]
    exact applySideEffectIdempotency_executionKey runId _ _ _ hnone
  · have hlegacy := (legacy_of_resolveNodeInputs (hversion ▸ hports) hresolved).1
    rw [if_neg (hversion ▸ hports)] at hsupplied
    have hclient : clientKeyOf env id graphNode = s!"wf-publish-{env.runId}" := if_neg hports
    obtain ⟨hget, honly⟩ := legacy_inputs hsupplied hlegacy hpublish
    refine sideEffect_key (.seedInputs (hclient ▸ honly) hcolumns.inputs) fun hnone ↦ ?_
    have hblank : isBlankInput (resolved.inputs.get "idempotency_key") = false := by
      rw [hget]
      exact isBlankInput_str (runKey_ne_empty _)
    rw [getTruthy, get_seedInputs_of_not_blank hblank, hget, filter_some,
      if_pos (truthy_str (runKey_ne_empty _))] at hnone
    simp at hnone

/-- In a run that is supplied with no key, the columns of every publish row hold no other key than its own. -/
theorem publishColumns (henv : env.resolveNodeInputs = resolveNodeInputs others)
    (hrun : env.runId = runId.text) (hst : Reachable env (SuppliesNoKey env) st) :
    RowsHold (PublishRow env) st.nodes := by
  refine Reachable.rowsHold (publishRule env) (fun now op st hop _ ↦ ?_) hst
  refine ⟨fun h hhandOff ↦ seedsHold_of_suppliesNoKey hop hhandOff, ?_⟩
  intro args token worker draw begun hexecute hbegins graphNode prepared hnode hprepare hbegun other hother
    hpublish
  obtain rfl := mem_unique hnode hother
  have hcolumns := hbegun graphNode hnode hpublish
  obtain ⟨hkey, -, hinputs⟩ := prepare_publish henv hrun hnode hpublish hcolumns
    (hop.attempts args token worker draw begun hexecute hbegins) hprepare
  exact ⟨hcolumns.version, fun key hsome ↦ (Option.some.inj hsome).symm.trans hkey, hinputs⟩

end Runs

/-! ### Keys of attempts -/

/-- An attempt at a publish row, in a run that is supplied with no idempotency key. -/
structure PublishAttempt (env : EngineEnv) where
  now : Time
  args : ExecuteArgs
  token : ℕ
  worker : Option String
  st : EngineState
  begun : NodeRun
  graphNode : GraphNode
  prepared : Prepared
  reachable : Reachable env (SuppliesNoKey env) st
  begins : st.Begins env now args token worker begun
  node : env.graph.node? args.row.nodeId = some graphNode
  publish : graphNode.type = "publish"
  keyFree : AttemptKeyFree env st args.row begun
  prepares : st.prepare env graphNode args.row begun = .ok prepared

namespace PublishAttempt

variable {env : EngineEnv}

/-- `typed_in.idempotency_key`. -/
def clientKey (attempt : PublishAttempt env) : Option String :=
  match attempt.prepared.inputs.get "idempotency_key" with
  | some (.str key) => some key
  | _ => none

def publishingKey (attempt : PublishAttempt env) (isoFormat : Time → String) (contentJobId account : Uuid)
    (scheduledFor : Option Time) (dryRun : Bool) (variant : Option Uuid) : String :=
  buildPublishIdempotencyKey isoFormat contentJobId account scheduledFor dryRun "publish" attempt.clientKey
    variant

/-- The row as the execution key spells it: node, version and iteration. -/
def rowText (attempt : PublishAttempt env) : String :=
  let base := s!"{attempt.args.row.nodeId}:v{attempt.graphNode.versionOrOne}"
  if attempt.args.row.iterationKey = "" then base else s!"{base}:{attempt.args.row.iterationKey}"

/-- Every attempt at a row hands on the client key of the row. -/
theorem clientKey_eq
    (henv : env.resolveNodeInputs = resolveNodeInputs others) (hrun : env.runId = runId.text)
    (attempt : PublishAttempt env) :
    attempt.clientKey = some (clientKeyOf env attempt.args.row attempt.graphNode) := by
  obtain ⟨row, hrow, hbegun⟩ := bind_eq_some_iff.mp attempt.begins
  have hcolumns := (publishRule env).congr (publishColumns henv hrun attempt.reachable _ row hrow)
    (beginNodeExecution_sameInput hbegun)
  obtain ⟨-, hget, -⟩ := prepare_publish henv hrun attempt.node attempt.publish
    (hcolumns _ attempt.node attempt.publish) attempt.keyFree attempt.prepares
  rw [clientKey, hget]

theorem clientKeyOf_ne_empty (hrun : env.runId = runId.text) (id : RowId) (node : GraphNode) :
    clientKeyOf env id node ≠ "" := by
  unfold clientKeyOf executionKeyOf
  split_ifs
  · rw [hrun]
    exact buildExecutionKey_ne_empty _ _ _ _
  · exact runKey_ne_empty _

theorem executionKeyOf_eq (attempt : PublishAttempt env) :
    executionKeyOf env attempt.args.row attempt.graphNode = env.runId ++ (":" ++ attempt.rowText) := by
  unfold executionKeyOf buildExecutionKey rowText
  dsimp only
  split_ifs
  · change env.runId ++ ":" ++ _ ++ ":v" ++ _ = env.runId ++ (":" ++ (_ ++ ":v" ++ _))
    simp only [String.append_assoc]
  · change env.runId ++ ":" ++ _ ++ ":v" ++ _ ++ ":" ++ _ = env.runId ++ (":" ++ (_ ++ ":v" ++ _ ++ ":" ++ _))
    simp only [String.append_assoc]

/-- What the key of a publication appends to the client key. -/
def publicationSuffix (account : Uuid) : Option Uuid → String
  | some variant => ":" ++ account.text ++ ":" ++ variant.text
  | none => ":" ++ account.text

theorem buildPublishIdempotencyKey_client (isoFormat : Time → String) (contentJobId account : Uuid)
    (scheduledFor : Option Time) (dryRun : Bool) (intent : String) {key : String} (hkey : key ≠ "")
    (variant : Option Uuid) :
    buildPublishIdempotencyKey isoFormat contentJobId account scheduledFor dryRun intent (some key) variant =
      key ++ publicationSuffix account variant := by
  unfold buildPublishIdempotencyKey
  rw [filter_some, if_pos (decide_eq_true hkey)]
  cases variant with
  | none => rw [publicationSuffix, ← String.append_assoc]
  | some variant => simp only [publicationSuffix, String.append_assoc]

/-- The key of a publication is the client key of the row with account and variant. -/
theorem publishingKey_eq
    (henv : env.resolveNodeInputs = resolveNodeInputs others) (hrun : env.runId = runId.text)
    (attempt : PublishAttempt env) (isoFormat : Time → String) (contentJobId account : Uuid)
    (scheduledFor : Option Time) (dryRun : Bool) (variant : Option Uuid) :
    attempt.publishingKey isoFormat contentJobId account scheduledFor dryRun variant =
      clientKeyOf env attempt.args.row attempt.graphNode ++ publicationSuffix account variant := by
  rw [publishingKey, attempt.clientKey_eq henv hrun]
  exact buildPublishIdempotencyKey_client _ _ _ _ _ _ (clientKeyOf_ne_empty hrun _ _) _

/-- What follows the node id in the text of a row. -/
def textTail (attempt : PublishAttempt env) : List Char :=
  'v' :: (toString attempt.graphNode.versionOrOne).toList ++
    if attempt.args.row.iterationKey = "" then [] else ':' :: attempt.args.row.iterationKey.toList

theorem toList_rowText (attempt : PublishAttempt env) :
    attempt.rowText.toList = attempt.args.row.nodeId.toList ++ ':' :: attempt.textTail := by
  unfold rowText textTail
  dsimp only
  split_ifs
  · change (_ ++ ":v" ++ _ : String).toList = _
    simp only [String.toList_append, append_assoc, append_nil]
    rfl
  · change (_ ++ ":v" ++ _ ++ ":" ++ _ : String).toList = _
    simp only [String.toList_append, append_assoc]
    rfl

/-- Rows of nodes without a colon in their ids are spelled differently. -/
theorem rowText_ne_of_colonFree {attempt attempt' : PublishAttempt env}
    (hcolon : ':' ∉ attempt.args.row.nodeId.toList) (hcolon' : ':' ∉ attempt'.args.row.nodeId.toList)
    (hrows : attempt.args.row ≠ attempt'.args.row) : attempt.rowText ≠ attempt'.rowText := by
  intro htext
  have hlist := congrArg String.toList htext
  rw [toList_rowText, toList_rowText] at hlist
  -- the first colon ends the node id
  have hlength : attempt.args.row.nodeId.toList.length = attempt'.args.row.nodeId.toList.length := by
    have hfirst := congrArg (idxOf ':') hlist
    rwa [idxOf_append_of_notMem hcolon, idxOf_append_of_notMem hcolon', idxOf_cons_self,
      idxOf_cons_self] at hfirst
  obtain ⟨hid, htail⟩ := append_inj hlist hlength
  have hnodeId := String.toList_inj.mp hid
  have hnode : attempt.graphNode = attempt'.graphNode :=
    mem_unique attempt.node (hnodeId ▸ attempt'.node)
  have hkeys : attempt.args.row.iterationKey = attempt'.args.row.iterationKey := by
    have hrest : attempt.textTail = attempt'.textTail := (cons.inj htail).2
    unfold textTail at hrest
    rw [hnode] at hrest
    have hsuffix := append_cancel_left hrest
    split_ifs at hsuffix with hplain hplain' hplain'
    · rw [hplain, hplain']
    · exact String.toList_inj.mp (cons.inj hsuffix).2
  exact hrows (congrArg₂ RowId.mk hnodeId hkeys)

end PublishAttempt

/-- When the keys of publications to one account and variant are as they should be: the attempts at one row
always agree, and those at two rows differ when the inputs come from ports and the rows are spelled
differently. -/
theorem publishing_keys_iff {env : EngineEnv} {others : ResolveArgs → Except PyException JsonObject}
    (henv : env.resolveNodeInputs = resolveNodeInputs others) {runId : Uuid} (hrun : env.runId = runId.text)
    (isoFormat : Time → String) (attempt attempt' : PublishAttempt env)
    (contentJobId contentJobId' account : Uuid) (scheduledFor scheduledFor' : Option Time)
    (dryRun dryRun' : Bool) (variant : Option Uuid) :
    (attempt.args.row = attempt'.args.row →
        attempt.publishingKey isoFormat contentJobId account scheduledFor dryRun variant =
          attempt'.publishingKey isoFormat contentJobId' account scheduledFor' dryRun' variant) ∧
      (attempt.args.row ≠ attempt'.args.row →
        (attempt.publishingKey isoFormat contentJobId account scheduledFor dryRun variant ≠
            attempt'.publishingKey isoFormat contentJobId' account scheduledFor' dryRun' variant ↔
          2 ≤ env.graph.schemaVersionOrOne ∧ attempt.rowText ≠ attempt'.rowText)) := by
  rw [attempt.publishingKey_eq henv hrun, attempt'.publishingKey_eq henv hrun]
  refine ⟨fun hrows ↦ ?_, fun _ ↦ ?_⟩
  · have hnode : attempt.graphNode = attempt'.graphNode :=
      mem_unique attempt.node (hrows ▸ attempt'.node)
    rw [hrows, hnode]
  · rw [Ne, String.append_left_inj]
    unfold clientKeyOf
    split_ifs with hports
    · rw [attempt.executionKeyOf_eq, attempt'.executionKeyOf_eq, String.append_right_inj,
        String.append_right_inj]
      exact ⟨fun hdiffer ↦ ⟨hports, hdiffer⟩, fun hdiffer ↦ hdiffer.2⟩
    · exact iff_of_false (fun hdiffer ↦ hdiffer rfl) fun hdiffer ↦ hports hdiffer.1

/-! ### Two publish nodes -/

/-- A trigger with two publish nodes after it. -/
def publishPairGraph (schemaVersion : ℕ) : WorkflowGraph where
  schemaVersion := schemaVersion
  nodes :=
    [{ id := "t", type := "manual_trigger" }, { id := "p", type := "publish" },
      { id := "q", type := "publish" }]
  edges := [{ source := "t", target := "p" }, { source := "t", target := "q" }]

/-- The environment of its runs; of the other branches of the legacy router there is that of the trigger. -/
def publishPairEnv (schemaVersion : ℕ) : EngineEnv :=
  { catalogueEnv (publishPairGraph schemaVersion) repairedGlobals with
    runId := (repeated 7).text
    resolveNodeInputs := resolveNodeInputs fun args ↦
      .ok [("payload",
        .obj (if args.triggerPayload.isEmpty then args.initialInputs else args.triggerPayload))] }

def publishPairOutput : JsonObject := [("payload", .obj []), ("trigger_type", .str "manual_trigger")]

/-- The run in which the trigger has succeeded and both publish nodes are claimed. -/
def publishPairRun (schemaVersion : ℕ) : EngineState :=
  (publishPairEnv schemaVersion).play [(1, execSucceeds "t" "" 0 publishPairOutput)]
    (startRun (publishPairEnv schemaVersion) 0 .inline [] [])

theorem publishPair_reachable (hversion : schemaVersion = 1 ∨ schemaVersion = 2) :
    Reachable (publishPairEnv schemaVersion) (SuppliesNoKey (publishPairEnv schemaVersion))
      (publishPairRun schemaVersion) := by
  have hhandOff : ((execSucceeds "t" "" 0 publishPairOutput).handOff (publishPairEnv schemaVersion) 1
      (startRun (publishPairEnv schemaVersion) 0 .inline [] [])).map (fun h ↦ h.finish.output) =
        some publishPairOutput := by
    rcases hversion with rfl | rfl <;> decide +kernel
  have houtput : ∀ h, (execSucceeds "t" "" 0 publishPairOutput).handOff (publishPairEnv schemaVersion) 1
      (startRun (publishPairEnv schemaVersion) 0 .inline [] []) = some h →
        h.finish.output = publishPairOutput := by
    intro h hop
    rw [hop] at hhandOff
    exact Option.some.inj hhandOff
  refine reachable_play 0 .inline [] [] ⟨⟨fun h hop ↦ ?_, fun h hop keyed hkeyed ↦ ?_, ?_⟩, trivial⟩
  · rw [houtput h hop]
    exact .of_names (by decide)
  · rw [houtput h hop] at hkeyed
    exact absurd hkeyed (by simp [fanOutItems, publishPairOutput, JsonObject.get, uniqueIterationKeys,
      uniqueKeysFrom])
  · intro args token worker draw begun hexecute hbegins graphNode impl hnode hpublish
    obtain ⟨rfl, -⟩ := Op.execute.inj hexecute
    cases hnode
    exact absurd hpublish (by decide)

/-- Nothing that the row finds gives a key, and its inputs are prepared. -/
def preparesKeyFree (env : EngineEnv) (st : EngineState) (graphNode : GraphNode) (begun : NodeRun) : Bool :=
  (st.prepare env graphNode ⟨graphNode.id, ""⟩ begun).isOk &&
    (env.registry.get graphNode.type graphNode.version).all fun impl ↦
      decide (∀ field ∈ suppliedInputs (resolveArgs env st.run (st.nodes.put ⟨graphNode.id, ""⟩ begun) graphNode
        impl (asDict (st.run.contextSnapshot.get "node_outputs"))
        (asDict (st.run.contextSnapshot.get "initial_inputs"))),
          field.1 ≠ "idempotency_key" ∧ field.1 ≠ "upstream")

/-- A claimed publish node of the run is attempted without a key. -/
theorem publishPair_attempt (hversion : schemaVersion = 1 ∨ schemaVersion = 2)
    {nodeId : String} {token : ℕ} (hclaim : nodeId = "p" ∧ token = 2 ∨ nodeId = "q" ∧ token = 3) :
    ∃ attempt : PublishAttempt (publishPairEnv schemaVersion), attempt.args.row = ⟨nodeId, ""⟩ := by
  have hnode : (publishPairEnv schemaVersion).graph.node? nodeId = some { id := nodeId, type := "publish" } := by
    rcases hclaim with ⟨rfl, -⟩ | ⟨rfl, -⟩ <;> rfl
  have hchecks : (((publishPairRun schemaVersion).nodes.find ⟨nodeId, ""⟩).bind
      (beginNodeExecution (publishPairEnv schemaVersion).claimLease 2 token none none)).any
        (preparesKeyFree (publishPairEnv schemaVersion) (publishPairRun schemaVersion)
          { id := nodeId, type := "publish" }) = true := by
    rcases hversion with rfl | rfl <;> rcases hclaim with ⟨rfl, rfl⟩ | ⟨rfl, rfl⟩ <;> decide +kernel
  obtain ⟨begun, hbegins, hbegun⟩ := (Option.any_eq_true _ _).mp hchecks
  obtain ⟨hprepares, hnames⟩ := Bool.and_eq_true_iff.mp hbegun
  have hkeyFree : AttemptKeyFree (publishPairEnv schemaVersion) (publishPairRun schemaVersion) ⟨nodeId, ""⟩
      begun := by
    intro graphNode impl hgraphNode _ himpl
    obtain rfl := mem_unique hnode hgraphNode
    rw [himpl] at hnames
    exact .of_names (of_decide_eq_true hnames)
  cases hprepare : (publishPairRun schemaVersion).prepare (publishPairEnv schemaVersion)
      { id := nodeId, type := "publish" } ⟨nodeId, ""⟩ begun with
  | error _ =>
    rw [hprepare] at hprepares
    exact absurd hprepares Bool.false_ne_true
  | ok prepared =>
    exact ⟨{ now := 2
             args := { row := ⟨nodeId, ""⟩, outcome := .ok { status := .succeeded } }
             token := token
             worker := none
             st := publishPairRun schemaVersion
             begun := begun
             graphNode := { id := nodeId, type := "publish" }
             prepared := prepared
             reachable := publishPair_reachable hversion
             begins := hbegins
             node := hnode
             publish := rfl
             keyFree := hkeyFree
             prepares := hprepare }, rfl⟩

/-- The publish nodes of a graph of the first schema version share the key of the run. -/
theorem publish_nodes_share_key :
    ¬ ∀ (attempt attempt' : PublishAttempt (publishPairEnv 1)) (job account : Uuid),
      attempt.args.row ≠ attempt'.args.row →
        attempt.publishingKey (fun _ ↦ "") job account none false none ≠
          attempt'.publishingKey (fun _ ↦ "") job account none false none := by
  intro hclaim
  obtain ⟨attempt, hrow⟩ := publishPair_attempt (.inl rfl) (.inl ⟨rfl, rfl⟩)
  obtain ⟨attempt', hrow'⟩ := publishPair_attempt (.inl rfl) (.inr ⟨rfl, rfl⟩)
  refine hclaim attempt attempt' (repeated 1) (repeated 2) (by rw [hrow, hrow']; decide) ?_
  rw [attempt.publishingKey_eq rfl rfl, attempt'.publishingKey_eq rfl rfl]
  rfl

/-- In a graph of the second schema version they have keys of their own. -/
theorem publish_nodes_have_keys :
    ∃ attempt attempt' : PublishAttempt (publishPairEnv 2), attempt.args.row ≠ attempt'.args.row ∧
      attempt.publishingKey (fun _ ↦ "") (repeated 1) (repeated 2) none false none ≠
        attempt'.publishingKey (fun _ ↦ "") (repeated 1) (repeated 2) none false none := by
  obtain ⟨attempt, hrow⟩ := publishPair_attempt (.inr rfl) (.inl ⟨rfl, rfl⟩)
  obtain ⟨attempt', hrow'⟩ := publishPair_attempt (.inr rfl) (.inr ⟨rfl, rfl⟩)
  have hrows : attempt.args.row ≠ attempt'.args.row := by
    rw [hrow, hrow']
    decide
  refine ⟨attempt, attempt', hrows, ((publishing_keys_iff rfl rfl _ attempt attempt' _ _ _ _ _ _ _ _).2 hrows).mpr
    ⟨by decide, attempt.rowText_ne_of_colonFree ?_ ?_ hrows⟩⟩
  · rw [hrow]
    decide
  · rw [hrow']
    decide

end ContentGenerator.Publishing

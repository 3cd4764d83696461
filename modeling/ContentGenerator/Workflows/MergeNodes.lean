import ContentGenerator.Lib.JsonUpdate
import ContentGenerator.Workflows.NodeConfigs
import ContentGenerator.Workflows.NodeResults
import ContentGenerator.Workflows.Snapshot

/-!
# The merge node

`MergeNode.execute` unites the outputs it is given over its bag and writes the union over its own fields, for a
downstream node to read its keys at the top level. `MergeOutput` is validated afterwards: it has four fields and
drops everything else.

Main result: `merge_reports_iff`, the stored output reports the sources exactly when the union holds none but a
few keys, with values that the fields would have anyway.
-/

namespace ContentGenerator.Workflows

open Lib Lib.JsonObject List Option Json

variable {objects : List JsonObject} {values : JsonObject}

/-! ### The node -/

/-- A `list[dict]`. -/
def readObjects : Json → Option (List JsonObject)
  | .arr items => items.mapM readObject
  | _ => none

/-- `dict(bag)` updated with one output after the other. -/
def mergeSources (bag : JsonObject) (sources : List JsonObject) : JsonObject :=
  sources.foldl update (update [] bag)

/-- `MergeInput.model_validate`: the sources and the bag. -/
def readMergeInput (inputs : JsonObject) : Option (List JsonObject × JsonObject) := do
  let sources ← ((get inputs "sources").map readObjects).getD (some [])
  let bag ← objectField (get inputs "bag")
  return (sources, bag)

/-- The dump of a `MergeInput`. -/
def dumpMergeInput (input : List JsonObject × JsonObject) : JsonObject :=
  [("sources", .arr (input.1.map .obj)), ("bag", .obj input.2)]

/-- `MergeOutput.model_validate` with `model_dump`. -/
def readMergeOutput (lax : LaxMode) (output : JsonObject) : Option JsonObject := do
  let merged ← (get output "merged").bind readObject
  let sources ← (get output "sources").bind readObjects
  let mode ← (get output "mode").filter fun value ↦ isText value
  let count ← (get output "source_count").bind (laxInt lax.intOfText)
  return [("merged", .obj merged), ("sources", .arr (sources.map .obj)), ("mode", mode),
    ("source_count", .int count)]

/-- The registered merge node; `invalid` is the error of its models. -/
def mergeNode (lax : LaxMode) (invalid : PyException) : NodeImpl where
  type := "merge"
  category := "control"
  inputPorts := [⟨"sources", "array", false⟩, ⟨"bag", "object", false⟩]
  outputPorts := [⟨"merged", "object", true⟩, ⟨"sources", "array", true⟩, ⟨"source_count", "number", true⟩]
  validateConfig := fun config ↦ orInvalid invalid (mergeConfig.modelValidate lax config)
  validateInputs := fun inputs ↦ orInvalid invalid ((readMergeInput inputs).map dumpMergeInput)
  validateOutput := fun output ↦ orInvalid invalid (readMergeOutput lax output)

/-- The fields of the `MergeOutput` before the merged keys are written over them. -/
def mergeFieldsOf (merged : JsonObject) (sources : List JsonObject) (mode : Json) : JsonObject :=
  [("merged", .obj merged), ("sources", .arr (sources.map .obj)), ("mode", mode),
    ("source_count", .int sources.length)]

/-- The payload of `MergeNode.execute`. -/
def mergePayload (bag : JsonObject) (sources : List JsonObject) (mode : Json) : JsonObject :=
  let merged := mergeSources bag sources
  update (mergeFieldsOf merged sources mode) merged

/-- `MergeNode.execute`. -/
def mergeExecute (lax : LaxMode) (invalid : PyException) (inputs config : JsonObject) :
    Except PyException NodeResult := do
  let (sources, bag) ← orInvalid invalid (readMergeInput inputs)
  let values ← orInvalid invalid (mergeConfig.modelValidate lax config)
  return { status := .succeeded
           output := mergePayload bag sources ((get values "mode").getD .null) }

/-! ### The property and its condition -/

/-- The fields of `MergeOutput`. -/
def mergeOutputNames : List String := ["merged", "sources", "mode", "source_count"]

/-- The output has the sources in order, their number, their union over the bag, and every key of the union that is
not the name of an output of its own. -/
structure ReportsSources (bag : JsonObject) (upstream : List JsonObject) (output : JsonObject) : Prop where
  sources : get output "sources" = some (.arr (upstream.map .obj))
  count : get output "source_count" = some (.int upstream.length)
  merged : get output "merged" = some (.obj (mergeSources bag upstream))
  keys : ∀ field ∈ mergeSources bag upstream, field.1 ∉ mergeOutputNames → (get output field.1).isSome

/-- The union has no keys but `sources`, `mode` and `source_count`; if it has these, then the sources are the
collected ones, the mode is a text, and the count reads as their number. -/
structure Unobtrusive (lax : LaxMode) (bag : JsonObject) (upstream : List JsonObject) : Prop where
  keys : ∀ field ∈ mergeSources bag upstream, field.1 ∈ ["sources", "mode", "source_count"]
  sources : ∀ value ∈ get (mergeSources bag upstream) "sources", value = .arr (upstream.map .obj)
  mode : ∀ value ∈ get (mergeSources bag upstream) "mode", isText value
  count : ∀ value ∈ get (mergeSources bag upstream) "source_count",
    laxInt lax.intOfText value = some upstream.length

/-- The row has succeeded with an output that reports the sources, and the outputs of the run hold it too. -/
def StoresReport (id : RowId) (bag : JsonObject) (upstream : List JsonObject)
    (executed : Except PyException Executed) : Prop :=
  ∃ done row, executed = .ok done ∧ done.state.nodes.find id = some row ∧ row.status = .succeeded ∧
    get done.nodeOutputs (outputStorageKey id.nodeId id.iterationKey) = some (.obj row.outputJson) ∧
    ReportsSources bag upstream row.outputJson

/-! ### Reading the payload back -/

theorem mapM_readObject (items : List JsonObject) : (items.map obj).mapM readObject = some items :=
  mapM_map items fun _ _ ↦ rfl

theorem mapM_readObject_eq_some {items : List Json}
    (h : items.mapM readObject = some objects) : items = objects.map obj := by
  induction items generalizing objects with
  | nil =>
    rw [mapM_nil] at h
    cases h
    rfl
  | cons item rest ih =>
    rw [mapM_cons] at h
    obtain ⟨object, hobject, h⟩ := bind_eq_some_iff.mp h
    obtain ⟨tail, htail, h⟩ := bind_eq_some_iff.mp h
    cases h
    rw [map_cons, ← ih htail, readObject_eq_some_iff.mp hobject]

theorem readObjects_eq_some_iff {value : Json} :
    readObjects value = some objects ↔ value = .arr (objects.map obj) := by
  constructor
  · intro h
    cases value with
    | arr items => rw [mapM_readObject_eq_some h]
    | _ => simp [readObjects] at h
  · rintro rfl
    exact mapM_readObject objects

theorem readMergeInput_dump (input : List JsonObject × JsonObject) :
    readMergeInput (dumpMergeInput input) = some input := by
  have hsources : get (dumpMergeInput input) "sources" = some (.arr (input.1.map .obj)) := rfl
  have hbag : get (dumpMergeInput input) "bag" = some (.obj input.2) := rfl
  unfold readMergeInput
  rw [hsources, hbag, map_some, getD_some, readObjects_eq_some_iff.mpr rfl]
  rfl

theorem distinct_mergeSources (bag : JsonObject) (sources : List JsonObject) :
    Distinct (mergeSources bag sources) := by
  unfold mergeSources
  generalize hstart : update [] bag = start
  have hdistinct : Distinct start := hstart ▸ distinct_nil.update bag
  clear hstart
  induction sources generalizing start with
  | nil => exact hdistinct
  | cons source rest ih => exact ih _ (hdistinct.update source)

/-- Under the name of a field the payload has what the union has, else the field. -/
theorem get_mergePayload (bag : JsonObject) (sources : List JsonObject) (mode : Json) (key : String) :
    get (mergePayload bag sources mode) key = (get (mergeSources bag sources) key).or
      (get (mergeFieldsOf (mergeSources bag sources) sources mode) key) :=
  get_update (distinct_mergeSources bag sources) _ key

variable {lax : LaxMode} {bag output : JsonObject} {upstream : List JsonObject} {mode : Json}

theorem Unobtrusive.get_merged (h : Unobtrusive lax bag upstream) :
    get (mergeSources bag upstream) "merged" = none := by
  rw [get_eq_none_iff]
  intro field hfield hkey
  have hmem := h.keys field hfield
  rw [hkey] at hmem
  exact absurd hmem (by decide)

/-- A value that the union has is read instead of the field, and no other. -/
theorem bind_or_some {α : Type} {held : Option Json} {own : Json} {read : Json → Option α} {value : α}
    (hown : read own = some value) (hheld : ∀ other ∈ held, read other = some value) :
    (held.or (some own)).bind read = some value := by
  cases held with
  | none => exact hown
  | some other => exact hheld other rfl

/-- Where the union is unobtrusive the payload is accepted, with a report. -/
theorem Unobtrusive.readMergeOutput (h : Unobtrusive lax bag upstream) (hmode : isText mode) :
    ∃ output, readMergeOutput lax (mergePayload bag upstream mode) = some output ∧
      ReportsSources bag upstream output := by
  have hsources : (get (mergePayload bag upstream mode) "sources").bind readObjects = some upstream := by
    rw [get_mergePayload]
    exact bind_or_some (readObjects_eq_some_iff.mpr rfl) fun other hother ↦
      readObjects_eq_some_iff.mpr (h.sources other hother)
  have hcount : (get (mergePayload bag upstream mode) "source_count").bind (laxInt lax.intOfText) =
      some (upstream.length : ℤ) := by
    rw [get_mergePayload]
    exact bind_or_some rfl h.count
  have hmerged : (get (mergePayload bag upstream mode) "merged").bind readObject =
      some (mergeSources bag upstream) := by
    rw [get_mergePayload, h.get_merged]
    rfl
  obtain ⟨held, hheld⟩ : ∃ held,
      (get (mergePayload bag upstream mode) "mode").filter (fun value ↦ isText value) = some held := by
    rw [get_mergePayload]
    cases hget : get (mergeSources bag upstream) "mode" with
    | none => exact ⟨mode, by simp [mergeFieldsOf, get_cons, filter_some, hmode]⟩
    | some held => exact ⟨held, by simp [filter_some, h.mode held hget]⟩
  refine ⟨[("merged", .obj (mergeSources bag upstream)), ("sources", .arr (upstream.map .obj)),
    ("mode", held), ("source_count", .int upstream.length)], ?_, rfl, rfl, rfl, ?_⟩
  · unfold Workflows.readMergeOutput
    rw [hsources, hcount, hmerged, hheld]
    rfl
  · intro field hfield hname
    have hmem := h.keys field hfield
    refine absurd (?_ : field.1 ∈ mergeOutputNames) hname
    simp only [mem_cons, not_mem_nil, or_false] at hmem
    rcases hmem with hkey | hkey | hkey <;> rw [hkey] <;> decide

theorem unobtrusive_of_reports (hread : readMergeOutput lax (mergePayload bag upstream mode) = some output)
    (h : ReportsSources bag upstream output) : Unobtrusive lax bag upstream := by
  unfold readMergeOutput at hread
  obtain ⟨merged, hmerged, hread⟩ := bind_eq_some_iff.mp hread
  obtain ⟨sources, hsources, hread⟩ := bind_eq_some_iff.mp hread
  obtain ⟨held, hheld, hread⟩ := bind_eq_some_iff.mp hread
  obtain ⟨count, hcount, hread⟩ := bind_eq_some_iff.mp hread
  cases hread
  obtain rfl : merged = mergeSources bag upstream := by simpa [get_cons] using h.merged
  obtain rfl : sources = upstream := by
    have hreported := h.sources
    simp only [get_cons, String.reduceEq, if_false, if_true, Option.some.injEq, Json.arr.injEq] at hreported
    exact map_injective_iff.mpr (fun _ _ ↦ obj.inj) hreported
  obtain rfl : count = sources.length := by simpa [get_cons] using h.count
  rw [get_mergePayload] at hmerged hsources hheld hcount
  have hnone : get (mergeSources bag sources) "merged" = none := by
    cases hget : get (mergeSources bag sources) "merged" with
    | none => rfl
    | some value =>
      rw [hget, some_or, bind_some] at hmerged
      rw [readObject_eq_some_iff.mp hmerged] at hget
      exact absurd hget (get_ne_self _ _)
  refine ⟨fun field hfield ↦ ?_, fun value hvalue ↦ ?_, fun value hvalue ↦ ?_, fun value hvalue ↦ ?_⟩
  · have hdeclared : field.1 ∈ mergeOutputNames := by
      by_contra hother
      have hpresent := h.keys field hfield hother
      rw [get_isSome_iff] at hpresent
      exact hother hpresent
    have hne : field.1 ≠ "merged" := get_eq_none_iff.mp hnone field hfield
    simpa [mergeOutputNames, hne] using hdeclared
  · rw [hvalue, some_or, bind_some] at hsources
    exact readObjects_eq_some_iff.mp hsources
  · rw [hvalue, some_or, filter_eq_some_iff, Option.some.injEq] at hheld
    obtain ⟨rfl, htext⟩ := hheld
    simpa using htext
  · rw [hvalue, some_or, bind_some] at hcount
    exact hcount

/-! ### The attempt -/

/-- The bag among the inputs: empty when there is none, and nothing when it is no `dict`. -/
def bagOf (inputs : JsonObject) : Option JsonObject := objectField (get inputs "bag")

/-- The sources a merge node gets are the collected outputs, with the lists as the edges have left them. -/
theorem readMergeInput_prepared {env : EngineEnv} {run : Run} {t : NodeTable} {graphNode : GraphNode} {id : RowId}
    {row : NodeRun} {nodeOutputs initialInputs : JsonObject} {prepared : Prepared}
    (htype : graphNode.type = "merge")
    (h : prepareInputs env run t graphNode id row nodeOutputs initialInputs = .ok prepared) :
    readMergeInput prepared.inputs =
      (bagOf prepared.inputs).map fun bag ↦ (upstreamOf env t graphNode.id prepared.nodeOutputs, bag) := by
  obtain ⟨-, -, resolved, -, -, hinputs⟩ := prepareInputs_cases h
  have hsources : get prepared.inputs "sources" =
      some (.arr ((upstreamOf env t graphNode.id prepared.nodeOutputs).map .obj)) := by
    rw [hinputs, htype, applySideEffectIdempotency, if_neg fun hpublish ↦ absurd hpublish.1 (by decide),
      seededInputs, if_pos rfl, get_set_self]
  unfold readMergeInput
  rw [hsources, map_some, getD_some, readObjects_eq_some_iff.mpr rfl]
  change (bagOf prepared.inputs).bind _ = _
  cases bagOf prepared.inputs <;> rfl

/-- What the merge model accepts is the mode, and it is accepted again. -/
theorem mergeConfig_values {config : JsonObject} (h : mergeConfig.modelValidate lax config = some values) :
    ∃ mode, values = [("mode", mode)] ∧ isText mode ∧ mergeConfig.modelValidate lax values = some values := by
  simp only [ConfigSchema.modelValidate, mergeConfig, Bool.false_eq_true, false_and, if_false, mapM_cons,
    mapM_nil, if_true] at h ⊢
  obtain ⟨fields, hfields, h⟩ := bind_eq_some_iff.mp h
  obtain rfl := Option.some.inj h
  obtain ⟨field, hfield, hrest⟩ := bind_eq_some_iff.mp hfields
  obtain rfl : [field] = fields := by simpa using hrest
  obtain ⟨mode, hmode, rfl⟩ := map_eq_some_iff.mp hfield
  have haccepted : ∃ word, mode = .str word ∧ (word = "all" ∨ word = "any") := by
    unfold ConfigField.read at hmode
    cases hget : get config "mode" with
    | none =>
      rw [hget] at hmode
      exact ⟨"all", (Option.some.inj hmode).symm, .inl rfl⟩
    | some value =>
      rw [hget] at hmode
      cases value <;> simp [ConfigType.read, withinBound] at hmode
      obtain ⟨hword, rfl⟩ := hmode
      exact ⟨_, rfl, hword⟩
  obtain ⟨word, rfl, hword⟩ := haccepted
  refine ⟨.str word, rfl, rfl, ?_⟩
  rcases hword with rfl | rfl <;> rfl

variable {env : EngineEnv} {now : Time} {args : ExecuteArgs} {graphNode : GraphNode} {before : Executed}
  {initialInputs : JsonObject} {row : NodeRun} {prepared : Prepared} {invalid : PyException}
  {mockGenerationResult : String → JsonObject → NodeResult}

/-- An attempt of a merge node: its class is the registered one, nothing mocks it, and it does what its class
does. -/
structure MergeAttempt (env : EngineEnv) (args : ExecuteArgs) (graphNode : GraphNode) (before : Executed)
    (initialInputs : JsonObject) (row : NodeRun) (prepared : Prepared) (lax : LaxMode) (invalid : PyException)
    (mockGenerationResult : String → JsonObject → NodeResult) : Prop
    extends Attempts env args graphNode before initialInputs row prepared where
  type : graphNode.type = "merge"
  impl : env.registry.get graphNode.type graphNode.version = some (mergeNode lax invalid)
  mock : env.maybeMockNodeResult = maybeMockNodeResult mockGenerationResult
  outcome : args.outcome = performs (mergeNode lax invalid) (mergeExecute lax invalid) prepared.inputs
    (resolvedConfig before.state.run graphNode)

section MergeAttempt

variable (h : MergeAttempt env args graphNode before initialInputs row prepared lax invalid mockGenerationResult)
include h

/-- With a bag and a mode the node returns its payload. -/
theorem MergeAttempt.performNode (hbag : bagOf prepared.inputs = some bag)
    (hvalues : mergeConfig.modelValidate lax (resolvedConfig before.state.run graphNode) = some values) :
    ∃ mode, isText mode ∧ performNode env before.state.run graphNode prepared args.outcome =
      .ok (some { status := .succeeded
                  output := mergePayload bag
                    (upstreamOf env before.state.nodes graphNode.id prepared.nodeOutputs) mode }) := by
  obtain ⟨mode, rfl, hmode, hagain⟩ := mergeConfig_values hvalues
  refine ⟨mode, hmode, ?_⟩
  have hread := readMergeInput_prepared h.type h.prepares
  rw [hbag, map_some] at hread
  have hinputs : (mergeNode lax invalid).validateInputs prepared.inputs = .ok (dumpMergeInput
      (upstreamOf env before.state.nodes graphNode.id prepared.nodeOutputs, bag)) := by
    change orInvalid invalid ((readMergeInput prepared.inputs).map dumpMergeInput) = _
    rw [hread]
    rfl
  have hconfig : (mergeNode lax invalid).validateConfig (resolvedConfig before.state.run graphNode) =
      .ok [("mode", mode)] := by
    change orInvalid invalid (mergeConfig.modelValidate lax _) = _
    rw [hvalues]
    rfl
  rw [h.outcome, h.performs_accepted h.impl rfl h.mock (by rw [h.type]; decide) hinputs hconfig]
  unfold mergeExecute
  rw [readMergeInput_dump, hagain]
  rfl

/-- Without a bag or a mode it is not executed. -/
theorem MergeAttempt.performNode_error
    (hrefused : bagOf prepared.inputs = none ∨
      mergeConfig.modelValidate lax (resolvedConfig before.state.run graphNode) = none) :
    ∃ exc, Workflows.performNode env before.state.run graphNode prepared args.outcome = .error exc := by
  refine performNode_of_refused ?_
  rw [h.prepared_impl h.impl]
  rcases hrefused with hbag | hvalues
  · refine .inl ⟨invalid, ?_⟩
    change orInvalid invalid ((readMergeInput prepared.inputs).map dumpMergeInput) = _
    rw [readMergeInput_prepared h.type h.prepares, hbag]
    rfl
  · refine .inr ⟨invalid, ?_⟩
    change orInvalid invalid (mergeConfig.modelValidate lax _) = _
    rw [hvalues]
    rfl

end MergeAttempt

theorem not_storesReport_of_failure (h : Attempts env args graphNode before initialInputs row prepared)
    (hverdict : ∃ error errorClass,
      judgeNode env before.state.run graphNode prepared args.outcome = .ok (.failure error errorClass)) :
    ¬ StoresReport args.row bag upstream (executeReadyNode env now args graphNode before initialInputs) := by
  obtain ⟨error, errorClass, hverdict⟩ := hverdict
  obtain ⟨done, final, hdone, hfinal, hstatus, -⟩ := executeReadyNode_failure now h hverdict
  rintro ⟨done', final', hdone', hfinal', hsucceeded, -⟩
  obtain rfl := Except.ok.inj (hdone.symm.trans hdone')
  obtain rfl := mem_unique hfinal hfinal'
  exact hstatus hsucceeded

theorem storesReport_iff_of_succeeded (h : Attempts env args graphNode before initialInputs row prepared)
    {result : NodeResult} (hstatus : result.status = .succeeded)
    (hverdict : judgeNode env before.state.run graphNode prepared args.outcome = .ok (.result result output)) :
    StoresReport args.row bag upstream (executeReadyNode env now args graphNode before initialInputs) ↔
      ReportsSources bag upstream output := by
  obtain ⟨done, hdone, hfinal, hstored⟩ := executeReadyNode_succeeded now h hstatus hverdict
  constructor
  · rintro ⟨done', final', hdone', hfinal', -, -, hreports⟩
    obtain rfl := Except.ok.inj (hdone.symm.trans hdone')
    obtain rfl := mem_unique hfinal hfinal'
    exact hreports
  · intro hreports
    refine ⟨done, _, hdone, hfinal, rfl, ?_, hreports⟩
    rw [hstored, get_storeOutput, if_pos rfl]
    rfl

/-- With a bag and a mode, the report is stored exactly when the union is unobtrusive. -/
theorem MergeAttempt.storesReport_iff
    (h : MergeAttempt env args graphNode before initialInputs row prepared lax invalid mockGenerationResult)
    (hbag : bagOf prepared.inputs = some bag)
    (hvalues : mergeConfig.modelValidate lax (resolvedConfig before.state.run graphNode) = some values) :
    StoresReport args.row bag (upstreamOf env before.state.nodes graphNode.id prepared.nodeOutputs)
        (executeReadyNode env now args graphNode before initialInputs) ↔
      Unobtrusive lax bag (upstreamOf env before.state.nodes graphNode.id prepared.nodeOutputs) := by
  obtain ⟨mode, hmode, hperform⟩ := h.performNode hbag hvalues
  have houtput : prepared.impl.validateOutput = fun output ↦ orInvalid invalid (readMergeOutput lax output) := by
    rw [h.prepared_impl h.impl]
    rfl
  cases hread : readMergeOutput lax
      (mergePayload bag (upstreamOf env before.state.nodes graphNode.id prepared.nodeOutputs) mode) with
  | none =>
    have hinvalid := judgeNode_of_invalid h.globals hperform (by simp)
      (show prepared.impl.validateOutput _ = .error invalid by rw [houtput]; dsimp only; rw [hread]; rfl)
    refine iff_of_false (not_storesReport_of_failure h.toAttempts hinvalid) fun hunobtrusive ↦ ?_
    obtain ⟨output, hsome, -⟩ := hunobtrusive.readMergeOutput hmode
    exact absurd (hread.symm.trans hsome) (by simp)
  | some output =>
    have hverdict := judgeNode_of_valid hperform (by simp)
      (show prepared.impl.validateOutput _ = .ok output by rw [houtput]; dsimp only; rw [hread]; rfl)
    rw [storesReport_iff_of_succeeded h.toAttempts rfl hverdict]
    refine ⟨unobtrusive_of_reports hread, fun hunobtrusive ↦ ?_⟩
    obtain ⟨output', hsome, hreports⟩ := hunobtrusive.readMergeOutput hmode
    obtain rfl := mem_unique hread hsome
    exact hreports

/-- Executing a merge node stores a report of its sources exactly when its configuration is a mode, its bag is
absent or a `dict`, and the union of the two is unobtrusive. Assumes: the inputs of the node resolve. -/
theorem merge_reports_iff
    (h : MergeAttempt env args graphNode before initialInputs row prepared lax invalid mockGenerationResult) :
    (∃ bag, bagOf prepared.inputs = some bag ∧
        StoresReport args.row bag (upstreamOf env before.state.nodes graphNode.id prepared.nodeOutputs)
          (executeReadyNode env now args graphNode before initialInputs)) ↔
      (mergeConfig.modelValidate lax (resolvedConfig before.state.run graphNode)).isSome ∧
        ∃ bag, bagOf prepared.inputs = some bag ∧
          Unobtrusive lax bag (upstreamOf env before.state.nodes graphNode.id prepared.nodeOutputs) := by
  cases hvalues : mergeConfig.modelValidate lax (resolvedConfig before.state.run graphNode) with
  | none =>
    obtain ⟨exc, hraised⟩ := h.performNode_error (.inr hvalues)
    refine iff_of_false ?_ (by simp)
    rintro ⟨bag, -, hstores⟩
    exact not_storesReport_of_failure h.toAttempts (judgeNode_of_error hraised) hstores
  | some values =>
    constructor
    · rintro ⟨bag, hbag, hstores⟩
      exact ⟨rfl, bag, hbag, (h.storesReport_iff hbag hvalues).mp hstores⟩
    · rintro ⟨-, bag, hbag, hunobtrusive⟩
      exact ⟨bag, hbag, (h.storesReport_iff hbag hvalues).mpr hunobtrusive⟩

/-! ### Two merges -/

def joinNode : GraphNode := { id := "join", type := "merge" }

/-- A run of a graph with a merge node. -/
def joinEnv : EngineEnv :=
  { catalogueEnv
      { schemaVersion := 2
        nodes := [{ id := "draft", type := "summarize" }, joinNode]
        edges := [{ source := "draft", target := "join" }] } repairedGlobals with
    registry := ⟨[mergeNode plainMode validationError]⟩
    maybeMockNodeResult := maybeMockNodeResult fun _ _ ↦ { status := .succeeded } }

def joinRow : NodeRun := { nodeType := "merge", nodeVersion := 1, status := .queued }

/-- The first node has succeeded with the output. -/
def joinBefore (output : JsonObject) : Executed where
  state :=
    { run := { status := .running }
      nodes := { entries := [(⟨"join", ""⟩, joinRow)], nodupKeys := nodup_singleton _ } }
  nodeOutputs := [("draft", .obj output)]

/-- What the attempt of the merge node runs with. -/
def joinPrepared (output : JsonObject) : Prepared :=
  preparedWith joinEnv (joinBefore output).state.nodes joinNode ⟨"join", ""⟩ joinRow (joinBefore output).nodeOutputs
    (mergeNode plainMode validationError)
    (resolvePortsAndBindings (resolveArgs joinEnv (joinBefore output).state.run (joinBefore output).state.nodes
      joinNode (mergeNode plainMode validationError) (joinBefore output).nodeOutputs []))

/-- The attempt of the merge node. -/
def joinArgs (output : JsonObject) : ExecuteArgs where
  row := ⟨"join", ""⟩
  outcome := performs (mergeNode plainMode validationError) (mergeExecute plainMode validationError)
    (joinPrepared output).inputs []

theorem joinAttempt (output : JsonObject) :
    MergeAttempt joinEnv (joinArgs output) joinNode (joinBefore output) [] joinRow (joinPrepared output)
      plainMode validationError fun _ _ ↦ { status := .succeeded } where
  globals := rfl
  find := rfl
  active := by decide
  prepares := prepareInputs_of_resolved rfl rfl rfl
    (circular_of_not_extends (not_extends_of_no_target (by simp [ResolveArgs.incoming, resolveArgs, joinEnv,
      catalogueEnv, WorkflowGraph.predecessors])))
  type := rfl
  impl := rfl
  mock := rfl
  outcome := rfl

/-- The text of the output before it is in the union and not in the output of the merge node. -/
theorem merged_text_is_dropped :
    ¬ ∃ bag, bagOf (joinPrepared [("text", .str "drafted")]).inputs = some bag ∧
      StoresReport ⟨"join", ""⟩ bag [[("text", .str "drafted")]]
        (executeReadyNode joinEnv 0 (joinArgs [("text", .str "drafted")]) joinNode
          (joinBefore [("text", .str "drafted")]) []) := by
  have hbag : bagOf (joinPrepared [("text", .str "drafted")]).inputs = some [("text", .str "drafted")] := by
    decide +kernel
  rintro ⟨bag, hbag', hstores⟩
  obtain rfl := mem_unique hbag hbag'
  have hunobtrusive := ((joinAttempt _).storesReport_iff hbag rfl).mp hstores
  have hkeys := hunobtrusive.keys
  revert hkeys
  decide +kernel

/-- An output with a mode only is reported. -/
theorem merged_mode_is_reported :
    ∃ bag, bagOf (joinPrepared [("mode", .str "fast")]).inputs = some bag ∧
      StoresReport ⟨"join", ""⟩ bag [[("mode", .str "fast")]]
        (executeReadyNode joinEnv 0 (joinArgs [("mode", .str "fast")]) joinNode
          (joinBefore [("mode", .str "fast")]) []) := by
  refine (merge_reports_iff (joinAttempt [("mode", .str "fast")])).mpr
    ⟨rfl, [("mode", .str "fast")], by decide +kernel, ?_, ?_, ?_, ?_⟩
  all_goals decide +kernel

end ContentGenerator.Workflows

import ContentGenerator.Lib.JsonUpdate
import ContentGenerator.Workflows.SharedLists

/-!
# Resolving inputs by schema version

`resolve_node_inputs` dispatches on the schema version of the graph: from version 2 on the port resolver,
before that the router of `engine_inputs_legacy.py`, of which the branch of publish nodes is here. That
branch supplies an idempotency key of its own when nobody else does (`legacyPublishInputs_key`). Only the port
resolver extends lists of the outputs (`addedTo_additions`).
-/

namespace ContentGenerator.Workflows

open Lib
open JsonObject (getTruthy)

/-! ### The legacy router -/

/-- The items that `list.extend` takes from a value. -/
def extendItems : Json → Except PyException (List Json)
  | .arr items => .ok items
  | .str text => .ok (text.toList.map fun c ↦ .str (String.singleton c))
  | .obj fields => .ok (fields.map fun field ↦ .str field.1)
  | .null => .error { className := "TypeError", message := "'NoneType' object is not iterable" }
  | .bool _ => .error { className := "TypeError", message := "'bool' object is not iterable" }
  | .int _ => .error { className := "TypeError", message := "'int' object is not iterable" }
  | .float _ => .error { className := "TypeError", message := "'float' object is not iterable" }

/-- `variant.get("social_account_ids") or []`, of the variants that are dictionaries. -/
def variantAccounts : Json → Except PyException (List Json)
  | .obj variant =>
    match getTruthy variant "social_account_ids" with
    | some accounts => extendItems accounts
    | none => .ok []
  | _ => .ok []

def variantId : Json → Option Json
  | .obj variant => getTruthy variant "id"
  | _ => none

/-- `collected or None`. -/
def listOrNone (items : List Json) : Json := if items.isEmpty then .null else .arr items

/-- `bag.get(key)`. -/
def bagValue (bag : JsonObject) (key : String) : Json := (bag.get key).getD .null

/-- The publish branch of `resolve_legacy_node_inputs`. -/
def legacyPublishInputs (bag : JsonObject) (runId : String) : Except PyException JsonObject := do
  let idempotency :=
    (getTruthy bag "idempotency_key").getD (.str s!"wf-publish-{runId}")
  let accountIds ←
    match getTruthy bag "social_account_ids", bag.get "variants" with
    | none, some (.arr variants) => do
      let collected ← variants.mapM variantAccounts
      pure (listOrNone collected.flatten)
    | _, _ => pure (bagValue bag "social_account_ids")
  let given := (getTruthy bag "content_variant_ids").getD (bagValue bag "variant_ids")
  let variantIds :=
    match given.truthy, bag.get "variants" with
    | false, some (.arr variants) => listOrNone (variants.filterMap variantId)
    | _, _ => given
  return [("content_job_id", bagValue bag "content_job_id"),
    ("approval_request_id", bagValue bag "approval_request_id"), ("social_account_ids", accountIds),
    ("content_variant_ids", variantIds), ("scheduled_for", bagValue bag "scheduled_for"),
    ("idempotency_key", idempotency)]

def ResolveArgs.bag (args : ResolveArgs) : JsonObject :=
  mergeUpstreamBag args.triggerPayload args.initialInputs args.upstreamOutputs

/-- `resolve_legacy_node_inputs`; `others` are the branches of the other node types. -/
def resolveLegacyNodeInputs (others : ResolveArgs → Except PyException JsonObject) (args : ResolveArgs) :
    Except PyException JsonObject :=
  if args.graphNode.type = "publish" then legacyPublishInputs args.bag args.runId else others args

/-! ### The dispatch -/

/-- `graph_schema_version`. -/
def WorkflowGraph.schemaVersionOrOne (g : WorkflowGraph) : ℕ := if g.schemaVersion = 0 then 1 else g.schemaVersion

/-- The outputs the port resolver reads: rebuilt from those collected upstream when there are none. -/
def ResolveArgs.outputsOrUpstream (args : ResolveArgs) : JsonObject :=
  if args.nodeOutputs.isEmpty then
    ((args.graph.predecessors args.graphNode.id).zip args.upstreamOutputs).foldl
      (fun acc pair ↦ acc.set pair.1.source (.obj pair.2)) []
  else args.nodeOutputs

/-- What the port resolver is called with. -/
def ResolveArgs.portArgs (args : ResolveArgs) : ResolveArgs :=
  { args with nodeOutputs := args.outputsOrUpstream }

def ResolveArgs.portInputs (args : ResolveArgs) : ResolvedInputs := resolvePortsAndBindings args.portArgs

/-- `resolve_node_inputs`; the legacy router extends no list of an output. -/
def resolveNodeInputs (others : ResolveArgs → Except PyException JsonObject) (args : ResolveArgs) :
    Except PyException ResolvedInputs :=
  if 2 ≤ args.graph.schemaVersionOrOne then .ok args.portInputs
  else (resolveLegacyNodeInputs others args).map fun inputs ↦ { inputs := inputs }

namespace ResolveArgs

/-- What the resolution adds to lists of outputs. -/
def additions (args : ResolveArgs) : List (OutputList × Json) :=
  if 2 ≤ args.graph.schemaVersionOrOne then args.portArgs.added else []

/-- The resolution extends the list. -/
def ExtendsList (args : ResolveArgs) (list : OutputList) : Prop :=
  2 ≤ args.graph.schemaVersionOrOne ∧ Extends args.portArgs list

end ResolveArgs

variable {args : ResolveArgs} {others : ResolveArgs → Except PyException JsonObject} {resolved : ResolvedInputs}

/-- Inputs of a graph of the first version come from the legacy router. -/
theorem legacy_of_resolveNodeInputs (hversion : ¬ 2 ≤ args.graph.schemaVersionOrOne)
    (h : resolveNodeInputs others args = .ok resolved) :
    resolveLegacyNodeInputs others args = .ok resolved.inputs ∧ resolved.added = [] := by
  rw [resolveNodeInputs, if_neg hversion] at h
  cases hlegacy : resolveLegacyNodeInputs others args with
  | error exc =>
    rw [hlegacy] at h
    cases h
  | ok inputs =>
    rw [hlegacy] at h
    rw [← Except.ok.inj h]
    exact ⟨rfl, rfl⟩

theorem added_of_resolveNodeInputs (h : resolveNodeInputs others args = .ok resolved) :
    resolved.added = args.additions := by
  unfold ResolveArgs.additions
  split_ifs with hversion
  · rw [resolveNodeInputs, if_pos hversion] at h
    rw [← Except.ok.inj h]
    rfl
  · exact (legacy_of_resolveNodeInputs hversion h).2

theorem addedTo_additions (args : ResolveArgs) (list : OutputList) :
    addedTo args.additions list = [] ↔ ¬ args.ExtendsList list := by
  unfold ResolveArgs.additions ResolveArgs.ExtendsList
  split_ifs with hversion
  · rw [addedTo_added, not_and_or]
    exact (or_iff_right (not_not.mpr hversion)).symm
  · exact iff_of_true rfl fun h ↦ hversion h.1

/-- Without a key in the bag, the publish branch supplies one for the whole run. -/
theorem legacyPublishInputs_key {bag inputs : JsonObject} {runId : String}
    (hbag : getTruthy bag "idempotency_key" = none)
    (h : legacyPublishInputs bag runId = .ok inputs) :
    ∃ rest : JsonObject, inputs = rest ++ [("idempotency_key", .str s!"wf-publish-{runId}")] ∧
      ∀ field ∈ rest, field.1 ≠ "idempotency_key" ∧ field.1 ≠ "upstream" := by
  have hshape : ∃ accountIds variantIds, inputs =
      [("content_job_id", bagValue bag "content_job_id"),
        ("approval_request_id", bagValue bag "approval_request_id"), ("social_account_ids", accountIds),
        ("content_variant_ids", variantIds), ("scheduled_for", bagValue bag "scheduled_for")] ++
        [("idempotency_key", .str s!"wf-publish-{runId}")] := by
    unfold legacyPublishInputs at h
    rw [hbag] at h
    simp only [Option.getD_none, bind, Except.bind, pure, Except.pure] at h
    split at h
    · split at h
      · simp at h
      · exact ⟨_, _, (Except.ok.inj h).symm⟩
    · exact ⟨_, _, (Except.ok.inj h).symm⟩
  obtain ⟨accountIds, variantIds, rfl⟩ := hshape
  exact ⟨_, rfl, by simp⟩

end ContentGenerator.Workflows

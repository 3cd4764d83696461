import ContentGenerator.Lib.BatchPass
import ContentGenerator.Workflows.RunModels

/-!
# Retention of node and webhook payloads

`scrub_old_node_payloads` and `scrub_old_webhook_payloads` (`modules/workflows/retention.py`) replace the
payloads of old finished rows by a stub, a batch at a time. The query asks for the oldest eligible rows, and
the rows that are scrubbed already stay eligible: they keep their place at the front of the query.

`scrub_progress_iff` says when a call makes progress; where every call does, as many calls as there are live
rows leave none. `scrubbed_rows_stall` is a table on which no call does anything although a live row is left.
-/

namespace ContentGenerator.Workflows

open Lib BatchPass

/-! ### The stub -/

def isAlreadyScrubbed (payload : JsonObject) : Bool :=
  match JsonObject.get payload "_retention" with
  | some (.obj marker) => JsonObject.get marker "scrubbed" = some (.bool true)
  | _ => false

/-- `_scrub_stub`, with the rendered time of the scrub. -/
def scrubStub (scrubbedAt : String) (archivedObjectKey : Option String) : JsonObject :=
  let marker : JsonObject :=
    [("scrubbed", .bool true), ("scrubbed_at", .str scrubbedAt), ("reason", .str "age_policy")]
  [("_retention", .obj (match archivedObjectKey with
    | some key => if key = "" then marker else marker ++ [("archive_object_key", .str key)]
    | none => marker))]

@[simp] theorem isAlreadyScrubbed_scrubStub (scrubbedAt : String) (archivedObjectKey : Option String) :
    isAlreadyScrubbed (scrubStub scrubbedAt archivedObjectKey) = true := by
  unfold scrubStub
  cases archivedObjectKey with
  | none => simp [isAlreadyScrubbed, JsonObject.get_cons]
  | some key => by_cases hkey : key = "" <;> simp [isAlreadyScrubbed, JsonObject.get_cons, hkey]

def isLive (payload : JsonObject) : Bool := !payload.isEmpty && !isAlreadyScrubbed payload

@[simp] theorem isLive_scrubStub (scrubbedAt : String) (archivedObjectKey : Option String) :
    isLive (scrubStub scrubbedAt archivedObjectKey) = false := by
  rw [isLive, isAlreadyScrubbed_scrubStub, Bool.not_true, Bool.and_false]

/-- What a retention call takes from its surroundings: the two switches of the archive, whether the
storage takes a payload under a key, and the time at which the stub of a row is made. -/
structure RetentionEnv where
  archiveToStorage : Bool
  storageConfigured : Bool
  uploadBytes : String → JsonObject → Bool
  scrubbedAt : String → String

def maybeArchivePayload (env : RetentionEnv) (kind : String) (tenantId : Option String)
    (entityId : String) (payload : JsonObject) : Option String :=
  if !env.archiveToStorage then none
  else if payload.isEmpty || isAlreadyScrubbed payload then none
  else if !env.storageConfigured then none
  else
    let objectKey := "retention/" ++ kind ++ "/tenants/" ++ tenantId.getD "unknown" ++ "/" ++ entityId ++ ".json"
    if env.uploadBytes objectKey payload then some objectKey else none

/-! ### Node runs -/

/-- A `WorkflowNodeRun` of any run, with its tenant. -/
structure StoredNodeRun extends NodeRun where
  tenantId : String

def StoredNodeRun.holdsPayload (node : StoredNodeRun) : Bool :=
  isLive node.inputJson || isLive node.outputJson

/-- The `WHERE` of the node query: a terminal row that finished before the cutoff. -/
def StoredNodeRun.isOld (olderThan : Time) (node : StoredNodeRun) : Bool :=
  node.status.isTerminal && node.finishedAt.any (· < olderThan)

/-- The loop body of `scrub_old_node_payloads`: `none` where the row is passed over. -/
def scrubNode (env : RetentionEnv) (id : String) (node : StoredNodeRun) : Option StoredNodeRun :=
  if isAlreadyScrubbed node.inputJson && isAlreadyScrubbed node.outputJson then none
  else
    let hasLiveInput := isLive node.inputJson
    let hasLiveOutput := isLive node.outputJson
    if !hasLiveInput && !hasLiveOutput then none
    else
      let combined : JsonObject :=
        (if hasLiveInput then [("input_json", .obj node.inputJson)] else []) ++
          (if hasLiveOutput then [("output_json", .obj node.outputJson)] else [])
      let stub := scrubStub (env.scrubbedAt id)
        (maybeArchivePayload env "workflow_node_run" (some node.tenantId) id combined)
      some { node with
        inputJson := if hasLiveInput || !isAlreadyScrubbed node.inputJson then stub else node.inputJson
        outputJson := if hasLiveOutput || !isAlreadyScrubbed node.outputJson then stub else node.outputJson }

/-- The time by which the node query sorts. -/
def nodeFinishedAt (row : String × StoredNodeRun) : ℕ := row.2.finishedAt.getD 0

/-- The query and the loop body of `scrub_old_node_payloads`. -/
def nodePass (env : RetentionEnv) (order : OrderBy (String × StoredNodeRun) nodeFinishedAt)
    (olderThan : Time) : BatchPass String StoredNodeRun where
  eligible := StoredNodeRun.isOld olderThan
  time := nodeFinishedAt
  order := order
  rewrite := scrubNode env

/-- `scrub_old_node_payloads`: the table after the call and the number of rows scrubbed. -/
def scrubOldNodePayloads (env : RetentionEnv) (order : OrderBy (String × StoredNodeRun) nodeFinishedAt)
    (olderThan : Time) (batchSize : ℕ) (table : KeyedTable String StoredNodeRun) :
    KeyedTable String StoredNodeRun × ℕ :=
  (nodePass env order olderThan).pass (batchSize * 3) batchSize table

/-- The node run is one that the policy wants scrubbed. -/
def StoredNodeRun.isDue (olderThan : Time) (node : StoredNodeRun) : Bool :=
  node.isOld olderThan && node.holdsPayload

theorem scrubNode_isSome (env : RetentionEnv) (id : String) (node : StoredNodeRun) :
    (scrubNode env id node).isSome = node.holdsPayload := by
  unfold scrubNode StoredNodeRun.holdsPayload
  cases hinput : isAlreadyScrubbed node.inputJson <;> cases houtput : isAlreadyScrubbed node.outputJson <;>
    cases hin : isLive node.inputJson <;> cases hout : isLive node.outputJson <;>
    simp [isLive, hinput, houtput] at hin hout ⊢

theorem not_isLive_scrubbed (payload : JsonObject) (scrubbedAt : String) (archivedObjectKey : Option String) :
    isLive (if isLive payload || !isAlreadyScrubbed payload then scrubStub scrubbedAt archivedObjectKey
      else payload) = false := by
  split_ifs with hwrite
  · exact isLive_scrubStub _ _
  · rw [Bool.or_eq_true, not_or] at hwrite
    simpa using hwrite.1

/-- After the loop body neither payload of the row is live. -/
theorem scrubNode_holdsPayload {env : RetentionEnv} {id : String} {node node' : StoredNodeRun}
    (h : scrubNode env id node = some node') : node'.holdsPayload = false := by
  unfold scrubNode at h
  split at h
  · cases h
  · dsimp only at h
    split at h
    · cases h
    · cases h
      unfold StoredNodeRun.holdsPayload
      dsimp only
      rw [not_isLive_scrubbed, not_isLive_scrubbed, Bool.or_false]

theorem nodePass_clears (env : RetentionEnv) (order : OrderBy (String × StoredNodeRun) nodeFinishedAt)
    (olderThan : Time) : (nodePass env order olderThan).Clears (StoredNodeRun.isDue olderThan) where
  needs := by
    intro id node hdue
    rw [StoredNodeRun.isDue, Bool.and_eq_true] at hdue
    exact (scrubNode_isSome env id node).trans hdue.2
  cleared := by
    intro id node node' hscrub hdue
    rw [StoredNodeRun.isDue, scrubNode_holdsPayload hscrub, Bool.and_false] at hdue
    exact absurd hdue Bool.false_ne_true

/-! ### Webhooks -/

/-- `_WEBHOOK_DONE_STATUSES`. -/
def webhookDoneStatuses : List String := ["processed", "error", "duplicate"]

/-- The columns of a `WebhookInbox` row that retention looks at. -/
structure StoredWebhook where
  tenantId : Option String
  status : String
  receivedAt : Option Time
  payload : JsonObject

/-- The `WHERE` of the webhook query: a finished row received before the cutoff. -/
def StoredWebhook.isOld (olderThan : Time) (inbox : StoredWebhook) : Bool :=
  webhookDoneStatuses.contains inbox.status && inbox.receivedAt.any (· < olderThan)

/-- The loop body of `scrub_old_webhook_payloads`: `none` where the row is passed over. -/
def scrubWebhook (env : RetentionEnv) (id : String) (inbox : StoredWebhook) : Option StoredWebhook :=
  if isAlreadyScrubbed inbox.payload then none
  else if inbox.payload.isEmpty then some { inbox with payload := scrubStub (env.scrubbedAt id) none }
  else
    let archiveKey := maybeArchivePayload env "webhook_inbox" inbox.tenantId id inbox.payload
    some { inbox with payload := scrubStub (env.scrubbedAt id) archiveKey }

/-- The time by which the webhook query sorts. -/
def webhookReceivedAt (row : String × StoredWebhook) : ℕ := row.2.receivedAt.getD 0

/-- The query and the loop body of `scrub_old_webhook_payloads`. -/
def webhookPass (env : RetentionEnv) (order : OrderBy (String × StoredWebhook) webhookReceivedAt)
    (olderThan : Time) : BatchPass String StoredWebhook where
  eligible := StoredWebhook.isOld olderThan
  time := webhookReceivedAt
  order := order
  rewrite := scrubWebhook env

/-- `scrub_old_webhook_payloads`: the table after the call and the number of rows scrubbed. -/
def scrubOldWebhookPayloads (env : RetentionEnv) (order : OrderBy (String × StoredWebhook) webhookReceivedAt)
    (olderThan : Time) (batchSize : ℕ) (table : KeyedTable String StoredWebhook) :
    KeyedTable String StoredWebhook × ℕ :=
  (webhookPass env order olderThan).pass (batchSize * 2) batchSize table

/-- The webhook is one that the policy wants scrubbed. -/
def StoredWebhook.isDue (olderThan : Time) (inbox : StoredWebhook) : Bool :=
  inbox.isOld olderThan && isLive inbox.payload

theorem scrubWebhook_isSome (env : RetentionEnv) (id : String) (inbox : StoredWebhook) :
    (scrubWebhook env id inbox).isSome = !isAlreadyScrubbed inbox.payload := by
  unfold scrubWebhook
  dsimp only
  split_ifs with hscrubbed <;> simp [hscrubbed]

theorem scrubWebhook_isLive {env : RetentionEnv} {id : String} {inbox inbox' : StoredWebhook}
    (h : scrubWebhook env id inbox = some inbox') : isLive inbox'.payload = false := by
  unfold scrubWebhook at h
  dsimp only at h
  split_ifs at h <;> obtain rfl := Option.some.inj h <;> simp only [isLive_scrubStub]

theorem webhookPass_clears (env : RetentionEnv) (order : OrderBy (String × StoredWebhook) webhookReceivedAt)
    (olderThan : Time) : (webhookPass env order olderThan).Clears (StoredWebhook.isDue olderThan) where
  needs := by
    intro id inbox hdue
    rw [StoredWebhook.isDue, isLive, Bool.and_eq_true, Bool.and_eq_true] at hdue
    exact (scrubWebhook_isSome env id inbox).trans hdue.2.2
  cleared := by
    intro id inbox inbox' hscrub hdue
    rw [StoredWebhook.isDue, scrubWebhook_isLive hscrub, Bool.and_false] at hdue
    exact absurd hdue Bool.false_ne_true

/-! ### Progress -/

/-- The rows that the node query returns. -/
def nodeCandidates (order : OrderBy (String × StoredNodeRun) nodeFinishedAt) (olderThan : Time)
    (batchSize : ℕ) (table : KeyedTable String StoredNodeRun) : List (String × StoredNodeRun) :=
  (order.sort (table.entries.filter fun row ↦ row.2.isOld olderThan)).take (batchSize * 3)

/-- The rows that the webhook query returns. -/
def webhookCandidates (order : OrderBy (String × StoredWebhook) webhookReceivedAt) (olderThan : Time)
    (batchSize : ℕ) (table : KeyedTable String StoredWebhook) : List (String × StoredWebhook) :=
  (order.sort (table.entries.filter fun row ↦ row.2.isOld olderThan)).take (batchSize * 2)

/-- If a node run is due, one is among the rows of the query. -/
def NodesInReach (order : OrderBy (String × StoredNodeRun) nodeFinishedAt) (olderThan : Time)
    (batchSize : ℕ) (table : KeyedTable String StoredNodeRun) : Prop :=
  BatchPass.HasDue (StoredNodeRun.isDue olderThan) table →
    ∃ row ∈ nodeCandidates order olderThan batchSize table, row.2.holdsPayload

/-- If a webhook is due, one is among the first batch of rows of the query that are not yet scrubbed. -/
def WebhooksInReach (order : OrderBy (String × StoredWebhook) webhookReceivedAt) (olderThan : Time)
    (batchSize : ℕ) (table : KeyedTable String StoredWebhook) : Prop :=
  BatchPass.HasDue (StoredWebhook.isDue olderThan) table →
    ∃ row ∈ ((webhookCandidates order olderThan batchSize table).filter fun row ↦
      !isAlreadyScrubbed row.2.payload).take batchSize, isLive row.2.payload

theorem scrubOldNodePayloads_clears_iff (env : RetentionEnv)
    (order : OrderBy (String × StoredNodeRun) nodeFinishedAt) (olderThan : Time) {batchSize : ℕ}
    (hbatch : 0 < batchSize) (table : KeyedTable String StoredNodeRun) :
    BatchPass.ClearsOne (StoredNodeRun.isDue olderThan) table
        (scrubOldNodePayloads env order olderThan batchSize table).1 ↔
      ∃ row ∈ nodeCandidates order olderThan batchSize table, row.2.holdsPayload := by
  have hneeds : ∀ id node, (nodePass env order olderThan).eligible node →
      ((nodePass env order olderThan).rewrite id node).isSome → node.isDue olderThan := by
    intro id node hold hscrub
    rw [StoredNodeRun.isDue, Bool.and_eq_true]
    exact ⟨hold, (scrubNode_isSome env id node).symm.trans hscrub⟩
  refine (clears_pass_iff_window (nodePass_clears env order olderThan) hneeds hbatch
    (batchSize * 3) table).trans (exists_congr fun row ↦ and_congr_right fun hrow ↦ ?_)
  have hold : row.2.isOld olderThan = true := (mem_of_mem_window hrow).1
  rw [StoredNodeRun.isDue, hold, Bool.true_and]

theorem scrubOldWebhookPayloads_clears_iff (env : RetentionEnv)
    (order : OrderBy (String × StoredWebhook) webhookReceivedAt) (olderThan : Time) (batchSize : ℕ)
    (table : KeyedTable String StoredWebhook) :
    BatchPass.ClearsOne (StoredWebhook.isDue olderThan) table
        (scrubOldWebhookPayloads env order olderThan batchSize table).1 ↔
      ∃ row ∈ ((webhookCandidates order olderThan batchSize table).filter fun row ↦
        !isAlreadyScrubbed row.2.payload).take batchSize, isLive row.2.payload := by
  have hselected : (webhookPass env order olderThan).selected batchSize 0
      ((webhookPass env order olderThan).window (batchSize * 2) table) =
      ((webhookCandidates order olderThan batchSize table).filter fun row ↦
        !isAlreadyScrubbed row.2.payload).take batchSize := by
    unfold selected
    rw [Nat.sub_zero]
    refine congrArg (List.take batchSize) (List.filter_congr fun row _ ↦ ?_)
    exact scrubWebhook_isSome env row.1 row.2
  refine (clears_pass_iff (webhookPass_clears env order olderThan) (batchSize * 2) batchSize
    table).trans ?_
  refine exists_congr fun row ↦ (and_congr_right fun hrow ↦ ?_).trans (and_congr_left' (by rw [hselected]))
  have hold : row.2.isOld olderThan = true :=
    (mem_of_mem_window (mem_window_of_selected hrow)).1
  rw [StoredWebhook.isDue, hold, Bool.true_and]

/-- The conclusion of a call that makes progress only asks for something where a row is due. -/
theorem clears_imp_iff {V : Type*} {due : V → Bool} {table table' : KeyedTable String V} {reach : Prop}
    (h : BatchPass.ClearsOne due table table' ↔ reach) :
    (BatchPass.HasDue due table → BatchPass.ClearsOne due table table') ↔
      (BatchPass.HasDue due table → reach) :=
  imp_congr_right fun _ ↦ h

/-- Progress of one call, for both tables, and of runs of calls in which every call meets the condition. -/
theorem scrub_progress_iff (batchSize : ℕ) (hbatch : 0 < batchSize) (olderThan : Time) :
    (∀ env order table,
      (BatchPass.HasDue (StoredNodeRun.isDue olderThan) table →
        BatchPass.ClearsOne (StoredNodeRun.isDue olderThan) table
          (scrubOldNodePayloads env order olderThan batchSize table).1) ↔
        NodesInReach order olderThan batchSize table) ∧
    (∀ env order table,
      (BatchPass.HasDue (StoredWebhook.isDue olderThan) table →
        BatchPass.ClearsOne (StoredWebhook.isDue olderThan) table
          (scrubOldWebhookPayloads env order olderThan batchSize table).1) ↔
        WebhooksInReach order olderThan batchSize table) ∧
    (∀ (envs : ℕ → RetentionEnv) (orders : ℕ → OrderBy (String × StoredNodeRun) nodeFinishedAt)
        (tables : ℕ → KeyedTable String StoredNodeRun),
      (∀ n, tables (n + 1) = (scrubOldNodePayloads (envs n) (orders n) olderThan batchSize (tables n)).1) →
      (∀ n, NodesInReach (orders n) olderThan batchSize (tables n)) →
      ∀ n, dueCount (StoredNodeRun.isDue olderThan) (tables 0) ≤ n →
        ¬ BatchPass.HasDue (StoredNodeRun.isDue olderThan) (tables n)) ∧
    (∀ (envs : ℕ → RetentionEnv) (orders : ℕ → OrderBy (String × StoredWebhook) webhookReceivedAt)
        (tables : ℕ → KeyedTable String StoredWebhook),
      (∀ n, tables (n + 1) = (scrubOldWebhookPayloads (envs n) (orders n) olderThan batchSize (tables n)).1) →
      (∀ n, WebhooksInReach (orders n) olderThan batchSize (tables n)) →
      ∀ n, dueCount (StoredWebhook.isDue olderThan) (tables 0) ≤ n →
        ¬ BatchPass.HasDue (StoredWebhook.isDue olderThan) (tables n)) := by
  refine ⟨fun env order table ↦ ?_, fun env order table ↦ ?_, fun envs orders tables hnext hreach n hn ↦ ?_,
    fun envs orders tables hnext hreach n hn ↦ ?_⟩
  · exact clears_imp_iff (scrubOldNodePayloads_clears_iff env order olderThan hbatch table)
  · exact clears_imp_iff (scrubOldWebhookPayloads_clears_iff env order olderThan batchSize table)
  · refine no_due_after (fun n ↦ nodePass (envs n) (orders n) olderThan) tables hnext
      (fun n ↦ nodePass_clears _ _ _) (fun n hdue ↦ ?_) hn
    rw [hnext n, scrubOldNodePayloads_clears_iff _ _ _ hbatch]
    exact hreach n hdue
  · refine no_due_after (fun n ↦ webhookPass (envs n) (orders n) olderThan) tables hnext
      (fun n ↦ webhookPass_clears _ _ _) (fun n hdue ↦ ?_) hn
    rw [hnext n, scrubOldWebhookPayloads_clears_iff]
    exact hreach n hdue

/-- No archive; every stub carries one time. -/
def plainRetention : RetentionEnv where
  archiveToStorage := false
  storageConfigured := false
  uploadBytes := fun _ _ ↦ false
  scrubbedAt := fun _ ↦ "2026-02-01T00:00:00+00:00"

def finishedNode (finishedAt : Time) (inputJson : JsonObject) : StoredNodeRun :=
  { tenantId := "t", nodeType := "logic.merge", nodeVersion := 1, status := .succeeded,
    inputJson := inputJson, finishedAt := some finishedAt }

def processedWebhook (receivedAt : Time) (payload : JsonObject) : StoredWebhook :=
  ⟨some "t", "processed", some receivedAt, payload⟩

/-- Three rows that earlier calls have scrubbed, and an old row with an input. -/
def scrubbedNodes : KeyedTable String StoredNodeRun where
  entries :=
    [("a", finishedNode 1 (scrubStub "2026-01-01T00:00:00+00:00" none)),
      ("b", finishedNode 2 (scrubStub "2026-01-01T00:00:00+00:00" none)),
      ("c", finishedNode 3 (scrubStub "2026-01-01T00:00:00+00:00" none)),
      ("d", finishedNode 4 [("text", .str "draft")])]
  nodupKeys := by decide

/-- Two webhooks that earlier calls have scrubbed, and an old one with a payload. -/
def scrubbedWebhooks : KeyedTable String StoredWebhook where
  entries :=
    [("a", processedWebhook 1 (scrubStub "2026-01-01T00:00:00+00:00" none)),
      ("b", processedWebhook 2 (scrubStub "2026-01-01T00:00:00+00:00" none)),
      ("c", processedWebhook 3 [("text", .str "yes")])]
  nodupKeys := by decide

/-- With a batch of two the row is within reach and the call scrubs it. -/
theorem larger_batch_scrubs :
    BatchPass.ClearsOne (StoredNodeRun.isDue 10) scrubbedNodes
      (scrubOldNodePayloads plainRetention (.stable nodeFinishedAt) 10 2 scrubbedNodes).1 :=
  ((scrub_progress_iff 2 (by decide) 10).1 plainRetention (.stable nodeFinishedAt) scrubbedNodes).mpr
    (fun _ ↦ by decide +kernel) ⟨"d", finishedNode 4 [("text", .str "draft")], rfl, by decide +kernel⟩

/-- With a batch of one the scrubbed rows fill the query: a live row is left and the call scrubs none, in
either table. -/
theorem scrubbed_rows_stall :
    ¬ ((BatchPass.HasDue (StoredNodeRun.isDue 10) scrubbedNodes →
        BatchPass.ClearsOne (StoredNodeRun.isDue 10) scrubbedNodes
          (scrubOldNodePayloads plainRetention (.stable nodeFinishedAt) 10 1 scrubbedNodes).1) ∨
      (BatchPass.HasDue (StoredWebhook.isDue 10) scrubbedWebhooks →
        BatchPass.ClearsOne (StoredWebhook.isDue 10) scrubbedWebhooks
          (scrubOldWebhookPayloads plainRetention (.stable webhookReceivedAt) 10 1 scrubbedWebhooks).1)) := by
  rintro (hnodes | hwebhooks)
  · have hclears := hnodes ⟨"d", finishedNode 4 [("text", .str "draft")], rfl, by decide +kernel⟩
    rw [scrubOldNodePayloads_clears_iff _ _ _ (by decide)] at hclears
    revert hclears
    decide +kernel
  · have hclears := hwebhooks ⟨"c", processedWebhook 3 [("text", .str "yes")], rfl, by decide +kernel⟩
    rw [scrubOldWebhookPayloads_clears_iff] at hclears
    revert hclears
    decide +kernel

end ContentGenerator.Workflows

import ContentGenerator.Workflows.ConfigPrecedence
import ContentGenerator.Workflows.NodeResults
import ContentGenerator.Workflows.Timeouts

/-!
# The timeouts of approval and wait nodes

The two nodes that wait for a decision return their configured timeout with their output, for
`persist_waiting_node` to set the time and the action of the wait. The output is validated in between: `WaitOutput`
has fields for the two values, `ApprovalOutput` has not.

Main result: `configured_timeout_arrives_iff`, the configured timeout arrives at the wait and at the two ways to
wake the node for every wait node, and for an approval only if it is what is assumed without one.
-/

namespace ContentGenerator.Workflows

open Lib Lib.JsonObject List Option
open ConfigSchema (get_modelValidate modelValidate)

variable {action : String} {invalid : PyException} {output : JsonObject} {paused : NodeRun} {token : ℕ}

/-! ### Configurations that are read again -/

section Again

variable {lax : LaxMode} {schema : ConfigSchema} {config values : JsonObject}

/-- The fields are named apart, their defaults check, and none is a time. -/
structure ConfigSchema.Plain (schema : ConfigSchema) : Prop where
  names : (schema.fields.map ConfigField.name).Nodup
  defaults : ∀ field ∈ schema.fields, field.defaultChecks = true
  timeless : ∀ field ∈ schema.fields, field.type ≠ .datetime

variable {value : Json} {field : ConfigField} {held : Option Json}

theorem ConfigType.read_again {type : ConfigType} {read : Json} (htime : type ≠ .datetime)
    (h : type.read lax value = some read) : type.read lax read = some read := by
  cases type with
  | bool =>
    obtain ⟨flag, -, rfl⟩ := map_eq_some_iff.mp h
    rfl
  | text pattern maxLength =>
    cases value with
    | str word =>
      dsimp only [ConfigType.read] at h
      split_ifs at h with hbounds
      cases h
      exact if_pos hbounds
    | _ => simp [ConfigType.read] at h
  | int ge le =>
    obtain ⟨n, -, hn⟩ := bind_eq_some_iff.mp h
    split_ifs at hn with hbounds
    cases hn
    exact if_pos hbounds
  | float gt ge le =>
    obtain ⟨x, -, hx⟩ := bind_eq_some_iff.mp h
    split_ifs at hx with hbounds
    cases hx
    exact if_pos hbounds
  | textList =>
    cases value with
    | arr items =>
      dsimp only [ConfigType.read] at h
      split_ifs at h with htexts
      cases h
      exact if_pos htexts
    | _ => simp [ConfigType.read] at h
  | datetime => exact absurd rfl htime
  | any => rfl

theorem ConfigField.read_again (hdefault : field.defaultChecks = true) (htime : field.type ≠ .datetime)
    (h : field.read lax held = some value) : field.read lax (some value) = some value := by
  cases held with
  | none =>
    obtain rfl := Option.some.inj h
    exact ConfigField.read_default hdefault lax
  | some held =>
    unfold ConfigField.read at h ⊢
    dsimp only at h ⊢
    split_ifs at h with hnull
    · obtain rfl := Option.some.inj h
      exact if_pos ⟨hnull.1, rfl⟩
    · split_ifs with hnull'
      · rw [hnull'.2]
      · exact ConfigType.read_again htime h

/-- What a model has accepted is accepted again as it is. -/
theorem ConfigSchema.modelValidate_again (hplain : schema.Plain) (hforbid : schema.forbidExtra = false)
    (h : schema.modelValidate lax config = some values) : schema.modelValidate lax values = some values := by
  have hget (field : ConfigField) (hfield : field ∈ schema.fields) :=
    get_modelValidate hplain.names h hfield
  unfold modelValidate at h ⊢
  rw [if_neg (by simp [hforbid])] at h ⊢
  obtain ⟨read, hread, hcheck⟩ := bind_eq_some_iff.mp h
  split_ifs at hcheck with hchecked
  obtain rfl := Option.some.inj hcheck
  have hsame : (schema.fields.mapM fun field ↦
      (field.read lax (get read field.name)).map fun value ↦ (field.name, value)) = some read := by
    refine (mapM_eq_some_iff hread).mpr fun field hfield ↦ ?_
    rw [hget field hfield]
    obtain ⟨entry, hentry⟩ := exists_of_mapM hread field hfield
    obtain ⟨value, hvalue, -⟩ := map_eq_some_iff.mp hentry
    rw [hvalue, ConfigField.read_again (hplain.defaults field hfield) (hplain.timeless field hfield) hvalue]
  rw [hsame]
  exact if_pos hchecked

theorem ConfigField.text_of_read
    (hdefault : field.defaultChecks = true) {pattern : Option (List String)} {maxLength : Option ℕ}
    (htype : field.type = .text pattern maxLength) (hrequired : field.optional = false)
    (h : field.read lax held = some value) : ∃ word, value = .str word ∧ withinBound (word ∈ ·) pattern := by
  have hagain := ConfigField.read_again hdefault (by rw [htype]; simp) h
  unfold ConfigField.read at hagain
  dsimp only at hagain
  rw [if_neg (by simp [hrequired]), htype] at hagain
  cases value with
  | str word =>
    dsimp only [ConfigType.read] at hagain
    split_ifs at hagain with hbounds
    exact ⟨word, rfl, hbounds.1⟩
  | _ => simp [ConfigType.read] at hagain

/-- An integer field holds nothing or a number within its lower bound. -/
theorem ConfigField.int_of_read
    (hdefault : field.defaultChecks = true) {ge le : Option ℤ} (htype : field.type = .int ge le)
    (h : field.read lax held = some value) :
    (field.optional = true ∧ value = .null) ∨ ∃ n, value = .int n ∧ withinBound (· ≤ n) ge := by
  have hagain := ConfigField.read_again hdefault (by rw [htype]; simp) h
  unfold ConfigField.read at hagain
  dsimp only at hagain
  split_ifs at hagain with hnull
  · exact .inl hnull
  · rw [htype] at hagain
    obtain ⟨n, -, hn⟩ := bind_eq_some_iff.mp hagain
    split_ifs at hn with hbounds
    exact .inr ⟨n, (Option.some.inj hn).symm, hbounds.1⟩

end Again

/-! ### The wait node -/

/-- `correlation_key` of `WaitInput` and `WaitOutput`. -/
def correlationField : ConfigField :=
  { name := "correlation_key", type := .text none none, optional := true, default := .null }

/-- `status` of `WaitOutput`. -/
def waitStatusField : ConfigField := { name := "status", type := .text none none, default := .str "pending" }

/-- `timeout_seconds` of `WaitOutput`. -/
def waitTimeoutField : ConfigField :=
  { name := "timeout_seconds", type := .int none none, optional := true, default := .null }

/-- `on_timeout` of `WaitOutput`. -/
def waitActionField : ConfigField :=
  { name := "on_timeout", type := .text none none, optional := true, default := .null }

/-- `WaitInput.model_validate` with `model_dump`. -/
def readWaitInput (lax : LaxMode) (inputs : JsonObject) : Option JsonObject := do
  let key ← correlationField.read lax (get inputs "correlation_key")
  let payload ← objectField (get inputs "payload")
  return [("correlation_key", key), ("payload", .obj payload)]

/-- `WaitOutput.model_validate` with `model_dump`. -/
def readWaitOutput (lax : LaxMode) (output : JsonObject) : Option JsonObject := do
  let status ← waitStatusField.read lax (get output "status")
  let event ← (get output "event").filter fun value ↦ isText value
  let key ← correlationField.read lax (get output "correlation_key")
  let payload ← objectField (get output "event_payload")
  let timeout ← waitTimeoutField.read lax (get output "timeout_seconds")
  let onTimeout ← waitActionField.read lax (get output "on_timeout")
  return [("status", status), ("event", event), ("correlation_key", key), ("event_payload", .obj payload),
    ("timeout_seconds", timeout), ("on_timeout", onTimeout)]

/-- The registered wait node; `invalid` is the error of its models. -/
def waitNode (lax : LaxMode) (invalid : PyException) : NodeImpl where
  type := "wait"
  category := "control"
  mayPause := true
  inputPorts := [⟨"correlation_key", "string", false⟩, ⟨"payload", "object", false⟩]
  outputPorts := [⟨"status", "string", true⟩, ⟨"event", "string", true⟩, ⟨"event_payload", "object", false⟩]
  validateConfig := fun config ↦ orInvalid invalid (waitConfig.modelValidate lax config)
  validateInputs := fun inputs ↦ orInvalid invalid (readWaitInput lax inputs)
  validateOutput := fun output ↦ orInvalid invalid (readWaitOutput lax output)

def waitOutput (input config : JsonObject) : JsonObject :=
  let timeout := (get config "timeout_seconds").getD .null
  [("status", .str "pending"), ("event", (get config "event").getD .null),
    ("correlation_key", (get input "correlation_key").getD .null),
    ("event_payload", (get input "payload").getD .null), ("timeout_seconds", timeout),
    ("on_timeout", if timeout.truthy then (get config "on_timeout").getD .null else .null)]

/-- `WaitNode.execute`. -/
def waitExecute (lax : LaxMode) (invalid : PyException) (inputs config : JsonObject) :
    Except PyException NodeResult := do
  let typedIn ← orInvalid invalid (readWaitInput lax inputs)
  let typedCfg ← orInvalid invalid (waitConfig.modelValidate lax config)
  return { status := .waiting
           output := waitOutput typedIn typedCfg
           waitingReason := some "event_pending" }

/-! ### The approval node -/

/-- What `send_for_approval` and the delivery give: the columns of the request, and the channels. -/
structure SentApproval where
  requestId : String
  status : String
  channels : List String
  revisionCount : ℤ

/-- The code of other packages: `UUID(text)` as the text of the UUID, `int(text)`, `str` of floats and containers,
their errors, and the approval service, which may raise. -/
structure ApprovalSupport where
  uuid : String → Option String
  pyInt : String → Option ℤ
  render : Json → String
  invalid : PyException
  valueError : PyException
  typeError : PyException
  send : JsonObject → JsonObject → Except PyException SentApproval

/-- A `UUID`. -/
def uuidField (uuid : String → Option String) : Json → Option Json
  | .str text => (uuid text).map .str
  | _ => none

/-- A `UUID | None`, absent by default. -/
def optionalUuidField (uuid : String → Option String) : Option Json → Option Json
  | none | some .null => some .null
  | some value => uuidField uuid value

/-- `channels` of `ApprovalOutput`. -/
def channelsField : ConfigField := { name := "channels", type := .textList, default := .arr [] }

/-- `revision_count` of `ApprovalOutput`. -/
def revisionField : ConfigField := { name := "revision_count", type := .int none none, default := .int 0 }

/-- `ApprovalInput.model_validate` with `model_dump`. -/
def readApprovalInput (support : ApprovalSupport) (inputs : JsonObject) : Option JsonObject := do
  let job ← (get inputs "content_job_id").bind (uuidField support.uuid)
  return [("content_job_id", job)]

/-- `ApprovalOutput.model_validate` with `model_dump`. -/
def readApprovalOutput (lax : LaxMode) (support : ApprovalSupport) (output : JsonObject) : Option JsonObject := do
  let request ← optionalUuidField support.uuid (get output "approval_request_id")
  let status ← (get output "status").filter fun value ↦ isText value
  let channels ← channelsField.read lax (get output "channels")
  let job ← optionalUuidField support.uuid (get output "content_job_id")
  let count ← revisionField.read lax (get output "revision_count")
  return [("approval_request_id", request), ("status", status), ("channels", channels),
    ("content_job_id", job), ("revision_count", count)]

def approvalNode (lax : LaxMode) (support : ApprovalSupport) : NodeImpl where
  type := "approval"
  category := "human"
  mayPause := true
  inputPorts := [⟨"content_job_id", "uuid", true⟩]
  outputPorts := [⟨"approval_request_id", "uuid", false⟩, ⟨"status", "string", true⟩,
    ⟨"channels", "array", true⟩, ⟨"content_job_id", "uuid", false⟩, ⟨"revision_count", "number", false⟩]
  validateConfig := fun config ↦ orInvalid support.invalid (approvalConfig.modelValidate lax config)
  validateInputs := fun inputs ↦ orInvalid support.invalid (readApprovalInput support inputs)
  validateOutput := fun output ↦ orInvalid support.invalid (readApprovalOutput lax support output)

/-- The timeout that the output carries next to its fields. -/
def approvalTimeout (config : JsonObject) : JsonObject :=
  [("timeout_seconds", (get config "timeout_seconds").getD .null),
    ("on_timeout", (get config "on_timeout").getD .null)]

/-- `prior.get(key) or fallback`. -/
def orValue (held : Option Json) (fallback : Json) : Json := held.getD fallback

/-- The output for the request that an earlier attempt of the row has created. -/
def priorApproval (support : ApprovalSupport) (prior input config : JsonObject) (requestId : Json) :
    Except PyException JsonObject := do
  let channels ← orInvalid support.typeError
    (orValue (getTruthy prior "channels") ((get config "channels").getD .null)).pyList
  let count ← orInvalid support.valueError
    (support.pyInt ((orValue (getTruthy prior "revision_count") (.int 0)).text support.render))
  return [("approval_request_id", requestId),
    ("status", .str ((orValue (getTruthy prior "status") (.str "pending")).text support.render)),
    ("channels", .arr channels),
    ("content_job_id", .str ((orValue (getTruthy prior "content_job_id")
      ((get input "content_job_id").getD .null)).text support.render)),
    ("revision_count", .int count)] ++ approvalTimeout config

/-- The output for a request that has just been sent. -/
def sentApproval (input config : JsonObject) (sent : SentApproval) : JsonObject :=
  [("approval_request_id", .str sent.requestId), ("status", .str sent.status),
    ("channels", if sent.channels.isEmpty then (get config "channels").getD .null
      else .arr (sent.channels.map .str)),
    ("content_job_id", (get input "content_job_id").getD .null),
    ("revision_count", .int sent.revisionCount)] ++ approvalTimeout config

/-- `ApprovalNode.execute`; `prior` is the output that the row has already. -/
def approvalExecute (lax : LaxMode) (support : ApprovalSupport) (prior inputs config : JsonObject) :
    Except PyException NodeResult := do
  let typedIn ← orInvalid support.invalid (readApprovalInput support inputs)
  let typedCfg ← orInvalid support.invalid (approvalConfig.modelValidate lax config)
  if get typedCfg "required" = some (.bool false) then
    return { status := .succeeded
             output := [("approval_request_id", .null), ("status", .str "not_required"), ("channels", .arr []),
               ("content_job_id", (get typedIn "content_job_id").getD .null), ("revision_count", .int 0)] }
  match getTruthy prior "approval_request_id" with
  | some requestId =>
    let output ← priorApproval support prior typedIn typedCfg requestId
    return { status := .waiting, output := output, waitingReason := some "approval_pending" }
  | none =>
    let sent ← support.send typedIn typedCfg
    return { status := .waiting
             output := sentApproval typedIn typedCfg sent
             waitingReason := some "approval_pending" }

/-! ### What the outputs carry -/

section Outputs

variable {lax : LaxMode} {config values : JsonObject} {schema : ConfigSchema}

theorem ConfigSchema.exists_read (hnames : (schema.fields.map ConfigField.name).Nodup)
    (h : schema.modelValidate lax config = some values) {field : ConfigField} (hfield : field ∈ schema.fields) :
    ∃ value, get values field.name = some value ∧ field.read lax (get config field.name) = some value := by
  have hget := get_modelValidate hnames h hfield
  unfold modelValidate at h
  split_ifs at h
  obtain ⟨read, hread, -⟩ := bind_eq_some_iff.mp h
  obtain ⟨entry, hentry⟩ := exists_of_mapM hread field hfield
  obtain ⟨value, hvalue, -⟩ := map_eq_some_iff.mp hentry
  exact ⟨value, hget.trans hvalue, hvalue⟩

theorem waitConfig_plain : waitConfig.Plain := ⟨by decide, by decide +kernel, by decide⟩

/-- What the model of a wait accepts. -/
theorem waitConfig_values (h : waitConfig.modelValidate lax config = some values) :
    ∃ event timeout action, get values "event" = some (.str event) ∧
      get values "timeout_seconds" = some timeout ∧ (timeout = .null ∨ ∃ n : ℤ, timeout = .int n ∧ 60 ≤ n) ∧
      get values "on_timeout" = some (.str action) ∧ action ∈ ["fail", "continue"] := by
  have hdefaults := waitConfig_plain.defaults
  obtain ⟨event, hevent, hreadEvent⟩ := ConfigSchema.exists_read waitConfig_plain.names h
    (show waitConfig.fields[0] ∈ waitConfig.fields by simp [waitConfig])
  obtain ⟨timeout, htimeout, hreadTimeout⟩ := ConfigSchema.exists_read waitConfig_plain.names h
    (show waitConfig.fields[1] ∈ waitConfig.fields by simp [waitConfig])
  obtain ⟨action, haction, hreadAction⟩ := ConfigSchema.exists_read waitConfig_plain.names h
    (show waitConfig.fields[2] ∈ waitConfig.fields by simp [waitConfig])
  obtain ⟨eventText, rfl, -⟩ := ConfigField.text_of_read (hdefaults _ (by simp [waitConfig])) rfl rfl hreadEvent
  obtain ⟨actionText, rfl, hwords⟩ :=
    ConfigField.text_of_read (hdefaults _ (by simp [waitConfig])) rfl rfl hreadAction
  refine ⟨eventText, timeout, actionText, hevent, htimeout, ?_, haction, by simpa [withinBound] using hwords⟩
  rcases ConfigField.int_of_read (hdefaults _ (by simp [waitConfig])) rfl hreadTimeout with
    ⟨-, hnull⟩ | ⟨n, hn, hbound⟩
  · exact .inl hnull
  · exact .inr ⟨n, hn, by simpa [withinBound] using hbound⟩

variable {inputs typedIn : JsonObject}

theorem readWaitInput_values (h : readWaitInput lax inputs = some typedIn) :
    ∃ key payload, typedIn = [("correlation_key", key), ("payload", .obj payload)] ∧
      correlationField.read lax (some key) = some key := by
  obtain ⟨key, hkey, h⟩ := bind_eq_some_iff.mp h
  obtain ⟨payload, -, h⟩ := bind_eq_some_iff.mp h
  exact ⟨key, payload, (Option.some.inj h).symm, ConfigField.read_again rfl (by decide) hkey⟩

theorem readWaitInput_again (h : readWaitInput lax inputs = some typedIn) :
    readWaitInput lax typedIn = some typedIn := by
  obtain ⟨key, payload, rfl, hkey⟩ := readWaitInput_values h
  change (correlationField.read lax (some key)).bind _ = _
  rw [hkey]
  rfl

/-- The output of a wait passes its schema as it is. -/
theorem readWaitOutput_waitOutput (hinputs : readWaitInput lax inputs = some typedIn)
    (h : waitConfig.modelValidate lax config = some values) :
    readWaitOutput lax (waitOutput typedIn values) = some (waitOutput typedIn values) := by
  obtain ⟨key, payload, rfl, hkey⟩ := readWaitInput_values hinputs
  obtain ⟨event, timeout, action, hevent, htimeout, hbound, haction, -⟩ := waitConfig_values h
  have hshape : waitOutput [("correlation_key", key), ("payload", .obj payload)] values =
      [("status", .str "pending"), ("event", .str event), ("correlation_key", key),
        ("event_payload", .obj payload), ("timeout_seconds", timeout),
        ("on_timeout", if timeout.truthy then .str action else .null)] := by
    unfold waitOutput
    rw [hevent, htimeout, haction]
    rfl
  have htimeoutField : waitTimeoutField.read lax (some timeout) = some timeout := by
    rcases hbound with rfl | ⟨n, rfl, -⟩ <;> rfl
  have hactionField : waitActionField.read lax (some (if timeout.truthy then .str action else .null)) =
      some (if timeout.truthy then .str action else .null) := by
    split_ifs <;> rfl
  rw [hshape]
  change (correlationField.read lax (some key)).bind _ = _
  rw [hkey]
  change (waitTimeoutField.read lax (some timeout)).bind _ = _
  rw [htimeoutField]
  change (waitActionField.read lax (some _)).bind _ = _
  rw [hactionField]
  rfl

theorem timeoutSeconds_waitOutput (typedIn : JsonObject) {timeout : Option ℕ}
    (htimeout : get values "timeout_seconds" = some ((timeout.map fun n : ℕ ↦ Json.int n).getD .null))
    (hpositive : ∀ n ∈ timeout, 0 < n) : timeoutSeconds (waitOutput typedIn values) = timeout := by
  have hget : get (waitOutput typedIn values) "timeout_seconds" =
      some ((timeout.map fun n : ℕ ↦ Json.int n).getD .null) := by
    unfold waitOutput
    rw [htimeout]
    rfl
  unfold timeoutSeconds
  rw [hget]
  cases timeout with
  | none => rfl
  | some n =>
    have hn : 0 < (n : ℤ) := by exact_mod_cast hpositive n rfl
    change (if 0 < (n : ℤ) then some (n : ℤ).toNat else none) = some n
    rw [if_pos hn, Int.toNat_natCast]

theorem onTimeoutText_waitOutput (render : Json → String) (typedIn : JsonObject) {n : ℕ}
    (htimeout : get values "timeout_seconds" = some (.int n)) (hpositive : 0 < n)
    (haction : get values "on_timeout" = some (.str action)) (hword : action ∈ ["fail", "continue"]) :
    onTimeoutText render (waitOutput typedIn values) "fail" = action := by
  have hget : get (waitOutput typedIn values) "on_timeout" = some (.str action) := by
    have htruthy : (Json.int n).truthy := by
      simp only [Json.truthy, ne_eq, Nat.cast_eq_zero, decide_not, Bool.not_eq_eq_eq_not, Bool.not_true,
        decide_eq_false_iff_not]
      omega
    unfold waitOutput
    rw [htimeout, haction]
    dsimp only [getD_some]
    rw [htruthy]
    rfl
  have hnonempty : (Json.str action).truthy := by
    rcases mem_cons.mp hword with rfl | hword
    · rfl
    · rw [mem_singleton.mp hword]
      rfl
  unfold onTimeoutText getTruthy
  rw [hget, filter_some, if_pos hnonempty]
  rfl

theorem approvalExecute_waiting {support : ApprovalSupport} {prior : JsonObject} {result : NodeResult}
    (h : approvalExecute lax support prior inputs config = .ok result) (hstatus : result.status = .waiting)
    (hread : readApprovalOutput lax support result.output = some output) :
    result.waitingReason = some "approval_pending" ∧ get output "timeout_seconds" = none ∧
      get output "on_timeout" = none := by
  refine ⟨?_, ?_⟩
  · unfold approvalExecute at h
    simp only [bind, Except.bind] at h
    split at h
    · cases h
    · split at h
      · cases h
      · split_ifs at h
        · cases h
          cases hstatus
        · split at h
          · split at h
            · cases h
            · cases h
              rfl
          · split at h
            · cases h
            · cases h
              rfl
  · obtain ⟨request, -, hread⟩ := bind_eq_some_iff.mp hread
    obtain ⟨status, -, hread⟩ := bind_eq_some_iff.mp hread
    obtain ⟨channels, -, hread⟩ := bind_eq_some_iff.mp hread
    obtain ⟨job, -, hread⟩ := bind_eq_some_iff.mp hread
    obtain ⟨count, -, hread⟩ := bind_eq_some_iff.mp hread
    cases hread
    exact ⟨rfl, rfl⟩

end Outputs

/-! ### The property -/

variable {env : EngineEnv} {now : Time} {args : ExecuteArgs} {graphNode : GraphNode} {before : Executed}
  {initialInputs : JsonObject} {row : NodeRun} {prepared : Prepared} {lax : LaxMode}
  {mockGenerationResult : String → JsonObject → NodeResult} {timeout : Option ℕ} {onTimeout : String}

structure Configured (values : JsonObject) (timeout : Option ℕ) (onTimeout : String) : Prop where
  timeout : get values "timeout_seconds" = some ((timeout.map fun n : ℕ ↦ Json.int n).getD .null)
  action : get values "on_timeout" = some (.str onTimeout)

/-- Whenever the row waits under the token and a resume of it as expired with the decision returns, the row has
succeeded, or it has failed. -/
def ResumesAs (env : EngineEnv) (id : RowId) (token : ℕ) (decision : JsonObject) (succeeds : Bool) : Prop :=
  ∀ later advances st st' row, st.nodes.byResumeToken token = some (id, row) → row.status = .waiting →
    resumeWaitingNode env later token "expired" decision advances st = .ok st' →
    ∃ row', st'.nodes.find id = some row' ∧ row'.status = if succeeds then .succeeded else .failed

/-- The execution has created the wait: it is due when the configured timeout has passed, its action is the
configured one, and the message and the scanner resume the row in the configured way. -/
structure TimeoutArrives (env : EngineEnv) (now : Time) (id : RowId) (timeout : Option ℕ) (onTimeout : String)
    (before done : Executed) (wait : Wait) : Prop where
  waits : done.state.waits = before.state.waits ++ [wait]
  node : wait.nodeRun = id
  wakeAt : wait.wakeAt = timeout.map fun seconds ↦ now + seconds * 1000000
  action : timeout.isSome → (wait.timeoutAction = some "continue" ↔ onTimeout = "continue")
  message : timeout.isSome → ∃ earliest decision,
    done.state.outbox = before.state.outbox ++
      [{ earliest := earliest, message := .resume wait.resumeToken "expired" decision }] ∧
    ResumesAs env id wait.resumeToken decision (onTimeout = "continue")
  scan : timeout.isSome → wait.dueOutcome = "expired" ∧
    ResumesAs env id wait.resumeToken wait.dueDecision (onTimeout = "continue")

/-- An attempt of a wait node with accepted inputs and configuration. -/
structure WaitAttempt (env : EngineEnv) (args : ExecuteArgs) (graphNode : GraphNode) (before : Executed)
    (initialInputs : JsonObject) (row : NodeRun) (prepared : Prepared) (lax : LaxMode) (invalid : PyException)
    (mockGenerationResult : String → JsonObject → NodeResult) (timeout : Option ℕ) (onTimeout : String) : Prop
    extends Attempts env args graphNode before initialInputs row prepared where
  type : graphNode.type = "wait"
  rowType : row.nodeType = "wait"
  impl : env.registry.get graphNode.type graphNode.version = some (waitNode lax invalid)
  mock : env.maybeMockNodeResult = maybeMockNodeResult mockGenerationResult
  outcome : args.outcome = performs (waitNode lax invalid) (waitExecute lax invalid) prepared.inputs
    (resolvedConfig before.state.run graphNode)
  inputs : (readWaitInput lax prepared.inputs).isSome
  config : ∃ values, waitConfig.modelValidate lax (resolvedConfig before.state.run graphNode) = some values ∧
    Configured values timeout onTimeout

/-- An attempt of an approval node with accepted inputs and configuration whose `execute` returns a pause that
passes its schema. -/
structure ApprovalAttempt (env : EngineEnv) (args : ExecuteArgs) (graphNode : GraphNode) (before : Executed)
    (initialInputs : JsonObject) (row : NodeRun) (prepared : Prepared) (lax : LaxMode) (support : ApprovalSupport)
    (mockGenerationResult : String → JsonObject → NodeResult) (timeout : Option ℕ) (onTimeout : String) : Prop
    extends Attempts env args graphNode before initialInputs row prepared where
  type : graphNode.type = "approval"
  rowType : row.nodeType = "approval"
  impl : env.registry.get graphNode.type graphNode.version = some (approvalNode lax support)
  mock : env.maybeMockNodeResult = maybeMockNodeResult mockGenerationResult
  outcome : args.outcome = performs (approvalNode lax support) (approvalExecute lax support row.outputJson)
    prepared.inputs (resolvedConfig before.state.run graphNode)
  config : ∃ values, approvalConfig.modelValidate lax (resolvedConfig before.state.run graphNode) = some values ∧
    Configured values timeout onTimeout
  pauses : ∃ result output, args.outcome = .ok result ∧ result.status = .waiting ∧
    readApprovalOutput lax support result.output = some output

/-! ### Resumes after a timeout -/

/-- A resume that returns has decided by the action of the decision. -/
theorem resumesAs_continuesAfterTimeout (env : EngineEnv) (id : RowId) (token : ℕ) (decision : JsonObject) :
    ResumesAs env id token decision (continuesAfterTimeout env.render "expired" decision) := by
  intro later advances st st' row hentry hwaiting hresumed
  obtain ⟨-, entry, hentry', hcases⟩ := resumeWaitingNode_eq_ok hresumed
  obtain rfl := mem_unique hentry hentry'
  rcases hcases with ⟨hother, -⟩ | ⟨-, hrow⟩
  · exact absurd hwaiting hother
  have hnormal : pyLower (pyStrip "expired") = "expired" := by decide +kernel
  have hfind := NodeTable.find_of_byResumeToken hentry
  rw [hnormal, resumeRow_eq hfind] at hrow
  cases hmarked : markResumed later token "expired" decision row st.waits with
  | error exc =>
    rw [hmarked] at hrow
    cases hrow
  | ok waits =>
    rw [hmarked] at hrow
    cases hrow
    obtain ⟨row', hrow', hstatus, -⟩ := resumedState_find env later "expired" decision advances waits hfind
    have hexpired : "expired" ∉ successOutcomes := by decide
    refine ⟨row', hrow', ?_⟩
    rw [hstatus]
    simp only [hexpired, false_or]

/-- The action of a decision lets the run go on exactly when it is `continue`. -/
theorem continuesAfterTimeout_action (render : Json → String) (action : String) :
    continuesAfterTimeout render "expired" [("on_timeout", .str action)] = decide (action = "continue") := by
  unfold continuesAfterTimeout getTruthy
  by_cases hempty : action = ""
  · subst hempty
    simp [get_cons, filter_some, Json.truthy]
  · have htruthy : (Json.str action).truthy := by simpa [Json.truthy] using hempty
    simp [get_cons, filter_some, htruthy, Json.text]

/-- The decision of the scanner on a wait whose action it reads. -/
theorem continuesAfterTimeout_dueDecision (render : Json → String) {wait : Wait} (htype : wait.waitType = .event)
    (htimeout : wait.timeout = some (.str action)) :
    continuesAfterTimeout render "expired" wait.dueDecision = decide (action = "continue") := by
  rw [dueDecision_of_timeout htype htimeout]
  split_ifs with hfail hempty
  · rw [continuesAfterTimeout_action, hfail]
    decide
  · rw [hempty]
    rfl
  · exact continuesAfterTimeout_action render action

/-! ### The two nodes -/

/-- What the pause of a node without a timeout in its output creates, when it is not a delay. -/
theorem persistWaitingNode_approval (now : Time) (env : EngineEnv) (id : RowId) (waitId : ℕ)
    (htype : paused.nodeType = "approval") (htoken : paused.resumeToken = some token)
    (htimeout : get output "timeout_seconds" = none) (haction : get output "on_timeout" = none) :
    ∃ wait earliest, persistWaitingNode env.render env.parseResumeAt env.isoFormat now id paused waitId output
        (some "approval_pending") =
        ([wait], [{ earliest := earliest
                    message := .resume wait.resumeToken "expired" [("on_timeout", .str "stop")] }]) ∧
      wait.nodeRun = id ∧ wait.wakeAt = some (now + 86400 * 1000000) ∧ wait.timeoutAction = some "fail" ∧
      wait.waitType = .event ∧ wait.timeout = some (.str "stop") := by
  have hseconds : timeoutSeconds output = none := by
    unfold timeoutSeconds
    rw [htimeout]
  have haction : onTimeoutText env.render output "stop" = "stop" := by
    unfold onTimeoutText getTruthy
    rw [haction]
    rfl
  unfold persistWaitingNode
  rw [htoken]
  dsimp only
  rw [if_neg (by simp [htype]), if_neg (by simp [htype]), if_pos (by simp [htype]), hseconds, haction]
  exact ⟨_, _, rfl, rfl, rfl, rfl, rfl, rfl⟩

theorem persistWaitingNode_event (now : Time) (env : EngineEnv) (id : RowId) (waitId : ℕ)
    (htype : paused.nodeType = "wait") (htoken : paused.resumeToken = some token)
    (hseconds : timeoutSeconds output = timeout)
    (haction : timeout.isSome → onTimeoutText env.render output "fail" = onTimeout) (hnonempty : onTimeout ≠ "") :
    ∃ wait messages, persistWaitingNode env.render env.parseResumeAt env.isoFormat now id paused waitId output
        (some "event_pending") = ([wait], messages) ∧
      wait.nodeRun = id ∧ wait.wakeAt = timeout.map (fun seconds ↦ now + seconds * 1000000) ∧
      wait.waitType = .event ∧ (timeout.isSome → wait.timeoutAction = some onTimeout ∧
        wait.timeout = some (.str onTimeout) ∧ ∃ earliest, messages =
          [{ earliest := earliest
             message := .resume wait.resumeToken "expired" [("on_timeout", .str onTimeout)] }]) := by
  unfold persistWaitingNode
  rw [htoken]
  dsimp only
  rw [if_neg (by simp [htype]), if_pos (by simp [htype]), hseconds]
  refine ⟨_, _, rfl, rfl, rfl, rfl, fun hsome ↦ ?_⟩
  obtain ⟨seconds, rfl⟩ := isSome_iff_exists.mp hsome
  rw [haction hsome]
  refine ⟨rfl, rfl, (scheduleFastWake now token (now + seconds * 1000000) "expired" []).earliest, ?_⟩
  simp [scheduleFastWake, Option.filter, hnonempty]

theorem WaitAttempt.pauses
    (h : WaitAttempt env args graphNode before initialInputs row prepared lax invalid mockGenerationResult timeout
      onTimeout) {typedIn values : JsonObject} (hread : readWaitInput lax prepared.inputs = some typedIn)
    (hvalues : waitConfig.modelValidate lax (resolvedConfig before.state.run graphNode) = some values) :
    judgeNode env before.state.run graphNode prepared args.outcome =
      .ok (.result { status := .waiting, output := waitOutput typedIn values,
                     waitingReason := some "event_pending" } (waitOutput typedIn values)) := by
  have hinputs : (waitNode lax invalid).validateInputs prepared.inputs = .ok typedIn := by
    change orInvalid invalid (readWaitInput lax _) = _
    rw [hread]
    rfl
  have hconfig : (waitNode lax invalid).validateConfig (resolvedConfig before.state.run graphNode) =
      .ok values := by
    change orInvalid invalid (waitConfig.modelValidate lax _) = _
    rw [hvalues]
    rfl
  have hexecute : waitExecute lax invalid typedIn values =
      .ok { status := .waiting, output := waitOutput typedIn values, waitingReason := some "event_pending" } := by
    unfold waitExecute
    rw [readWaitInput_again hread, ConfigSchema.modelValidate_again waitConfig_plain rfl hvalues]
    rfl
  have hperform := h.performs_accepted h.impl rfl h.mock (by rw [h.type]; decide) hinputs hconfig
    (waitExecute lax invalid)
  rw [hexecute, ← h.outcome] at hperform
  refine judgeNode_of_valid hperform (by simp) ?_
  rw [h.prepared_impl h.impl]
  change orInvalid invalid (readWaitOutput lax (waitOutput typedIn values)) = _
  rw [readWaitOutput_waitOutput hread hvalues]
  rfl

theorem WaitAttempt.arrives (now : Time)
    (h : WaitAttempt env args graphNode before initialInputs row prepared lax invalid mockGenerationResult timeout
      onTimeout) :
    ∃ done wait, executeReadyNode env now args graphNode before initialInputs = .ok done ∧
      TimeoutArrives env now args.row timeout onTimeout before done wait := by
  obtain ⟨typedIn, hread⟩ := isSome_iff_exists.mp h.inputs
  obtain ⟨values, hvalues, hconfigured⟩ := h.config
  -- the configured values
  obtain ⟨-, held, action, -, hheld, hbound, haction, hword⟩ := waitConfig_values hvalues
  obtain rfl : onTimeout = action := Json.str.inj (mem_unique hconfigured.action haction)
  have hpositive : ∀ n ∈ timeout, 0 < n := by
    intro n hn
    obtain rfl : timeout = some n := hn
    obtain rfl := mem_unique hheld hconfigured.timeout
    rcases hbound with hnull | ⟨m, hm, hle⟩
    · cases hnull
    · have hm' : (n : ℤ) = m := Json.int.inj hm
      omega
  have hnonempty : onTimeout ≠ "" := by
    rintro rfl
    exact absurd hword (by decide)
  obtain ⟨done, hdone, -, hwaits, houtbox⟩ := executeReadyNode_waiting now h.toAttempts rfl
    (h.pauses hread hvalues)
  obtain ⟨token, htoken⟩ := pausedRow_resumeToken now args before row prepared (some "event_pending")
    (waitOutput typedIn values)
  obtain ⟨wait, messages, hpersist, hnode, hwake, hevent, htimed⟩ := persistWaitingNode_event now env args.row
    before.state.waits.length ((pausedRow_nodeType now args before row prepared _ _).trans h.rowType) htoken
    (timeoutSeconds_waitOutput typedIn hconfigured.timeout hpositive)
    (fun hsome ↦ by
      obtain ⟨n, rfl⟩ := isSome_iff_exists.mp hsome
      exact onTimeoutText_waitOutput env.render typedIn hconfigured.timeout (hpositive n rfl) haction hword)
    hnonempty
  rw [hpersist] at hwaits houtbox
  refine ⟨done, wait, hdone, hwaits, hnode, hwake, fun hsome ↦ ?_, fun hsome ↦ ?_, fun hsome ↦ ?_⟩
  · rw [(htimed hsome).1, Option.some.injEq]
  · obtain ⟨earliest, hmessages⟩ := (htimed hsome).2.2
    refine ⟨earliest, [("on_timeout", .str onTimeout)], by rw [houtbox, hmessages], ?_⟩
    rw [← continuesAfterTimeout_action env.render]
    exact resumesAs_continuesAfterTimeout env _ _ _
  · refine ⟨by rw [Wait.dueOutcome, hevent], ?_⟩
    rw [← continuesAfterTimeout_dueDecision env.render hevent (htimed hsome).2.1]
    exact resumesAs_continuesAfterTimeout env _ _ _

/-- What an approval creates has no timeout of its own. -/
theorem ApprovalAttempt.executes (now : Time) {support : ApprovalSupport}
    (h : ApprovalAttempt env args graphNode before initialInputs row prepared lax support mockGenerationResult
      timeout onTimeout) :
    ∃ done wait earliest, executeReadyNode env now args graphNode before initialInputs = .ok done ∧
      done.state.waits = before.state.waits ++ [wait] ∧
      done.state.outbox = before.state.outbox ++
        [{ earliest := earliest
           message := .resume wait.resumeToken "expired" [("on_timeout", .str "stop")] }] ∧
      wait.nodeRun = args.row ∧ wait.wakeAt = some (now + 86400 * 1000000) ∧
      wait.timeoutAction = some "fail" ∧ wait.waitType = .event ∧ wait.timeout = some (.str "stop") := by
  obtain ⟨result, output, houtcome, hstatus, hread⟩ := h.pauses
  obtain ⟨typedIn, typedCfg, hinputs, hconfig, hexecute⟩ := performs_eq_ok (h.outcome.symm.trans houtcome)
  obtain ⟨hreason, htimeout, haction⟩ := approvalExecute_waiting hexecute hstatus hread
  have hperform := h.performs_accepted h.impl rfl h.mock (by rw [h.type]; decide) hinputs hconfig
    (approvalExecute lax support row.outputJson)
  rw [hexecute, ← h.outcome] at hperform
  have hverdict := judgeNode_of_valid hperform (by rw [hstatus]; decide)
    (show prepared.impl.validateOutput result.output = .ok output by
      rw [h.prepared_impl h.impl]
      change orInvalid support.invalid (readApprovalOutput lax support result.output) = _
      rw [hread]
      rfl)
  obtain ⟨done, hdone, -, hwaits, houtbox⟩ := executeReadyNode_waiting now h.toAttempts hstatus hverdict
  obtain ⟨token, htoken⟩ := pausedRow_resumeToken now args before row prepared result.waitingReason output
  rw [hreason] at hwaits houtbox htoken
  obtain ⟨wait, earliest, hpersist, hwait⟩ := persistWaitingNode_approval now env args.row
    before.state.waits.length ((pausedRow_nodeType now args before row prepared _ _).trans h.rowType) htoken htimeout
    haction
  rw [hpersist] at hwaits houtbox
  exact ⟨done, wait, earliest, hdone, hwaits, houtbox, hwait⟩

/-- The configured timeout of an approval arrives exactly when it is the one that is assumed without it. -/
theorem ApprovalAttempt.arrives_iff (now : Time) {support : ApprovalSupport}
    (h : ApprovalAttempt env args graphNode before initialInputs row prepared lax support mockGenerationResult
      timeout onTimeout) :
    (∃ done wait, executeReadyNode env now args graphNode before initialInputs = .ok done ∧
      TimeoutArrives env now args.row timeout onTimeout before done wait) ↔
      timeout = some 86400 ∧ onTimeout ≠ "continue" := by
  obtain ⟨done, wait, earliest, hdone, hwaits, houtbox, hnode, hwake, haction, hevent, hstop⟩ :=
    h.executes now
  constructor
  · rintro ⟨done', wait', hdone', harrives⟩
    obtain rfl := Except.ok.inj (hdone.symm.trans hdone')
    obtain rfl := singleton_inj.mp (append_cancel_left (hwaits.symm.trans harrives.waits))
    have hsame := hwake.symm.trans harrives.wakeAt
    cases timeout with
    | none => cases hsame
    | some seconds =>
      have hseconds : (86400 : ℕ) * 1000000 = seconds * 1000000 := Nat.add_left_cancel (Option.some.inj hsame)
      refine ⟨by rw [Option.some.injEq]; omega, fun hcontinue ↦ ?_⟩
      have hcontinues := (harrives.action rfl).mpr hcontinue
      rw [haction] at hcontinues
      exact absurd hcontinues (by decide)
  · rintro ⟨rfl, hstops⟩
    have hfalse : decide (onTimeout = "continue") = false := decide_eq_false hstops
    refine ⟨done, wait, hdone, hwaits, hnode, hwake, fun _ ↦ ?_, fun _ ↦ ⟨earliest, _, houtbox, ?_⟩, fun _ ↦ ?_⟩
    · rw [haction]
      exact iff_of_false (by decide) hstops
    · rw [hfalse, show false = decide ("stop" = "continue") by decide, ← continuesAfterTimeout_action env.render]
      exact resumesAs_continuesAfterTimeout env _ _ _
    · refine ⟨by rw [Wait.dueOutcome, hevent], ?_⟩
      rw [hfalse, show false = decide ("stop" = "continue") by decide,
        ← continuesAfterTimeout_dueDecision env.render hevent hstop]
      exact resumesAs_continuesAfterTimeout env _ _ _

/-- Executing a node that waits for a decision creates a wait with its configured timeout, which both ways to wake
it apply, exactly when it is a wait node, or an approval that is to stop after a day. Assumes: the node pauses,
which a wait node does whenever its inputs are accepted. -/
theorem configured_timeout_arrives_iff (now : Time) (invalid : PyException) {support : ApprovalSupport}
    (h : WaitAttempt env args graphNode before initialInputs row prepared lax invalid mockGenerationResult timeout
        onTimeout ∨
      ApprovalAttempt env args graphNode before initialInputs row prepared lax support mockGenerationResult timeout
        onTimeout) :
    (∃ done wait, executeReadyNode env now args graphNode before initialInputs = .ok done ∧
      TimeoutArrives env now args.row timeout onTimeout before done wait) ↔
      graphNode.type = "wait" ∨ (timeout = some 86400 ∧ onTimeout ≠ "continue") := by
  rcases h with hwait | happroval
  · exact iff_of_true (hwait.arrives now) (.inl hwait.type)
  · rw [happroval.arrives_iff now, happroval.type]
    simp

/-! ### An approval with an hour -/

def gateRequest : SentApproval where
  requestId := "00000000-0000-4000-8000-000000000001"
  status := "pending"
  channels := []
  revisionCount := 0

/-- The approval service sends the request. -/
def gateSupport : ApprovalSupport where
  uuid := some
  pyInt := fun _ ↦ some 0
  render := fun _ ↦ ""
  invalid := validationError
  valueError := { className := "ValueError", message := "" }
  typeError := { className := "TypeError", message := "" }
  send := fun _ _ ↦ .ok gateRequest

def gateNode (seconds : ℕ) (action : String) : GraphNode where
  id := "gate"
  type := "approval"
  config := [("timeout_seconds", .int seconds), ("on_timeout", .str action)]

/-- A run of a graph with the approval. -/
def gateEnv (seconds : ℕ) (action : String) : EngineEnv :=
  { catalogueEnv { schemaVersion := 2, nodes := [gateNode seconds action], edges := [] } repairedGlobals with
    registry := ⟨[approvalNode plainMode gateSupport]⟩
    maybeMockNodeResult := maybeMockNodeResult fun _ _ ↦ { status := .succeeded } }

def gateRow : NodeRun := { nodeType := "approval", nodeVersion := 1, status := .queued }

/-- The trigger names the content to approve. -/
def gateBefore : Executed where
  state :=
    { run :=
        { status := .running
          triggerPayload := [("content_job_id", .str "00000000-0000-4000-8000-000000000002")] }
      nodes := { entries := [(⟨"gate", ""⟩, gateRow)], nodupKeys := nodup_singleton _ } }
  nodeOutputs := []

/-- What the attempt of the approval runs with. -/
def gatePrepared (seconds : ℕ) (action : String) : Prepared :=
  preparedWith (gateEnv seconds action) gateBefore.state.nodes (gateNode seconds action) ⟨"gate", ""⟩ gateRow []
    (approvalNode plainMode gateSupport)
    (resolvePortsAndBindings (resolveArgs (gateEnv seconds action) gateBefore.state.run gateBefore.state.nodes
      (gateNode seconds action) (approvalNode plainMode gateSupport) [] []))

def gateArgs (seconds : ℕ) (action : String) : ExecuteArgs where
  row := ⟨"gate", ""⟩
  outcome := performs (approvalNode plainMode gateSupport) (approvalExecute plainMode gateSupport [])
    (gatePrepared seconds action).inputs (gateNode seconds action).config

/-- What the model of an approval makes of the configuration. -/
def gateValues (seconds : ℕ) (action : String) : JsonObject :=
  [("required", .bool true), ("channels", .arr [.str "in_app", .str "telegram"]),
    ("timeout_seconds", .int seconds), ("on_timeout", .str action), ("allow_revision", .bool true),
    ("recipient", .null)]

variable {seconds : ℕ}

theorem gateConfig (action : String) (hbound : 60 ≤ seconds) :
    approvalConfig.modelValidate plainMode (gateNode seconds action).config = some (gateValues seconds action) := by
  have htimeout : ConfigType.read plainMode (.int (some 60) none) (.int seconds) = some (.int seconds) := by
    have hle : (60 : ℤ) ≤ seconds := by exact_mod_cast hbound
    simp [ConfigType.read, laxInt, withinBound, hle]
  simp [modelValidate, approvalConfig, gateNode, gateValues, ConfigField.read, get_cons, htimeout]
  rfl

def gateInputs : JsonObject := [("content_job_id", .str "00000000-0000-4000-8000-000000000002")]

theorem gateOutcome (action : String) (hbound : 60 ≤ seconds) :
    (gateArgs seconds action).outcome = .ok
      { status := .waiting
        output := sentApproval gateInputs (gateValues seconds action) gateRequest
        waitingReason := some "approval_pending" } := by
  have hinputs : (gatePrepared seconds action).inputs = gateInputs := rfl
  have hconfig : approvalConfig.modelValidate plainMode (gateValues seconds action) =
      some (gateValues seconds action) :=
    ConfigSchema.modelValidate_again ⟨by decide, by decide +kernel, by decide⟩ rfl (gateConfig action hbound)
  have hexecute : approvalExecute plainMode gateSupport [] gateInputs (gateValues seconds action) = .ok
      { status := .waiting
        output := sentApproval gateInputs (gateValues seconds action) gateRequest
        waitingReason := some "approval_pending" } := by
    unfold approvalExecute
    rw [hconfig]
    rfl
  have hvalidated : (approvalNode plainMode gateSupport).validateConfig (gateNode seconds action).config =
      .ok (gateValues seconds action) := by
    change orInvalid _ (approvalConfig.modelValidate plainMode _) = _
    rw [gateConfig action hbound]
    rfl
  unfold gateArgs performs
  dsimp only
  rw [hinputs, hvalidated]
  exact hexecute

theorem gateAttempt (action : String) (hbound : 60 ≤ seconds) :
    ApprovalAttempt (gateEnv seconds action) (gateArgs seconds action) (gateNode seconds action) gateBefore []
      gateRow (gatePrepared seconds action) plainMode gateSupport (fun _ _ ↦ { status := .succeeded })
      (some seconds) action where
  globals := rfl
  find := rfl
  active := by decide
  prepares := prepareInputs_of_resolved rfl rfl rfl rfl
  type := rfl
  rowType := rfl
  impl := rfl
  mock := rfl
  outcome := rfl
  config := ⟨gateValues seconds action, gateConfig action hbound, rfl, rfl⟩
  pauses := ⟨_, _, gateOutcome action hbound, rfl, rfl⟩

/-- An approval that is to go on after an hour stops after a day. -/
theorem hour_does_not_arrive :
    ¬ ∃ done wait, executeReadyNode (gateEnv 3600 "continue") 0 (gateArgs 3600 "continue")
        (gateNode 3600 "continue") gateBefore [] = .ok done ∧
      TimeoutArrives (gateEnv 3600 "continue") 0 ⟨"gate", ""⟩ (some 3600) "continue" gateBefore done wait := by
  intro harrives
  have hday := ((gateAttempt "continue" (by decide)).arrives_iff 0).mp harrives
  exact absurd hday.1 (by decide)

/-- An approval that is to stop after a day does. -/
theorem day_arrives :
    ∃ done wait, executeReadyNode (gateEnv 86400 "stop") 0 (gateArgs 86400 "stop") (gateNode 86400 "stop")
        gateBefore [] = .ok done ∧
      TimeoutArrives (gateEnv 86400 "stop") 0 ⟨"gate", ""⟩ (some 86400) "stop" gateBefore done wait :=
  (configured_timeout_arrives_iff 0 validationError (.inr (gateAttempt "stop" (by decide)))).mpr
    (.inr ⟨rfl, by decide⟩)

end ContentGenerator.Workflows

import ContentGenerator.Lib.KeyedTable
import ContentGenerator.Lib.Play
import ContentGenerator.Workflows.Scheduler
import ContentGenerator.Workflows.WebhookCrypto

/-!
# Webhook ingress

A delivery that passes the checks is stored in the inbox under a key made of its event id, unless the key is
there already, and each row of the inbox is then processed into a run. Processing begins with an update of
the row, so two workers with one row go one after the other, and a worker may have read the row before. The
reservation of the replay key has no effect.

Main result: `one_run_for_material`, the same signed material starts one run as long as whatever brings it
again has an event id that has been accepted before. The event id comes from a header that is not signed.
-/

namespace ContentGenerator.Workflows

open Lib List Option KeyedTable Prod
open Function (update update_apply)

variable {key : String} {who : ℕ}

/-! ### Tables -/

/-- The fields of `WebhookTriggerConfig` that the ingress reads. -/
structure WebhookTriggerConfig where
  signingSecretRef : String
  signatureHeader : String := "X-SignalForge-Signature"
  timestampHeader : String := "X-SignalForge-Timestamp"
  idempotencyHeader : String := "X-Idempotency-Key"
  maxSkewSeconds : ℕ := 300
  requireTimestamp : Bool := true

/-- The columns of an automation that the ingress reads. The configuration is what
`parse_webhook_trigger_config` makes of it. -/
structure WebhookAutomation where
  tenantId : String
  workflowVersionId : String
  brandId : String
  webhookEndpointId : Option String
  triggerType : AutomationTriggerType := .webhook
  triggerConfig : Except String WebhookTriggerConfig
  enabled : Bool := true
  deleted : Bool := false

/-- What the sender has signed, and the signature: the text that is compared, however the header spells it, and
the timestamp when the signature covers it. -/
structure SignedMaterial where
  automationId : String
  endpointId : String
  timestamp : Option ℤ
  signature : String
  body : List UInt8
  deriving DecidableEq

inductive InboxStatus
  | received | processed | error
  deriving DecidableEq

/-- A row of the inbox, and the material of the delivery it stores; `dedupe_key` is the key of the table. -/
structure InboxRow where
  tenantId : String
  automationId : String
  endpointId : String
  eventId : String
  bodyJson : String
  receivedAt : ℤ
  status : InboxStatus := .received
  errorMessage : Option String := none
  workflowRunId : Option String := none
  material : SignedMaterial

structure WebhookRun where
  tenantId : String
  automationId : String
  workflowVersionId : String
  brandId : String
  correlationId : String
  triggerPayload : Json

/-- The result of `receive_workflow_webhook`. -/
structure ReceiveResult where
  inboxKey : String
  workflowRunId : Option String
  deduped : Bool
  status : InboxStatus

/-- What is committed, the rows that workers have read, and the material for which each run was started. -/
structure WebhookState where
  automations : KeyedTable String WebhookAutomation
  inbox : KeyedTable String InboxRow := ⟨[], nodup_nil⟩
  runs : List (String × WebhookRun) := []
  session : ℕ → Option (String × InboxRow) := fun _ ↦ none
  started : List (SignedMaterial × String) := []

/-- How `start_run` goes: what the checks before and after the lookup of the correlation id say, and the
id of the new run. -/
structure WebhookStart where
  version : Except PyException Unit := .ok ()
  checks : Except PyException Unit := .ok ()
  id : String

/-- A delivery, the steps of a worker, and a change of an automation. -/
inductive WebhookOp
  | receive (now : ℤ) (endpointId : String) (rawBody : List UInt8) (headers : List (String × String))
  | load (who : ℕ) (key : String)
  | process (who : ℕ) (start : WebhookStart)
  | crash (who : ℕ)
  | edit (id : String) (automation : WebhookAutomation)

def webhookHeader (headers : List (String × String)) (name : String) : Option String :=
  (headers.reverse.find? fun header ↦ pyLower header.1 = pyLower name).map snd

/-- `dedupe_key`. -/
def webhookDedupeKey (tenantId endpointId eventId : String) : String :=
  "wf:" ++ tenantId ++ ":" ++ endpointId ++ ":" ++ eventId

def InboxRow.correlationId (row : InboxRow) (key : String) : String :=
  pyTake 128 ("wh:" ++ row.automationId ++ ":" ++ if row.eventId = "" then key else row.eventId)

namespace WebhookState

variable (env : WebhookEnv)

/-- `get_automation_by_endpoint`. -/
def automationByEndpoint (s : WebhookState) (endpointId : String) : Option (String × WebhookAutomation) :=
  s.automations.entries.find? fun entry ↦
    entry.2.webhookEndpointId = some endpointId ∧ ¬ entry.2.deleted ∧
      entry.2.triggerType ∈ [.webhook, .event]

/-- The checks of `receive_workflow_webhook`, and the row it stores unless the key is there already. -/
def accept (s : WebhookState) (now : ℤ) (endpointId : String) (rawBody : List UInt8)
    (headers : List (String × String)) : Except PyException (String × InboxRow) :=
  match (s.automationByEndpoint endpointId).filter fun entry ↦ entry.2.enabled with
  | none => .error (httpException 404 "Webhook endpoint not found")
  | some (id, automation) =>
    match automation.triggerConfig with
    | .error detail => .error (httpException 503 ("Invalid webhook config: " ++ detail))
    | .ok cfg =>
      match (resolveSecretReference env cfg.signingSecretRef).filter (· ≠ "") with
      | none => .error (httpException 503 "Webhook signing secret not configured")
      | some secret =>
        let signature := webhookHeader headers cfg.signatureHeader
        let timestamp := webhookHeader headers cfg.timestampHeader
        match verifyGenericHmac env secret rawBody signature (parseTimestamp timestamp)
          cfg.maxSkewSeconds now cfg.requireTimestamp with
        | .error exc => .error exc
        | .ok false => .error (httpException 403 "Invalid webhook signature")
        | .ok true =>
          let eventId := stableEventId env (webhookHeader headers cfg.idempotencyHeader) rawBody
          let signed := providedSignature (pyStrip (signature.getD "")) (parseTimestamp timestamp)
          .ok (webhookDedupeKey automation.tenantId endpointId eventId,
            { tenantId := automation.tenantId
              automationId := id
              endpointId, eventId
              bodyJson := env.sanitizeTriggerPayload rawBody
              receivedAt := now
              material :=
                ⟨id, endpointId, if cfg.requireTimestamp then signed.2 else none, signed.1, rawBody⟩ })

/-- `receive_workflow_webhook`, up to the processing of the row. -/
def receiveWorkflowWebhook (s : WebhookState) (now : ℤ) (endpointId : String) (rawBody : List UInt8)
    (headers : List (String × String)) : WebhookState × Except PyException ReceiveResult :=
  match s.accept env now endpointId rawBody headers with
  | .error exc => (s, .error exc)
  | .ok (key, row) =>
    match s.inbox.find key with
    | some existing => (s, .ok ⟨key, existing.workflowRunId, true, existing.status⟩)
    | none => ({ s with inbox := s.inbox.insertNew key row }, .ok ⟨key, none, false, row.status⟩)

/-- `get_run_by_correlation`. -/
def runByCorrelation (s : WebhookState) (tenantId correlationId : String) : Option (String × WebhookRun) :=
  s.runs.find? fun entry ↦ entry.2.tenantId = tenantId ∧ entry.2.correlationId = correlationId

def finish (s : WebhookState) (who : ℕ) (key : String) (f : InboxRow → InboxRow) : WebhookState :=
  { s with
    inbox := s.inbox.modify key f
    session := update s.session who none }

/-- `process_workflow_webhook_inbox`, from the update of the row on. -/
def processInbox (s : WebhookState) (who : ℕ) (key : String) (row : InboxRow) (start : WebhookStart) :
    WebhookState :=
  match (s.automations.find row.automationId).filter WebhookAutomation.enabled with
  | none =>
    s.finish who key fun stored ↦
      { stored with status := .error, errorMessage := some "automation unavailable" }
  | some automation =>
    let correlationId := row.correlationId key
    let processed (id : String) (stored : InboxRow) : InboxRow :=
      { stored with status := .processed, workflowRunId := some id }
    match start.version, s.runByCorrelation automation.tenantId correlationId, start.checks with
    | .error _, _, _ => { s with session := update s.session who none }
    | .ok (), some (id, _), _ => s.finish who key (processed id)
    | .ok (), none, .error _ => { s with session := update s.session who none }
    | .ok (), none, .ok () =>
      let run : WebhookRun :=
        { tenantId := automation.tenantId
          automationId := row.automationId
          workflowVersionId := automation.workflowVersionId
          brandId := automation.brandId
          correlationId
          triggerPayload := env.sanitizeMapping row.bodyJson }
      { s with
        runs := s.runs ++ [(start.id, run)]
        started := s.started ++ [(row.material, start.id)] }.finish who key (processed start.id)

def apply (s : WebhookState) : WebhookOp → WebhookState
  | .receive now endpointId rawBody headers =>
    (s.receiveWorkflowWebhook env now endpointId rawBody headers).1
  | .load who key =>
    match (s.inbox.find key).filter fun row ↦ row.status ∈ [.received, .error] with
    | some row => { s with session := update s.session who (some (key, row)) }
    | none => s
  | .process who start =>
    match s.session who with
    | some (key, row) => s.processInbox env who key row start
    | none => s
  | .crash who => { s with session := update s.session who none }
  | .edit id automation =>
    if s.automations.entries.any fun entry ↦
      entry.1 ≠ id && automation.webhookEndpointId.isSome &&
        entry.2.webhookEndpointId = automation.webhookEndpointId then s
    else
      { s with
        automations :=
          match s.automations.find id with
          | some stored =>
            s.automations.modify id fun _ ↦ { automation with tenantId := stored.tenantId }
          | none => s.automations.insertNew id automation }

/-! ### One run for signed material -/

def fixed (row : InboxRow) : String × String × String × SignedMaterial :=
  (row.automationId, row.endpointId, row.eventId, row.material)

/-- Every row is about the delivery that its material and its key say, the same material is stored once,
workers know their rows, and every started run has the correlation id of the row of its material. -/
structure Sound (s : WebhookState) : Prop where
  inbox : ∀ key row, s.inbox.find key = some row →
    row.material.automationId = row.automationId ∧ row.material.endpointId = row.endpointId ∧
      ∃ automation, s.automations.find row.automationId = some automation ∧
        key = webhookDedupeKey automation.tenantId row.endpointId row.eventId
  one : ∀ key row key' row', s.inbox.find key = some row → s.inbox.find key' = some row' →
    row.material = row'.material → key = key'
  session : ∀ who key row, s.session who = some (key, row) →
    ∃ stored, s.inbox.find key = some stored ∧ fixed stored = fixed row
  started : ∀ material id, (material, id) ∈ s.started →
    ∃ key row automation run, s.inbox.find key = some row ∧ row.material = material ∧
      s.automations.find row.automationId = some automation ∧ (id, run) ∈ s.runs ∧
        run.tenantId = automation.tenantId ∧ run.correlationId = row.correlationId key

def OneRunForMaterial (s : WebhookState) : Prop := (s.started.map fst).Nodup

/-- A delivery is refused, its signed material has not been accepted before, or its event id has. -/
def EventIdKept (s : WebhookState) : WebhookOp → Prop
  | .receive now endpointId rawBody headers =>
    ∀ key row, s.accept env now endpointId rawBody headers = .ok (key, row) →
      (∃ key' stored, s.inbox.find key' = some stored ∧ stored.material = row.material) →
        (s.inbox.find key).isSome
  | _ => True

variable {env} {s s' : WebhookState}

/-- What is accepted is about its automation, under the key of its event id. -/
theorem accept_spec {now : ℤ} {endpointId : String} {rawBody : List UInt8}
    {headers : List (String × String)} {row : InboxRow}
    (h : s.accept env now endpointId rawBody headers = .ok (key, row)) :
    row.material.automationId = row.automationId ∧ row.material.endpointId = row.endpointId ∧
      ∃ automation, s.automations.find row.automationId = some automation ∧
        key = webhookDedupeKey automation.tenantId row.endpointId row.eventId := by
  unfold accept at h
  split at h
  · cases h
  · rename_i id automation hlookup
    have hfind : s.automations.find id = some automation := by
      have hentry := (filter_eq_some_iff.mp hlookup).1
      exact (find_eq_some_iff _ _ _).mpr (mem_of_find?_eq_some hentry)
    split at h
    · cases h
    · split at h
      · cases h
      · dsimp only at h
        split at h
        · cases h
        · cases h
        · cases h
          exact ⟨rfl, rfl, automation, hfind, rfl⟩

theorem fixed_eq {row row' : InboxRow} (h : fixed row = fixed row') :
    row.automationId = row'.automationId ∧ row.endpointId = row'.endpointId ∧
      row.eventId = row'.eventId ∧ row.material = row'.material := by
  obtain ⟨hautomation, hrest⟩ := Prod.mk.inj h
  obtain ⟨hendpoint, hrest⟩ := Prod.mk.inj hrest
  obtain ⟨hevent, hmaterial⟩ := Prod.mk.inj hrest
  exact ⟨hautomation, hendpoint, hevent, hmaterial⟩

theorem Sound.rewrite (h : s.Sound)
    (hautomations : ∀ id automation, s.automations.find id = some automation →
      ∃ later, s'.automations.find id = some later ∧ later.tenantId = automation.tenantId)
    (hinbox : ∀ key, (s'.inbox.find key).map fixed = (s.inbox.find key).map fixed)
    (hruns : s'.runs = s.runs) (hstarted : s'.started = s.started)
    (hsession : ∀ who key row, s'.session who = some (key, row) →
      ∃ stored, s.inbox.find key = some stored ∧ fixed stored = fixed row) : s'.Sound := by
  have hback : ∀ key row, s'.inbox.find key = some row →
      ∃ stored, s.inbox.find key = some stored ∧ fixed stored = fixed row := by
    intro key row hrow
    refine map_eq_some_iff.mp ((hinbox key).symm.trans ?_)
    rw [hrow]
    rfl
  have hforth : ∀ key stored, s.inbox.find key = some stored →
      ∃ row, s'.inbox.find key = some row ∧ fixed row = fixed stored := by
    intro key stored hstored
    refine map_eq_some_iff.mp ((hinbox key).trans ?_)
    rw [hstored]
    rfl
  constructor
  · intro key row hrow
    obtain ⟨stored, hstored, hfixed⟩ := hback key row hrow
    obtain ⟨hautomationId, hendpointId, heventId, hmaterial⟩ := fixed_eq hfixed
    obtain ⟨hfirst, hsecond, automation, hautomation, hkey⟩ := h.inbox key stored hstored
    obtain ⟨later, hlater, htenant⟩ := hautomations _ automation hautomation
    rw [hautomationId] at hfirst hlater
    rw [hendpointId] at hsecond
    rw [hmaterial] at hfirst hsecond
    refine ⟨hfirst, hsecond, later, hlater, ?_⟩
    rw [hkey, htenant, hendpointId, heventId]
  · intro key row key' row' hrow hrow' hmaterial
    obtain ⟨stored, hstored, hfixed⟩ := hback key row hrow
    obtain ⟨stored', hstored', hfixed'⟩ := hback key' row' hrow'
    refine h.one key stored key' stored' hstored hstored' ?_
    rw [(fixed_eq hfixed).2.2.2, (fixed_eq hfixed').2.2.2, hmaterial]
  · intro who key row hopen
    obtain ⟨stored, hstored, hfixed⟩ := hsession who key row hopen
    obtain ⟨later, hlater, hsame⟩ := hforth key stored hstored
    exact ⟨later, hlater, hsame.trans hfixed⟩
  · intro material id hmem
    rw [hstarted] at hmem
    obtain ⟨key, stored, automation, run, hstored, hmaterial, hautomation, hrun, htenant, hcorrelation⟩ :=
      h.started material id hmem
    obtain ⟨row, hrow, hfixed⟩ := hforth key stored hstored
    obtain ⟨hautomationId, -, heventId, hsame⟩ := fixed_eq hfixed
    obtain ⟨later, hlater, hlaterTenant⟩ := hautomations _ automation hautomation
    refine ⟨key, row, later, run, hrow, hsame.trans hmaterial, ?_, hruns ▸ hrun,
      htenant.trans hlaterTenant.symm, ?_⟩
    · rw [hautomationId]
      exact hlater
    · rw [hcorrelation, InboxRow.correlationId, InboxRow.correlationId, hautomationId, heventId]

/-- A worker that is done has changed no fixed column. -/
theorem Sound.finish (h : s.Sound) (who : ℕ) (key : String) {f : InboxRow → InboxRow}
    (hf : ∀ row, fixed (f row) = fixed row) : (s.finish who key f).Sound := by
  refine h.rewrite (fun _ automation hautomation ↦ ⟨automation, hautomation, rfl⟩) (fun other ↦ ?_) rfl rfl
    fun other key' row hopen ↦ ?_
  · change ((s.inbox.modify key f).find other).map fixed = _
    rw [find_modify]
    split_ifs
    · rw [Option.map_map]
      exact congrArg (fun g ↦ (s.inbox.find other).map g) (funext hf)
    · rfl
  · replace hopen : update s.session who none other = some (key', row) := hopen
    rw [update_apply] at hopen
    split_ifs at hopen
    exact h.session other key' row hopen

/-- A transaction that is rolled back has changed nothing. -/
theorem Sound.crash (h : s.Sound) (who : ℕ) :
    ({ s with session := update s.session who none } : WebhookState).Sound := by
  refine h.rewrite (fun _ automation hautomation ↦ ⟨automation, hautomation, rfl⟩) (fun _ ↦ rfl) rfl rfl
    fun other key row hopen ↦ ?_
  dsimp only at hopen
  rw [update_apply] at hopen
  split_ifs at hopen
  exact h.session other key row hopen

/-- A delivery is stored whose signed material is new. -/
theorem Sound.store (h : s.Sound) {row : InboxRow} (hkey : s.inbox.find key = none)
    (hrow : row.material.automationId = row.automationId ∧ row.material.endpointId = row.endpointId ∧
      ∃ automation, s.automations.find row.automationId = some automation ∧
        key = webhookDedupeKey automation.tenantId row.endpointId row.eventId)
    (hnew : ∀ key' stored, s.inbox.find key' = some stored → stored.material ≠ row.material) :
    ({ s with inbox := s.inbox.insertNew key row } : WebhookState).Sound := by
  have hkept : ∀ key' stored, s.inbox.find key' = some stored →
      (s.inbox.insertNew key row).find key' = some stored := by
    intro key' stored hstored
    have hne : key' ≠ key := by
      rintro rfl
      exact absurd (hkey.symm.trans hstored) (by simp)
    exact (find_insertNew_of_ne _ _ hne).trans hstored
  have hback : ∀ key' stored, (s.inbox.insertNew key row).find key' = some stored →
      (key' = key ∧ stored = row) ∨ s.inbox.find key' = some stored := by
    intro key' stored hstored
    rw [find_insertNew] at hstored
    split_ifs at hstored with hsame
    · exact .inl ⟨hsame.1, (Option.some.inj hstored).symm⟩
    · exact .inr hstored
  constructor
  · intro key' stored hstored
    rcases hback key' stored hstored with ⟨rfl, rfl⟩ | hbefore
    · exact hrow
    · exact h.inbox key' stored hbefore
  · intro key₁ row₁ key₂ row₂ hrow₁ hrow₂ hmaterial
    rcases hback key₁ row₁ hrow₁ with ⟨rfl, rfl⟩ | hbefore₁ <;>
      rcases hback key₂ row₂ hrow₂ with ⟨rfl, rfl⟩ | hbefore₂
    · rfl
    · exact absurd hmaterial.symm (hnew key₂ row₂ hbefore₂)
    · exact absurd hmaterial (hnew key₁ row₁ hbefore₁)
    · exact h.one key₁ row₁ key₂ row₂ hbefore₁ hbefore₂ hmaterial
  · intro who key' read hopen
    obtain ⟨stored, hstored, hfixed⟩ := h.session who key' read hopen
    exact ⟨stored, hkept key' stored hstored, hfixed⟩
  · intro material id hmem
    obtain ⟨key', stored, automation, run, hstored, hrest⟩ := h.started material id hmem
    exact ⟨key', stored, automation, run, hkept key' stored hstored, hrest⟩

/-- An automation keeps its tenant. -/
theorem Sound.edit (h : s.Sound) (id : String) (automation : WebhookAutomation) :
    (s.apply env (.edit id automation)).Sound := by
  unfold WebhookState.apply
  dsimp only
  split_ifs
  · exact h
  · refine h.rewrite (fun other before hbefore ↦ ?_) (fun _ ↦ rfl) rfl rfl h.session
    dsimp only
    cases hstored : s.automations.find id with
    | some stored =>
      dsimp only
      rw [find_modify]
      split_ifs with hsame
      · subst hsame
        obtain rfl := mem_unique hstored hbefore
        rw [hbefore]
        exact ⟨_, rfl, rfl⟩
      · exact ⟨before, hbefore, rfl⟩
    | none =>
      have hne : other ≠ id := by
        rintro rfl
        exact absurd (hstored.symm.trans hbefore) (by simp)
      exact ⟨before, (find_insertNew_of_ne _ _ hne).trans hbefore, rfl⟩

theorem Sound.not_started (h : s.Sound) {row : InboxRow}
    {automation : WebhookAutomation} (hopen : s.session who = some (key, row))
    (hautomation : s.automations.find row.automationId = some automation)
    (hnone : s.runByCorrelation automation.tenantId (row.correlationId key) = none) :
    row.material ∉ s.started.map fst := by
  intro hmem
  obtain ⟨⟨material, id⟩, hentry, rfl⟩ := List.mem_map.mp hmem
  obtain ⟨stored, hstored, hfixed⟩ := h.session who key row hopen
  obtain ⟨hautomationId, -, heventId, hmaterial⟩ := fixed_eq hfixed
  obtain ⟨key', row', automation', run, hrow', hsame, hautomation', hrun, htenant, hcorrelation⟩ :=
    h.started _ id hentry
  obtain rfl := h.one key' row' key stored hrow' hstored (hsame.trans hmaterial.symm)
  obtain rfl := mem_unique hrow' hstored
  rw [hautomationId] at hautomation'
  obtain rfl := mem_unique hautomation hautomation'
  refine absurd (find?_eq_none.mp hnone (id, run) hrun) (not_not.mpr ?_)
  refine decide_eq_true ⟨htenant, hcorrelation.trans ?_⟩
  rw [InboxRow.correlationId, InboxRow.correlationId, hautomationId, heventId]

/-- A worker starts a run for material that has none. -/
theorem Sound.start (h : s.Sound) {row : InboxRow} {id : String}
    {run : WebhookRun} {automation : WebhookAutomation} (hopen : s.session who = some (key, row))
    (hautomation : s.automations.find row.automationId = some automation)
    (htenant : run.tenantId = automation.tenantId)
    (hcorrelation : run.correlationId = row.correlationId key) :
    ({ s with
      runs := s.runs ++ [(id, run)]
      started := s.started ++ [(row.material, id)] } : WebhookState).Sound := by
  refine ⟨h.inbox, h.one, h.session, fun material id' hmem ↦ ?_⟩
  rcases mem_append.mp hmem with hbefore | hnew
  · obtain ⟨key', row', automation', run', hrow', hmaterial, hautomation', hrun', hrest⟩ :=
      h.started material id' hbefore
    exact ⟨key', row', automation', run', hrow', hmaterial, hautomation', mem_append_left _ hrun', hrest⟩
  · obtain ⟨rfl, rfl⟩ := Prod.mk.inj (mem_singleton.mp hnew)
    obtain ⟨stored, hstored, hfixed⟩ := h.session who key row hopen
    obtain ⟨hautomationId, -, heventId, hmaterial⟩ := fixed_eq hfixed
    refine ⟨key, stored, automation, run, hstored, hmaterial, hautomationId ▸ hautomation,
      mem_append_right _ (mem_singleton.mpr rfl), htenant, ?_⟩
    rw [hcorrelation, InboxRow.correlationId, InboxRow.correlationId, hautomationId, heventId]

/-- Every step that meets the condition keeps the deliveries sound, with one run for each material. -/
theorem Sound.apply (h : s.Sound) (hone : s.OneRunForMaterial) (op : WebhookOp)
    (hop : s.EventIdKept env op) : (s.apply env op).Sound ∧ (s.apply env op).OneRunForMaterial := by
  cases op with
  | receive now endpointId rawBody headers =>
    unfold WebhookState.apply receiveWorkflowWebhook
    dsimp only
    split
    · exact ⟨h, hone⟩
    · rename_i key row haccept
      split
      · exact ⟨h, hone⟩
      · rename_i hkey
        refine ⟨h.store hkey (accept_spec haccept) fun key' stored hstored hmaterial ↦ ?_, hone⟩
        have hpresent := hop key row haccept ⟨key', stored, hstored, hmaterial⟩
        rw [hkey] at hpresent
        simp at hpresent
  | load who key =>
    unfold WebhookState.apply
    dsimp only
    split
    · rename_i row hload
      refine ⟨h.rewrite (fun _ automation hautomation ↦ ⟨automation, hautomation, rfl⟩) (fun _ ↦ rfl) rfl rfl
        fun other key' row' hopen ↦ ?_, hone⟩
      dsimp only at hopen
      rw [update_apply] at hopen
      split_ifs at hopen
      · cases hopen
        exact ⟨row, (filter_eq_some_iff.mp hload).1, rfl⟩
      · exact h.session other key' row' hopen
    · exact ⟨h, hone⟩
  | process who start =>
    unfold WebhookState.apply
    dsimp only
    split
    · rename_i key row hopen
      unfold processInbox
      dsimp only
      split
      · exact ⟨h.finish who key fun _ ↦ rfl, hone⟩
      · rename_i automation henabled
        have hautomation := (filter_eq_some_iff.mp henabled).1
        split
        · exact ⟨h.crash who, hone⟩
        · exact ⟨h.finish who key fun _ ↦ rfl, hone⟩
        · exact ⟨h.crash who, hone⟩
        · rename_i hnone hchecks
          refine ⟨(h.start hopen hautomation rfl rfl).finish who key fun _ ↦ rfl, ?_⟩
          have hnew := h.not_started hopen hautomation hnone
          change ((s.started ++ [(row.material, start.id)]).map fst).Nodup
          rw [map_append, map_singleton]
          refine List.Nodup.append hone (nodup_singleton _) fun material hmem hlast ↦ ?_
          rw [mem_singleton.mp hlast] at hmem
          exact hnew hmem
    · exact ⟨h, hone⟩
  | crash who => exact ⟨h.crash who, hone⟩
  | edit id automation =>
    refine ⟨h.edit id automation, ?_⟩
    unfold WebhookState.apply
    dsimp only
    split_ifs <;> exact hone

theorem sound_start (automations : KeyedTable String WebhookAutomation) :
    Sound { automations } where
  inbox := fun _ _ hrow ↦ absurd hrow (by simp [find])
  one := fun _ _ _ _ hrow ↦ absurd hrow (by simp [find])
  session := fun _ _ _ hopen ↦ absurd hopen (by simp)
  started := fun _ _ hmem ↦ absurd hmem (by simp)

/-- The hash of `evt-1`. -/
def firstHash : String := "7b409f932d2c88e97f0c17676c8420d3ea0dab6edb150a89b5684a8ad6d6c4c7"

/-- The hash of `evt-2`. -/
def secondHash : String := "5a84cd4af0ceafc23a427a7ea78d0f92e60995375fc3f8d52477c783f320ac87"

def replaySignature : String := "4792dbe3986e132fbee5a3eb926038ad62eaf94c998fd784327b4ac2965dbf95"

/-- The hashes of two idempotency keys, the signature of one message, and one secret. -/
def replayEnv : WebhookEnv where
  sha256 := fun bytes ↦
    if bytes = utf8 "evt-1" then firstHash
    else if bytes = utf8 "evt-2" then secondHash
    else ""
  hmacSha256 := fun key message ↦
    if key = utf8 "s3cret" ∧ message = utf8 "1700000000.1" then replaySignature
    else ""
  externalSecretReferences := fun reference ↦ if reference = "refs/webhook" then some "s3cret" else none
  sanitizeTriggerPayload := fun _ ↦ "\x7b\"value\": 1\x7d"
  sanitizeMapping := fun _ ↦ .obj [("value", .int 1)]

def replayAutomations : KeyedTable String WebhookAutomation where
  entries :=
    [("a-1",
      { tenantId := "t-1"
        workflowVersionId := "v-1"
        brandId := "b-1"
        webhookEndpointId := some "endpoint_test01"
        triggerConfig := .ok { signingSecretRef := "refs/webhook" } })]
  nodupKeys := nodup_singleton _

/-- A delivery of one signed message, with the signature as the header spells it, and the run it starts. -/
def replayDelivery (now : ℤ) (signature idempotencyKey hash id : String) : List WebhookOp :=
  [.receive now "endpoint_test01" (utf8 "1")
      [("x-signalforge-signature", signature), ("x-signalforge-timestamp", "1700000000"),
        ("x-idempotency-key", idempotencyKey)],
    .load 0 (webhookDedupeKey "t-1" "endpoint_test01" hash), .process 0 { id }]

end WebhookState

end ContentGenerator.Workflows

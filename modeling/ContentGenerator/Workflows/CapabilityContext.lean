import ContentGenerator.Workflows.NodeConfigs

/-!
# Compile contexts at run time

What the compiler knows about the selected accounts when a run starts. A client names the accounts and the
policy flags; capabilities, platforms and statuses are read from the rows of the accounts. The compiler
enriches the context once more, then preferring what is there.

Main result: `runtime_context_agrees`, clients that agree on accounts and flags get the same context or the
same error, and the same verdict on every graph.
-/

namespace ContentGenerator.Workflows

open Lib List Option JsonObject

variable {default flag : Bool} {ids : List String} {key : String}

/-! ### Dictionaries -/

/-- `d.get(key)`. -/
def lookupKey {α : Type} (d : List (String × α)) (key : String) : Option α :=
  (d.find? fun entry ↦ entry.1 = key).map Prod.snd

/-- `d[key] = value`. -/
def assignKey {α : Type} (d : List (String × α)) (key : String) (value : α) : List (String × α) :=
  if (lookupKey d key).isSome then d.map fun entry ↦ if entry.1 = key then (key, value) else entry
  else d ++ [(key, value)]

/-- `d.update(patch)`. -/
def updateKeys {α : Type} (d patch : List (String × α)) : List (String × α) :=
  patch.foldl (fun acc entry ↦ assignKey acc entry.1 entry.2) d

/-! ### Platform capabilities -/

/-- What pydantic and Python make of texts. `intOfDigits` is `int` on a text that `isDigit` accepts; it
raises on some of them. -/
structure ContextEnv where
  lax : LaxMode
  parseUuid : String → Option String
  render : Json → String
  isDigit : String → Bool
  intOfDigits : String → Option ℤ

inductive ContextError
  | http (statusCode : ℕ) (detail : String)
  | validationError
  | typeError
  | valueError

structure PlatformCapabilities where
  supportsText : Bool := false
  supportsImages : Bool := false
  supportsVideo : Bool := false
  supportsAudio : Bool := false
  supportsThreads : Bool := false
  supportsNativeScheduling : Bool := false
  maxTextLength : Option ℤ := none
  maxImages : Option ℤ := none
  maxVideoDurationSeconds : Option ℤ := none
  maxVideoSizeMb : Option ℤ := none
  supportedVideoFormats : List String := []
  supportedImageFormats : List String := []
  providerId : Option String := none
  rawFlags : List (String × String) := []

def dumpInt : Option ℤ → Json
  | none => .null
  | some value => .int value

def PlatformCapabilities.modelDump (caps : PlatformCapabilities) : JsonObject :=
  [("supports_text", .bool caps.supportsText), ("supports_images", .bool caps.supportsImages),
    ("supports_video", .bool caps.supportsVideo), ("supports_audio", .bool caps.supportsAudio),
    ("supports_threads", .bool caps.supportsThreads),
    ("supports_native_scheduling", .bool caps.supportsNativeScheduling),
    ("max_text_length", dumpInt caps.maxTextLength), ("max_images", dumpInt caps.maxImages),
    ("max_video_duration_seconds", dumpInt caps.maxVideoDurationSeconds),
    ("max_video_size_mb", dumpInt caps.maxVideoSizeMb),
    ("supported_video_formats", .arr (caps.supportedVideoFormats.map .str)),
    ("supported_image_formats", .arr (caps.supportedImageFormats.map .str)),
    ("provider_id", dumpText caps.providerId),
    ("raw_flags", .obj (caps.rawFlags.map fun entry ↦ (entry.1, .str entry.2)))]

/-- A `bool` with a default. -/
def flagField (lax : LaxMode) (default : Bool) : Option Json → Option Bool
  | none => some default
  | some value => laxBool lax value

/-- `int | None`, with the default `None`. -/
def optionalInt (lax : LaxMode) : Option Json → Option (Option ℤ)
  | none => some none
  | some .null => some none
  | some value => (laxInt lax.intOfText value).map some

/-- `str`. -/
def textOf : Json → Option String
  | .str text => some text
  | _ => none

/-- `list[str]`, with an empty default. -/
def textsField : Option Json → Option (List String)
  | none => some []
  | some (.arr items) => items.mapM textOf
  | some _ => none

/-- `dict[str, str]`, with an empty default. -/
def textMapField : Option Json → Option (List (String × String))
  | none => some []
  | some (.obj fields) => fields.mapM fun field ↦ (textOf field.2).map (field.1, ·)
  | some _ => none

def PlatformCapabilities.modelValidate (lax : LaxMode) (d : JsonObject) : Option PlatformCapabilities :=
  if hasOnly d (({} : PlatformCapabilities).modelDump.map Prod.fst) then do
    let supportsText ← flagField lax false (d.get "supports_text")
    let supportsImages ← flagField lax false (d.get "supports_images")
    let supportsVideo ← flagField lax false (d.get "supports_video")
    let supportsAudio ← flagField lax false (d.get "supports_audio")
    let supportsThreads ← flagField lax false (d.get "supports_threads")
    let supportsNativeScheduling ← flagField lax false (d.get "supports_native_scheduling")
    let maxTextLength ← optionalInt lax (d.get "max_text_length")
    let maxImages ← optionalInt lax (d.get "max_images")
    let maxVideoDurationSeconds ← optionalInt lax (d.get "max_video_duration_seconds")
    let maxVideoSizeMb ← optionalInt lax (d.get "max_video_size_mb")
    let supportedVideoFormats ← textsField (d.get "supported_video_formats")
    let supportedImageFormats ← textsField (d.get "supported_image_formats")
    let providerId ← optionalText (d.get "provider_id")
    let rawFlags ← textMapField (d.get "raw_flags")
    return {
      supportsText, supportsImages, supportsVideo, supportsAudio, supportsThreads,
      supportsNativeScheduling, maxTextLength, maxImages, maxVideoDurationSeconds, maxVideoSizeMb,
      supportedVideoFormats, supportedImageFormats, providerId, rawFlags }
  else none

/-- The catalogue of `platform_defaults`. -/
def platformCatalog : List (String × PlatformCapabilities) :=
  [("x", { supportsText := true, supportsImages := true, supportsThreads := true
           maxTextLength := some 280, maxImages := some 4
           supportedImageFormats := ["jpg", "png", "gif", "webp"], providerId := some "x" }),
    ("twitter", { supportsText := true, supportsImages := true, supportsThreads := true
                  maxTextLength := some 280, maxImages := some 4, providerId := some "twitter" }),
    ("bluesky", { supportsText := true, supportsImages := true, maxTextLength := some 300
                  maxImages := some 4, providerId := some "bluesky" }),
    ("instagram", { supportsText := true, supportsImages := true, supportsVideo := true
                    maxTextLength := some 1000, maxImages := some 10, maxVideoDurationSeconds := some 60
                    supportedImageFormats := ["jpg", "png"], supportedVideoFormats := ["mp4"]
                    providerId := some "instagram" }),
    ("linkedin", { supportsText := true, supportsImages := true, supportsVideo := true
                   maxTextLength := some 3000, maxImages := some 9, providerId := some "linkedin" }),
    ("youtube", { supportsText := true, supportsImages := true, supportsVideo := true
                  supportsAudio := true, maxTextLength := some 1000
                  maxVideoDurationSeconds := some 43200, supportedVideoFormats := ["mp4", "mov"]
                  supportedImageFormats := ["jpg", "png"], providerId := some "youtube" }),
    ("tiktok", { supportsText := true, supportsVideo := true, supportsAudio := true
                 maxTextLength := some 400, maxVideoDurationSeconds := some 180
                 supportedVideoFormats := ["mp4"], providerId := some "tiktok" })]

def platformDefaults (providerId : Option String) : PlatformCapabilities :=
  let key := pyLower (pyStrip (providerId.getD ""))
  (lookupKey platformCatalog key).getD
    { providerId := if key = "" then none else some key, supportsText := true
      maxTextLength := some 1000 }

/-- `flag_truthy` on a text. -/
def flagTruthy (text : String) : Bool :=
  pyLower (pyStrip text) ∈ ["true", "1", "yes", "limited", "on"]

/-- A flag under one of two names: the first one unless it is empty. -/
def eitherFlag (raw : List (String × String)) (name name' : String) : Option String :=
  ((lookupKey raw name).filter (· ≠ "")).or (lookupKey raw name')

/-- A flag of `flags_to_capabilities`: it wins when one of its names is there. -/
def overrideFlag (raw : List (String × String)) (name name' : String) (base : Bool) : Bool :=
  if (lookupKey raw name).isSome ∨ (lookupKey raw name').isSome then
    ((eitherFlag raw name name').map flagTruthy).getD false
  else base

/-- A number of `flags_to_capabilities`. -/
def overrideNumber (env : ContextEnv) (raw : List (String × String)) (name : String) (base : Option ℤ) :
    Except ContextError (Option ℤ) :=
  match lookupKey raw name with
  | none => .ok base
  | some text =>
    if env.isDigit text then
      match env.intOfDigits text with
      | none => .error .valueError
      | some n => .ok (some n)
    else .ok base

def flagsToCapabilities (env : ContextEnv) (flags : JsonObject) (platform : Option String) :
    Except ContextError PlatformCapabilities := do
  let base := platformDefaults platform
  let raw := flags.map fun field ↦ (field.1, Json.text env.render field.2)
  let maxTextLength ← overrideNumber env raw "max_text_length" base.maxTextLength
  let maxImages ← overrideNumber env raw "max_images" base.maxImages
  let maxVideoDurationSeconds ←
    overrideNumber env raw "max_video_duration_seconds" base.maxVideoDurationSeconds
  let maxVideoSizeMb ← overrideNumber env raw "max_video_size_mb" base.maxVideoSizeMb
  return { base with
    supportsText := overrideFlag raw "text" "text" base.supportsText
    supportsVideo := overrideFlag raw "video" "video" base.supportsVideo
    supportsImages := overrideFlag raw "image" "images" base.supportsImages
    supportsAudio := overrideFlag raw "audio" "audio" base.supportsAudio
    supportsThreads := overrideFlag raw "thread" "threads" base.supportsThreads
    supportsNativeScheduling :=
      overrideFlag raw "native_scheduling" "native_scheduling" base.supportsNativeScheduling
    maxTextLength, maxImages, maxVideoDurationSeconds, maxVideoSizeMb
    providerId := (platform.filter (· ≠ "")).or base.providerId
    rawFlags := raw }

/-- `DEFAULT_RUNTIME_CAPABILITIES`. -/
def defaultRuntimeCapabilities : List String := ["llm", "publish"]

def workflowCapabilityTags (caps : PlatformCapabilities) (runtime : List String) : List String :=
  runtime.foldl (fun tags item ↦ if item ∈ tags then tags else tags ++ [item])
    ((if caps.supportsText then ["text"] else []) ++ (if caps.supportsImages then ["image"] else []) ++
      (if caps.supportsVideo then ["video"] else []) ++
      (if caps.supportsAudio then ["audio", "tts"] else []) ++
      (if caps.supportsThreads then ["thread"] else []) ++
      if caps.supportsNativeScheduling then ["native_scheduling"] else [])

/-! ### Enriching a context -/

/-- The loop of `merge_account_capability_maps`: the tags and the dumps so far. -/
def mergeAccount (env : ContextEnv) (platforms : List (String × String))
    (flagMaps : List (String × JsonObject)) (runtime : List String) (preferExisting : Bool)
    (maps : List (String × List String) × List (String × JsonObject)) (key : String) :
    Except ContextError (List (String × List String) × List (String × JsonObject)) :=
  let platform := (lookupKey platforms key).filter (· ≠ "")
  let flags := (lookupKey flagMaps key).filter (· ≠ [])
  if preferExisting ∧ (lookupKey maps.1 key).isSome ∧ (lookupKey maps.2 key).isSome then .ok maps
  else if platform.isNone ∧ flags.isNone then .ok maps
  else
    (flagsToCapabilities env ((lookupKey flagMaps key).getD []) (lookupKey platforms key)).map fun caps ↦
      (if ¬ preferExisting ∨ (lookupKey maps.1 key).isNone then
        assignKey maps.1 key (workflowCapabilityTags caps runtime)
      else maps.1,
      assignKey maps.2 key caps.modelDump)

def mergeAccountCapabilityMaps (env : ContextEnv) (accountIds : List String)
    (platforms : List (String × String)) (flagMaps : List (String × JsonObject))
    (existingTags : List (String × List String)) (runtime : List String) (preferExisting : Bool) :
    Except ContextError (List (String × List String) × List (String × JsonObject)) :=
  accountIds.foldlM (mergeAccount env platforms flagMaps runtime preferExisting)
    (if preferExisting then existingTags else [], [])

/-- What an existing dump adds to the flags and the platforms. -/
def adoptDump (env : ContextEnv) (maps : List (String × JsonObject) × List (String × String))
    (entry : String × JsonObject) : List (String × JsonObject) × List (String × String) :=
  if (lookupKey maps.1 entry.1).isSome then maps
  else
    (match JsonObject.get entry.2 "raw_flags" with
      | some (.obj raw) => assignKey maps.1 entry.1 raw
      | _ => maps.1,
    match getTruthy entry.2 "provider_id" with
      | some providerId =>
        if (lookupKey maps.2 entry.1).isSome then maps.2
        else assignKey maps.2 entry.1 (Json.text env.render providerId)
      | none => maps.2)

/-- `enrich_compile_context`. Empty platforms are replaced by those of the context. -/
def enrichCompileContext (env : ContextEnv) (context : CompileContext)
    (platforms : List (String × String)) (flagMaps : List (String × JsonObject)) (runtime : List String)
    (preferExisting : Bool) : Except ContextError CompileContext :=
  if context.socialAccountIds = [] then .ok context
  else do
    let existingTyped := if preferExisting then context.accountPlatformCapabilities else []
    let maps := existingTyped.foldl (adoptDump env)
      (flagMaps, if platforms = [] then context.accountPlatforms else platforms)
    let (tags, typed) ← mergeAccountCapabilityMaps env context.socialAccountIds maps.2 maps.1
      context.accountCapabilities runtime preferExisting
    return { context with
      accountCapabilities := tags
      accountPlatformCapabilities := updateKeys typed existingTyped
      accountPlatforms := maps.2 }

/-! ### The client's context -/

structure RuntimeClientContext where
  socialAccountIds : List String := []
  requirePublishTargets : Bool := true
  allowMultipleTriggers : Bool := false
  requireApprovalBeforePublish : Bool := true
  requireCapabilityCheck : Bool := false

inductive ClientContext
  | missing
  | runtime (context : RuntimeClientContext)
  | compile (context : CompileContext)
  | raw (d : JsonObject)

/-- The keys `client_context_to_seed` pops. -/
def capabilityMapKeys : List String :=
  ["account_capabilities", "account_platform_capabilities", "account_platforms", "account_statuses"]

/-- `d.pop(key, None)` for each of the keys. -/
def popKeys (keys : List String) (d : JsonObject) : JsonObject := d.filter fun field ↦ field.1 ∉ keys

def readUuid (env : ContextEnv) : Json → Option String
  | .str text => env.parseUuid text
  | _ => none

def RuntimeClientContext.modelValidate (env : ContextEnv) (d : JsonObject) :
    Option RuntimeClientContext :=
  if hasOnly d
      ["social_account_ids", "require_publish_targets", "allow_multiple_triggers",
        "require_approval_before_publish", "require_capability_check"] then do
    let items ← listField (d.get "social_account_ids")
    let socialAccountIds ← items.mapM (readUuid env)
    let requirePublishTargets ← flagField env.lax true (d.get "require_publish_targets")
    let allowMultipleTriggers ← flagField env.lax false (d.get "allow_multiple_triggers")
    let requireApprovalBeforePublish ←
      flagField env.lax true (d.get "require_approval_before_publish")
    let requireCapabilityCheck ← flagField env.lax false (d.get "require_capability_check")
    return {
      socialAccountIds, requirePublishTargets, allowMultipleTriggers, requireApprovalBeforePublish,
      requireCapabilityCheck }
  else none

/-- `bool(raw.get(key, default))`. -/
def boolOf (d : JsonObject) (key : String) (default : Bool) : Bool :=
  ((d.get key).map Json.truthy).getD default

def RuntimeClientContext.toSeed (context : RuntimeClientContext) : CompileContext where
  socialAccountIds := context.socialAccountIds
  requirePublishTargets := context.requirePublishTargets
  allowMultipleTriggers := context.allowMultipleTriggers
  requireApprovalBeforePublish := context.requireApprovalBeforePublish
  requireCapabilityCheck := context.requireCapabilityCheck

def CompileContext.client (context : CompileContext) : RuntimeClientContext where
  socialAccountIds := context.socialAccountIds
  requirePublishTargets := context.requirePublishTargets
  allowMultipleTriggers := context.allowMultipleTriggers
  requireApprovalBeforePublish := context.requireApprovalBeforePublish
  requireCapabilityCheck := context.requireCapabilityCheck

/-- The fallback for a dictionary that does not validate. -/
def looseSeed (env : ContextEnv) (d : JsonObject) : Except ContextError CompileContext :=
  match ((getTruthy d "social_account_ids").map Json.pyList).getD (some []) with
  | none => .error .typeError
  | some items =>
    match items.mapM (readUuid env) with
    | none => .error .validationError
    | some socialAccountIds =>
      .ok
        { socialAccountIds := socialAccountIds
          requirePublishTargets := boolOf d "require_publish_targets" true
          allowMultipleTriggers := boolOf d "allow_multiple_triggers" false
          requireApprovalBeforePublish := boolOf d "require_approval_before_publish" true
          requireCapabilityCheck := boolOf d "require_capability_check" false }

def clientContextToSeed (env : ContextEnv) : ClientContext → Except ContextError CompileContext
  | .missing => .ok {}
  | .runtime context => .ok context.toSeed
  | .compile context => .ok context.client.toSeed
  | .raw d =>
    let raw := popKeys capabilityMapKeys d
    match RuntimeClientContext.modelValidate env raw with
    | some context => .ok context.toSeed
    | none => looseSeed env raw

/-! ### The runtime context -/

/-- The columns of `SocialAccount` that are read here. -/
structure SocialAccountRow where
  id : String
  tenantId : String
  platform : String
  status : String
  capabilityFlags : JsonObject := []
  deleted : Bool := false

def getSocialAccountsByIds (rows : List SocialAccountRow) (tenantId : String) (ids : List String) :
    List SocialAccountRow :=
  rows.filter fun row ↦ row.tenantId = tenantId ∧ row.id ∈ ids ∧ ¬ row.deleted

def assertAccountsAuthorized (tenantId : String) (requestedIds : List String)
    (found : List SocialAccountRow) : Except ContextError Unit :=
  let missing := requestedIds.filter fun id ↦ id ∉ found.map SocialAccountRow.id
  let quarantined := (found.filter fun row ↦ row.status = "quarantined").map SocialAccountRow.id
  let foreign := (found.filter fun row ↦ row.tenantId ≠ tenantId).map SocialAccountRow.id
  if missing ≠ [] then
    .error (.http 403 ("Unauthorized or unknown social_account_ids: " ++ ", ".intercalate missing))
  else if quarantined ≠ [] then
    .error (.http 400
      ("Quarantined social_account_ids cannot be selected: " ++ ", ".intercalate quarantined))
  else if foreign ≠ [] then
    .error (.http 403 ("Unauthorized or unknown social_account_ids: " ++ ", ".intercalate foreign))
  else .ok ()

/-- `_RUNTIME_BLOCKED_STATUSES`. -/
def runtimeBlockedStatuses : List String := ["quarantined", "disconnected"]

/-- One map of `_maps_from_accounts`. -/
def mapFromAccounts {α : Type} (column : SocialAccountRow → α) (accounts : List SocialAccountRow) :
    List (String × α) :=
  accounts.foldl (fun d row ↦ assignKey d row.id (column row)) []

def buildRuntimeCompileContext (env : ContextEnv) (rows : List SocialAccountRow) (tenantId : String)
    (client : ClientContext) (socialAccountIds : Option (List String)) (runtime : Option (List String)) :
    Except ContextError CompileContext := do
  let seed ← clientContextToSeed env client
  let ids := socialAccountIds.getD seed.socialAccountIds
  let seed := { seed with socialAccountIds := ids }
  if ids = [] then
    return { seed with
      accountCapabilities := [], accountPlatformCapabilities := [], accountPlatforms := []
      accountStatuses := [] }
  else
    let accounts := getSocialAccountsByIds rows tenantId ids
    assertAccountsAuthorized tenantId ids accounts
    let blocked := (accounts.filter fun row ↦ row.status ∈ runtimeBlockedStatuses).map
      SocialAccountRow.id
    if blocked ≠ [] then
      .error (.http 400 ("Social accounts are quarantined or disconnected and cannot be " ++
        "used at runtime: " ++ ", ".intercalate blocked))
    else
      let enriched ← enrichCompileContext env seed (mapFromAccounts SocialAccountRow.platform accounts)
        (mapFromAccounts SocialAccountRow.capabilityFlags accounts)
        (runtime.getD defaultRuntimeCapabilities) false
      return { enriched with accountStatuses := mapFromAccounts SocialAccountRow.status accounts }

/-! ### What the compiler sees -/

/-- The tags one account adds to `_available_capability_tags`. -/
def accountTags (env : ContextEnv) (context : CompileContext) (key : String) :
    Except ContextError (List String) :=
  let tags := (lookupKey context.accountCapabilities key).getD []
  let typed := (lookupKey context.accountPlatformCapabilities key).getD []
  let platform := (lookupKey context.accountPlatforms key).getD ""
  if tags ≠ [] then .ok tags
  else if typed ≠ [] then
    match PlatformCapabilities.modelValidate env.lax typed with
    | none => .error .validationError
    | some caps => .ok (workflowCapabilityTags caps defaultRuntimeCapabilities)
  else if platform ≠ "" then
    .ok (workflowCapabilityTags (platformDefaults (some platform)) defaultRuntimeCapabilities)
  else .ok []

/-- The tags `validate_capabilities` checks against: the context enriched once more, with what is there
preferred. -/
def availableCapabilityTags (env : ContextEnv) (context : CompileContext) :
    Except ContextError (List String) := do
  let enriched ← enrichCompileContext env context [] [] defaultRuntimeCapabilities true
  let tags ← enriched.socialAccountIds.mapM (accountTags env enriched)
  return tags.flatten

/-- `WorkflowCompiler.validate_graph` in a context. -/
def validateGraphIn (env : ContextEnv) (registry : WorkflowNodeRegistry) (g : WorkflowGraph)
    (context : CompileContext) : Except ContextError (List WorkflowCompileError) :=
  (availableCapabilityTags env context).map fun tags ↦ validateGraph registry (fun _ ↦ tags) g context

/-! ### Clients that agree -/

variable {env : ContextEnv} {d d' : JsonObject} {context : RuntimeClientContext}

def NamesAccounts (env : ContextEnv) (d : JsonObject) (ids : List String) : Prop :=
  match d.get "social_account_ids" with
  | none | some .null => ids = []
  | some (.arr items) => items.mapM (readUuid env) = some ids
  | some _ => False

def SetsFlag (d : JsonObject) (key : String) (default flag : Bool) : Prop :=
  match d.get key with
  | none => flag = default
  | some (.bool value) => flag = value
  | some _ => False

/-- What a client says about accounts and policy. -/
def ClientContext.Says (env : ContextEnv) : ClientContext → RuntimeClientContext → Prop
  | .missing, context => context = {}
  | .runtime own, context => own = context
  | .compile own, context => own.client = context
  | .raw d, context =>
    NamesAccounts env d context.socialAccountIds ∧
      SetsFlag d "require_publish_targets" true context.requirePublishTargets ∧
      SetsFlag d "allow_multiple_triggers" false context.allowMultipleTriggers ∧
      SetsFlag d "require_approval_before_publish" true context.requireApprovalBeforePublish ∧
      SetsFlag d "require_capability_check" false context.requireCapabilityCheck

/-- Two clients say the same about accounts and policy, or they are dictionaries that differ in the
capability maps only. -/
def ClientContext.Agrees (env : ContextEnv) (client client' : ClientContext) : Prop :=
  (∃ context, client.Says env context ∧ client'.Says env context) ∨
    ∃ d d', client = .raw d ∧ client' = .raw d' ∧
      ∀ key ∉ capabilityMapKeys, d.get key = d'.get key

theorem get_popKeys (keys : List String) (d : JsonObject) (key : String) :
    (popKeys keys d).get key = if key ∈ keys then none else d.get key := by
  unfold popKeys
  induction d with
  | nil => simp
  | cons field rest ih =>
    by_cases hfield : field.1 ∈ keys
    · rw [filter_cons_of_neg (by simpa using hfield), ih, get_cons]
      split_ifs with hkey hsame
      · rfl
      · exact absurd (hsame ▸ hfield) hkey
      · rfl
    · rw [filter_cons_of_pos (by simpa using hfield), get_cons, get_cons, ih]
      split_ifs with hsame hkey
      · exact absurd (hsame ▸ hkey) hfield
      · rfl
      · rfl
      · rfl

/-- Which keys a dictionary has. -/
theorem hasOnly_iff {names : List String} :
    hasOnly d names ↔ ∀ key, (d.get key).isSome → key ∈ names := by
  unfold hasOnly
  rw [List.all_eq_true]
  constructor
  · intro hall key hkey
    rw [JsonObject.get, isSome_map] at hkey
    obtain ⟨field, hfield⟩ := isSome_iff_exists.mp hkey
    have hsame : field.1 = key := by simpa using find?_some hfield
    have hname := hall field (mem_of_find?_eq_some hfield)
    rw [hsame] at hname
    simpa using hname
  · intro hkeys field hfield
    have hsome : (d.get field.1).isSome := by
      simpa [JsonObject.get, find?_isSome] using ⟨field.2, hfield⟩
    simpa using hkeys field.1 hsome

/-- A dictionary is validated by what it holds under its keys. -/
theorem RuntimeClientContext.modelValidate_congr
    (h : ∀ key, d.get key = d'.get key) :
    RuntimeClientContext.modelValidate env d = RuntimeClientContext.modelValidate env d' := by
  have honly : ∀ names, hasOnly d names = hasOnly d' names := fun names ↦ by
    rw [Bool.eq_iff_iff, hasOnly_iff, hasOnly_iff]
    exact forall_congr' fun key ↦ by rw [h key]
  unfold RuntimeClientContext.modelValidate
  simp only [honly, h]

theorem looseSeed_congr (h : ∀ key, d.get key = d'.get key) :
    looseSeed env d = looseSeed env d' := by
  unfold looseSeed getTruthy boolOf
  simp only [h]

theorem flagField_of_setsFlag {value : Bool} {lax : LaxMode}
    (h : SetsFlag d key default flag) (hread : flagField lax default (d.get key) = some value) :
    value = flag := by
  unfold SetsFlag at h
  cases hget : d.get key with
  | none =>
    rw [hget] at h hread
    exact (Option.some.inj hread).symm.trans h.symm
  | some stored =>
    rw [hget] at h hread
    cases stored with
    | bool own => exact (Option.some.inj hread).symm.trans h.symm
    | _ => exact h.elim

theorem boolOf_of_setsFlag (h : SetsFlag d key default flag) :
    boolOf d key default = flag := by
  unfold SetsFlag at h
  unfold boolOf
  cases hget : d.get key with
  | none =>
    rw [hget] at h
    exact h.symm
  | some stored =>
    rw [hget] at h
    cases stored with
    | bool own => exact h.symm
    | _ => exact h.elim

/-- The accounts a dictionary names, read strictly. -/
theorem listField_of_namesAccounts {own : List String} {items : List Json}
    (h : NamesAccounts env d ids) (hitems : listField (d.get "social_account_ids") = some items)
    (hown : items.mapM (readUuid env) = some own) : own = ids := by
  unfold NamesAccounts at h
  cases hget : d.get "social_account_ids" with
  | none =>
    rw [hget] at h hitems
    cases hitems
    exact (Option.some.inj hown).symm.trans h.symm
  | some stored =>
    rw [hget] at h hitems
    cases stored with
    | arr list =>
      cases hitems
      exact mem_unique hown h
    | _ => exact absurd hitems (by simp [listField])

/-- The accounts a dictionary names, read loosely. -/
theorem pyList_of_namesAccounts (h : NamesAccounts env d ids) :
    ∃ items, ((getTruthy d "social_account_ids").map Json.pyList).getD (some []) = some items ∧
      items.mapM (readUuid env) = some ids := by
  unfold NamesAccounts at h
  unfold getTruthy
  cases hget : d.get "social_account_ids" with
  | none =>
    rw [hget] at h
    exact ⟨[], rfl, by rw [h]; rfl⟩
  | some stored =>
    rw [hget] at h
    cases stored with
    | null => exact ⟨[], rfl, by rw [h]; rfl⟩
    | arr list =>
      refine ⟨list, ?_, h⟩
      cases list with
      | nil => rfl
      | cons => rfl
    | _ => exact h.elim

/-- A dictionary that says what a typed context says becomes the same seed, on either path. -/
theorem clientContextToSeed_raw (h : (ClientContext.raw d).Says env context) :
    clientContextToSeed env (.raw d) = .ok context.toSeed := by
  have hget : ∀ key ∉ capabilityMapKeys,
      (popKeys capabilityMapKeys d).get key = d.get key := fun key hkey ↦ by
    rw [get_popKeys, if_neg hkey]
  have hsays : (ClientContext.raw (popKeys capabilityMapKeys d)).Says env context := by
    dsimp only [ClientContext.Says, NamesAccounts, SetsFlag] at h ⊢
    rw [hget "social_account_ids" (by decide), hget "require_publish_targets" (by decide),
      hget "allow_multiple_triggers" (by decide), hget "require_approval_before_publish" (by decide),
      hget "require_capability_check" (by decide)]
    exact h
  obtain ⟨hids, hpublish, htriggers, happroval, hcheck⟩ := hsays
  unfold clientContextToSeed
  dsimp only
  generalize popKeys capabilityMapKeys d = raw at hids hpublish htriggers happroval hcheck ⊢
  cases hread : RuntimeClientContext.modelValidate env raw with
  | some own =>
    unfold RuntimeClientContext.modelValidate at hread
    split_ifs at hread
    obtain ⟨items, hitems, hread⟩ := bind_eq_some_iff.mp hread
    obtain ⟨ids, hmapM, hread⟩ := bind_eq_some_iff.mp hread
    obtain ⟨publish, hpublish', hread⟩ := bind_eq_some_iff.mp hread
    obtain ⟨triggers, htriggers', hread⟩ := bind_eq_some_iff.mp hread
    obtain ⟨approval, happroval', hread⟩ := bind_eq_some_iff.mp hread
    obtain ⟨check, hcheck', hread⟩ := bind_eq_some_iff.mp hread
    cases hread
    rw [listField_of_namesAccounts hids hitems hmapM, flagField_of_setsFlag hpublish hpublish',
      flagField_of_setsFlag htriggers htriggers', flagField_of_setsFlag happroval happroval',
      flagField_of_setsFlag hcheck hcheck']
  | none =>
    obtain ⟨items, hitems, hmapM⟩ := pyList_of_namesAccounts hids
    dsimp only
    unfold looseSeed
    rw [hitems]
    dsimp only
    rw [hmapM, boolOf_of_setsFlag hpublish, boolOf_of_setsFlag htriggers, boolOf_of_setsFlag happroval,
      boolOf_of_setsFlag hcheck]
    rfl

theorem clientContextToSeed_of_stated {client : ClientContext} (h : client.Says env context) :
    clientContextToSeed env client = .ok context.toSeed := by
  cases client with
  | missing =>
    obtain rfl : context = {} := h
    rfl
  | runtime own =>
    obtain rfl : own = context := h
    rfl
  | compile own =>
    obtain rfl : own.client = context := h
    rfl
  | raw d => exact clientContextToSeed_raw h

theorem clientContextToSeed_of_agrees {client client' : ClientContext} (h : client.Agrees env client') :
    clientContextToSeed env client = clientContextToSeed env client' := by
  rcases h with ⟨context, hsays, hsays'⟩ | ⟨d, d', rfl, rfl, hsame⟩
  · rw [clientContextToSeed_of_stated hsays, clientContextToSeed_of_stated hsays']
  · have hget : ∀ key, (popKeys capabilityMapKeys d).get key =
        (popKeys capabilityMapKeys d').get key := fun key ↦ by
      rw [get_popKeys, get_popKeys]
      split_ifs with hkey
      · rfl
      · exact hsame key hkey
    unfold clientContextToSeed
    dsimp only
    rw [RuntimeClientContext.modelValidate_congr hget, looseSeed_congr hget]

/-- In every state of the account rows, clients that agree on the accounts and the policy flags get the same
context or the same error, whatever their capability maps are, and the same verdict on every graph. -/
theorem runtime_context_agrees {client client' : ClientContext} (h : client.Agrees env client')
    (rows : List SocialAccountRow) (tenantId : String) (socialAccountIds runtime : Option (List String)) :
    buildRuntimeCompileContext env rows tenantId client socialAccountIds runtime =
        buildRuntimeCompileContext env rows tenantId client' socialAccountIds runtime ∧
      ∀ registry g,
        (buildRuntimeCompileContext env rows tenantId client socialAccountIds runtime >>=
            validateGraphIn env registry g) =
          buildRuntimeCompileContext env rows tenantId client' socialAccountIds runtime >>=
            validateGraphIn env registry g := by
  have hsame : buildRuntimeCompileContext env rows tenantId client socialAccountIds runtime =
      buildRuntimeCompileContext env rows tenantId client' socialAccountIds runtime := by
    unfold buildRuntimeCompileContext
    rw [clientContextToSeed_of_agrees h]
  exact ⟨hsame, fun registry g ↦ by rw [hsame]⟩

def plainEnv : ContextEnv where
  lax := plainMode
  parseUuid := some
  render := fun _ ↦ ""
  isDigit := fun _ ↦ false
  intOfDigits := fun _ ↦ none

/-- A compile context that claims video for its account. -/
def claimingClient : ClientContext :=
  .compile
    { socialAccountIds := ["a1"], accountCapabilities := [("a1", ["video"])]
      accountPlatforms := [("a1", "youtube")] }

/-- A dictionary that names the same account. -/
def plainClient : ClientContext :=
  .raw [("social_account_ids", .arr [.str "a1"]), ("account_statuses", .obj [])]

/-- The claim makes no difference. -/
theorem claimed_video_ignored :
    buildRuntimeCompileContext plainEnv
        [{ id := "a1", tenantId := "t1", platform := "x", status := "connected" }] "t1" claimingClient none
        none =
      buildRuntimeCompileContext plainEnv
        [{ id := "a1", tenantId := "t1", platform := "x", status := "connected" }] "t1" plainClient none
        none := by
  have hclaiming : claimingClient.Says plainEnv { socialAccountIds := ["a1"] } := rfl
  have hplain : plainClient.Says plainEnv { socialAccountIds := ["a1"] } := ⟨rfl, rfl, rfl, rfl, rfl⟩
  exact (runtime_context_agrees (.inl ⟨_, hclaiming, hplain⟩) _ _ none none).1

end ContentGenerator.Workflows

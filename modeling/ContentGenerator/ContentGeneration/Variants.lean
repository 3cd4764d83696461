import ContentGenerator.Lib.PyValue
import Mathlib.Data.List.Dedup
import Mathlib.Data.List.Sort

/-!
# Content variants

The durable variants of a content job: `ContentVariantStore` (`variant_store.py`) with its upsert, the
synchronisation of its targets and the lookup for publishing, and the node that writes them
(`nodes/platform_transform.py`), which groups the accounts by fingerprint (`account_selection.py`) and
upserts one variant a group. One tenant; ids are numbers; `variants` is in the order of creation.
-/

namespace ContentGenerator.ContentGeneration

open Lib

/-! ### The rows -/

/-- A row of `content_variants`. -/
structure ContentVariant where
  id : ℕ
  contentJobId : ℕ
  workflowRunId : Option ℕ := none
  fingerprint : String
  platform : String
  text : String
  title : Option String := none
  description : Option String := none
  tags : List String := []
  mediaRefs : List JsonObject := []
  deletedAt : Option ℕ := none

/-- A row of `content_variant_targets`. -/
structure ContentVariantTarget where
  variantId : ℕ
  socialAccountId : ℕ
  deriving DecidableEq

structure VariantSnapshot where
  variantId : ℕ
  contentJobId : ℕ
  fingerprint : String
  platform : String
  text : String
  title : Option String
  description : Option String
  tags : List String
  mediaRefs : List JsonObject
  socialAccountIds : List ℕ

structure VariantStore where
  variants : List ContentVariant := []
  targets : List ContentVariantTarget := []
  nextId : ℕ := 0

/-- The arguments of `upsert_variant`. -/
structure UpsertCall where
  contentJobId : ℕ
  fingerprint : String
  platform : String
  text : String
  socialAccountIds : List ℕ
  workflowRunId : Option ℕ := none
  title : Option String := none
  description : Option String := none
  tags : List String := []
  mediaRefs : List JsonObject := []

/-! ### The store -/

namespace VariantStore

/-- `get_by_fingerprint`: at most one row, by the unique constraint. -/
def getByFingerprint (s : VariantStore) (contentJobId : ℕ) (fingerprint : String) : Option ContentVariant :=
  s.variants.find? fun variant ↦ variant.contentJobId = contentJobId ∧ variant.fingerprint = fingerprint ∧
    variant.deletedAt = none

def getVariant (s : VariantStore) (variantId : ℕ) : Option ContentVariant :=
  s.variants.find? fun variant ↦ variant.id = variantId ∧ variant.deletedAt = none

def listForJob (s : VariantStore) (contentJobId : ℕ) : List ContentVariant :=
  s.variants.filter fun variant ↦ variant.contentJobId = contentJobId ∧ variant.deletedAt = none

/-- `list_targets`, the accounts of the rows. -/
def listTargets (s : VariantStore) (variantId : ℕ) : List ℕ :=
  (s.targets.filter fun row ↦ row.variantId = variantId).map ContentVariantTarget.socialAccountId

def syncTargets (s : VariantStore) (variantId : ℕ) (socialAccountIds : List ℕ) : VariantStore :=
  let wanted := socialAccountIds.dedup
  let existingIds := s.listTargets variantId
  { s with
    targets := s.targets.filter (fun row ↦ row.variantId = variantId → row.socialAccountId ∈ wanted) ++
      (wanted.filter fun accountId ↦ accountId ∉ existingIds).map fun accountId ↦ ⟨variantId, accountId⟩ }

/-- The row `upsert_variant` adds. -/
def newVariant (id : ℕ) (call : UpsertCall) : ContentVariant where
  id := id
  contentJobId := call.contentJobId
  workflowRunId := call.workflowRunId
  fingerprint := call.fingerprint
  platform := call.platform
  text := call.text
  title := call.title
  description := call.description
  tags := call.tags
  mediaRefs := call.mediaRefs

/-- The row `upsert_variant` finds, with the columns it sets. -/
def updatedVariant (existing : ContentVariant) (call : UpsertCall) : ContentVariant :=
  { existing with
    platform := call.platform
    text := call.text
    title := call.title
    description := call.description
    tags := call.tags
    mediaRefs := call.mediaRefs
    workflowRunId := call.workflowRunId.or existing.workflowRunId }

/-- The tables with a new row. -/
def addVariant (s : VariantStore) (variant : ContentVariant) : VariantStore :=
  { s with variants := s.variants ++ [variant], nextId := s.nextId + 1 }

/-- The tables with a row rewritten. -/
def writeVariant (s : VariantStore) (variant : ContentVariant) : VariantStore :=
  { s with variants := s.variants.map fun row ↦ if row.id = variant.id then variant else row }

/-- `upsert_variant`: the tables after it and the row it returns. -/
def upsertVariant (s : VariantStore) (call : UpsertCall) : VariantStore × ContentVariant :=
  match s.getByFingerprint call.contentJobId call.fingerprint with
  | none =>
    let variant := newVariant s.nextId call
    ((s.addVariant variant).syncTargets variant.id call.socialAccountIds, variant)
  | some existing =>
    let variant := updatedVariant existing call
    ((s.writeVariant variant).syncTargets variant.id call.socialAccountIds, variant)

def snapshotFromRow (variant : ContentVariant) (targets : List ℕ) : VariantSnapshot where
  variantId := variant.id
  contentJobId := variant.contentJobId
  fingerprint := variant.fingerprint
  platform := variant.platform
  text := variant.text
  title := variant.title
  description := variant.description
  tags := variant.tags
  mediaRefs := variant.mediaRefs
  socialAccountIds := targets

def getSnapshot (s : VariantStore) (variantId : ℕ) : Option VariantSnapshot :=
  (s.getVariant variantId).map fun variant ↦ snapshotFromRow variant (s.listTargets variant.id)

def resolveForAccount (s : VariantStore) (contentJobId socialAccountId : ℕ) (preferredVariantIds : List ℕ) :
    Option VariantSnapshot :=
  if preferredVariantIds.isEmpty then
    ((s.listForJob contentJobId).find? fun variant ↦ socialAccountId ∈ s.listTargets variant.id).map
      fun variant ↦ snapshotFromRow variant (s.listTargets variant.id)
  else
    (preferredVariantIds.filterMap s.getSnapshot).find? fun snapshot ↦
      snapshot.contentJobId = contentJobId ∧ socialAccountId ∈ snapshot.socialAccountIds

end VariantStore

/-! ### The node -/

/-- The columns of a social account that a variant depends on. -/
structure SocialAccount where
  id : ℕ
  platform : String
  capabilityFlags : JsonObject := []
  settings : JsonObject := []

/-- What `adapt_canonical_for_platform` makes of the text. -/
structure AdaptedText where
  platform : String
  text : String
  title : Option String := none
  description : Option String := none
  tags : List String := []

/-- The inputs of one execution of the node, with the canonical text it has found and the accounts it has
resolved. -/
structure TransformInput where
  canonicalText : String
  accounts : List SocialAccount
  contentJobId : Option ℕ := none
  workflowRunId : Option ℕ := none
  title : Option String := none
  hashtags : List String := []
  includeHashtags : Bool := true

/-- The functions on texts: the digest of a value in stable form, and the adaptation for a platform with its
capability flags. -/
structure VariantEnv where
  digest : Json → String
  adapt : TransformInput → String → JsonObject → AdaptedText

def variantFingerprint (env : VariantEnv) (account : SocialAccount) : String :=
  account.platform ++ ":" ++ env.digest (.obj
    [("platform", .str account.platform), ("capability_flags", .obj account.capabilityFlags),
      ("settings", .obj account.settings)])

/-- `groups.setdefault(fp, []).append(account)`. -/
def addToGroup (groups : List (String × List SocialAccount)) (fingerprint : String) (account : SocialAccount) :
    List (String × List SocialAccount) :=
  if ∃ group ∈ groups, group.1 = fingerprint then
    groups.map fun group ↦ if group.1 = fingerprint then (group.1, group.2 ++ [account]) else group
  else groups ++ [(fingerprint, [account])]

def groupByFingerprint (env : VariantEnv) (accounts : List SocialAccount) : List (String × List SocialAccount) :=
  accounts.foldl (fun groups account ↦ addToGroup groups (variantFingerprint env account) account) []

def upsertCall (env : VariantEnv) (input : TransformInput) (contentJobId : ℕ) (fingerprint : String)
    (group : List SocialAccount) : UpsertCall :=
  let first := group.head?
  let adapted := env.adapt input ((first.map SocialAccount.platform).getD "")
    ((first.map SocialAccount.capabilityFlags).getD [])
  { contentJobId := contentJobId
    fingerprint := fingerprint
    platform := adapted.platform
    text := adapted.text
    socialAccountIds := group.map SocialAccount.id
    workflowRunId := input.workflowRunId
    title := adapted.title
    description := adapted.description
    tags := adapted.tags }

inductive TransformResult where
  | failed (code : String)
  | succeeded (variantIds : List ℕ)

/-- `PlatformTransformNode.execute`. -/
def executeTransform (env : VariantEnv) (s : VariantStore) (input : TransformInput) :
    VariantStore × TransformResult :=
  if input.canonicalText = "" then (s, .failed "missing_canonical_text")
  else if input.accounts.isEmpty then (s, .failed "missing_accounts")
  else
    match input.contentJobId with
    | none => (s, .succeeded [])
    | some contentJobId =>
      let groups := (groupByFingerprint env input.accounts).insertionSort fun group other ↦ group.1 ≤ other.1
      let done := groups.foldl
        (fun (acc : VariantStore × List ℕ) group ↦
          let saved := acc.1.upsertVariant (upsertCall env input contentJobId group.1 group.2)
          (saved.1, acc.2 ++ [saved.2.id])) (s, [])
      (done.1, .succeeded done.2)

end ContentGenerator.ContentGeneration

import ContentGenerator.Lib.Grouping
import ContentGenerator.Lib.PyValue
import ContentGenerator.Lib.Uuid
import Mathlib.Data.Fintype.Pi

/-!
# The consolidation of social and connected accounts

`plan_consolidation` goes through the live connected rows of every tenant and platform: a row keeps the social
account it has, is linked to one that names it or that has its external id, has one created, or is quarantined.
-/

namespace ContentGenerator.Publishing

open Lib

/-! ### The snapshots and the actions -/

inductive ConsolidationActionKind
  | createSocialFromConnected
  | linkConnectedToSocial
  | mintExternalId
  | quarantineConnected
  | quarantineSocial
  | backfillJobSocialId
  deriving DecidableEq

instance : DecidableEq Uuid := fun a b ↦ decidable_of_iff (a.digits = b.digits) (by cases a; cases b; simp)

structure ConnectedSnapshot where
  id : Uuid
  tenantId : Uuid
  platform : String
  accountName : String
  socialAccountId : Option Uuid := none
  deleted : Bool := false
  deriving DecidableEq

structure SocialSnapshot where
  id : Uuid
  tenantId : Uuid
  platform : String
  accountExternalId : Option String := none
  deleted : Bool := false
  legacyConnectedAccountId : Option Uuid := none
  deriving DecidableEq

structure JobSnapshot where
  id : Uuid
  tenantId : Uuid
  platform : String
  socialAccountId : Option Uuid := none
  connectedAccountId : Option Uuid := none

structure ConsolidationAction where
  kind : ConsolidationActionKind
  tenantId : Uuid
  platform : String
  connectedId : Option Uuid := none
  socialId : Option Uuid := none
  externalId : Option String := none
  reason : Option String := none
  jobId : Option Uuid := none
  deriving DecidableEq

/-- `mint_legacy_external_id` for the id of a connected account or of a social one. -/
def mintLegacyExternalId : Uuid ⊕ Uuid → String
  | .inl connectedId => "legacy:connected:" ++ connectedId.text
  | .inr socialId => "legacy:social:" ++ socialId.text

/-! ### The indexes -/

def liveSocial (social : List SocialSnapshot) : List SocialSnapshot := social.filter fun s ↦ !s.deleted

def liveConnected (connected : List ConnectedSnapshot) : List ConnectedSnapshot :=
  connected.filter fun c ↦ !c.deleted

/-- `social_by_id`: of several entries of a key a dictionary keeps the last. -/
def socialById (social : List SocialSnapshot) (id : Uuid) : Option SocialSnapshot :=
  (liveSocial social).reverse.find? fun s ↦ s.id = id

def socialByLegacyConnected (social : List SocialSnapshot) (connectedId : Uuid) : Option SocialSnapshot :=
  (liveSocial social).reverse.find? fun s ↦ s.legacyConnectedAccountId = some connectedId

/-- `social_by_external`, without the accounts whose external id is missing or empty. -/
def socialByExternal (social : List SocialSnapshot) (tenantId : Uuid) (platform externalId : String) :
    Option SocialSnapshot :=
  (liveSocial social).reverse.find? fun s ↦
    externalId ≠ "" ∧ s.tenantId = tenantId ∧ s.platform = platform ∧ s.accountExternalId = some externalId

/-- `linked`: the account of the row, or else the one that names the row. -/
def linkedSocial (social : List SocialSnapshot) (row : ConnectedSnapshot) : Option SocialSnapshot :=
  (row.socialAccountId.bind (socialById social)).or (socialByLegacyConnected social row.id)

/-! ### The order of the rows -/

/-- `<=` on pairs. -/
def pairLe {A : Type} [LT A] [DecidableLT A] [DecidableEq A] (a b : A × String) : Bool :=
  decide (a.1 < b.1) || decide (a.1 = b.1) && decide (a.2 ≤ b.2)

def ConnectedSnapshot.group (row : ConnectedSnapshot) : Uuid × String := (row.tenantId, row.platform)

/-- `ordered`: rows with a social account first, then by id. -/
def orderedRows (rows : List ConnectedSnapshot) : List ConnectedSnapshot :=
  let sortKey := fun row : ConnectedSnapshot ↦ (if row.socialAccountId.isSome then 0 else 1, row.id.text)
  rows.mergeSort fun a b ↦ pairLe (sortKey a) (sortKey b)

/-- The groups of the live rows, sorted by tenant and platform, each in the order of its rows. -/
def planGroups (connected : List ConnectedSnapshot) : List ((Uuid × String) × List ConnectedSnapshot) :=
  ((groupsOf ConnectedSnapshot.group (liveConnected connected)).mergeSort fun a b ↦
      pairLe (a.1.1.text, a.1.2) (b.1.1.text, b.1.2)).map fun group ↦ (group.1, orderedRows group.2)

/-! ### The plan -/

/-- `actions` and `claimed_social_ids`. -/
structure PlanState where
  actions : List ConsolidationAction := []
  claimedSocialIds : List Uuid := []

/-- `actions.append`. -/
def PlanState.emit (st : PlanState) (action : ConsolidationAction) : PlanState :=
  { st with actions := st.actions ++ [action] }

/-- `claimed_social_ids.add`. -/
def PlanState.claim (st : PlanState) (socialId : Uuid) : PlanState :=
  { st with claimedSocialIds := socialId :: st.claimedSocialIds }

/-- The first actions: social accounts without an external id get one. -/
def mintActions (social : List SocialSnapshot) : List ConsolidationAction :=
  ((liveSocial social).filter fun s ↦ s.accountExternalId.getD "" = "").map fun s ↦
    { kind := .mintExternalId
      tenantId := s.tenantId
      platform := s.platform
      socialId := some s.id
      externalId := some (mintLegacyExternalId (.inr s.id))
      reason := some "null_external_id" }

/-- The loop body for a row, with the names seen in its group. `lower` is `str.lower`. -/
def planRow (lower : String → String) (social : List SocialSnapshot) (group : Uuid × String)
    (st : PlanState × List String) (row : ConnectedSnapshot) : PlanState × List String :=
  let nameKey := lower (pyStrip row.accountName)
  match linkedSocial social row with
  | some linked =>
    if linked.id ∈ st.1.claimedSocialIds ∧ row.socialAccountId ≠ some linked.id then
      (st.1.emit
        { kind := .quarantineConnected
          tenantId := group.1
          platform := group.2
          connectedId := some row.id
          socialId := some linked.id
          reason := some "social_already_claimed" }, st.2)
    else
      let claimed := st.1.claim linked.id
      (if row.socialAccountId ≠ some linked.id then
        claimed.emit
          { kind := .linkConnectedToSocial
            tenantId := group.1
            platform := group.2
            connectedId := some row.id
            socialId := some linked.id
            reason := some "legacy_connected_match" }
      else claimed, nameKey :: st.2)
  | none =>
    if nameKey ∈ st.2 then
      (st.1.emit
        { kind := .quarantineConnected
          tenantId := group.1
          platform := group.2
          connectedId := some row.id
          reason := some "duplicate_platform_account_name" }, st.2)
    else
      let external := mintLegacyExternalId (.inl row.id)
      match socialByExternal social group.1 group.2 external with
      | some existing =>
        ((st.1.claim existing.id).emit
          { kind := .linkConnectedToSocial
            tenantId := group.1
            platform := group.2
            connectedId := some row.id
            socialId := some existing.id
            externalId := some external
            reason := some "external_id_match" }, nameKey :: st.2)
      | none =>
        (st.1.emit
          { kind := .createSocialFromConnected
            tenantId := group.1
            platform := group.2
            connectedId := some row.id
            externalId := some external
            reason := some "orphan_connected" }, nameKey :: st.2)

/-- The loop over the groups: the names seen start afresh in each. -/
def planRows (lower : String → String) (connected : List ConnectedSnapshot) (social : List SocialSnapshot) :
    PlanState :=
  (planGroups connected).foldl (fun st group ↦ (group.2.foldl (planRow lower social group.1) (st, [])).1)
    { actions := mintActions social }

/-- `BACKFILL_JOB_SOCIAL_ID` for a job. -/
def backfillAction (job : JobSnapshot) (socialId : Option Uuid) : ConsolidationAction :=
  { kind := .backfillJobSocialId
    tenantId := job.tenantId
    platform := job.platform
    connectedId := job.connectedAccountId
    socialId
    jobId := some job.id
    reason := some "inherit_from_connected" }

/-- The social id that an action creates or links for a connected account, if it knows one. -/
def plannedSocialId (actions : List ConsolidationAction) (connectedId : Uuid) : Option Uuid :=
  (actions.find? fun action ↦ action.connectedId = some connectedId ∧
    (action.kind = .createSocialFromConnected ∨ action.kind = .linkConnectedToSocial)).bind (·.socialId)

def planJob (connected : List ConnectedSnapshot) (actions : List ConsolidationAction) (job : JobSnapshot) :
    List ConsolidationAction :=
  match job.socialAccountId, job.connectedAccountId with
  | some _, _ => actions
  | none, none => actions
  | none, some connectedId =>
    let connectedRow := (liveConnected connected).find? fun c ↦ c.id = connectedId
    match (connectedRow.bind (·.socialAccountId)).or (plannedSocialId actions connectedId), connectedRow with
    | none, some _ => actions ++ [backfillAction job none]
    | some socialId, _ => actions ++ [backfillAction job (some socialId)]
    | none, none => actions

def planConsolidation (lower : String → String) (connected : List ConnectedSnapshot)
    (social : List SocialSnapshot) (jobs : List JobSnapshot) : List ConsolidationAction :=
  jobs.foldl (planJob connected) (planRows lower connected social).actions

end ContentGenerator.Publishing

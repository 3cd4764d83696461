import ContentGenerator.ContentGeneration.Variants
import ContentGenerator.Lib.FirstOf
import ContentGenerator.Lib.Play

/-!
# The targets of a revision

`generate_content` (`workflow.py`) and the two regenerations of a job (`revisions.py`), with the resolution of
their accounts (`account_selection.py`) under a fixed rollout mode (`core/rollout.py`). One tenant, whose
accounts stay as they are; ids are numbers, those of plans, jobs and asset groups their positions.

`regenerate_with_feedback` passes on the targets of the job, `regenerate_asset_group` leaves them to the plan,
which keeps those of its last generation with explicit accounts. `revision_keepsTargets_iff` is the exact
condition, after any operations, for a revision to have the targets of its job.
-/

namespace ContentGenerator.ContentGeneration.Revisions

open Lib List Option

variable {feedback : Option String} {planId : ℕ} {revisionOf : Option ℕ}

/-! ### The accounts -/

structure TenantAccount extends SocialAccount where
  quarantined : Bool := false

inductive RolloutMode
  | off
  | shadow
  | canary
  | on

/-- The settings and the accounts of the tenant, the oldest first. -/
structure GenerationEnv where
  variants : VariantEnv
  accounts : List TenantAccount
  mode : RolloutMode := .on
  tenant : String := ""
  canaryPercent : ℤ := 0
  allowlist : List String := []
  tenantCanaryBucket : String → ℕ := fun _ ↦ 0

/-- `HTTPException`. -/
structure HttpError where
  statusCode : ℕ
  detail : String

def collapseOnePerPlatform (accounts : List SocialAccount) : List SocialAccount :=
  firstOf (fun account ↦ if account.platform = "" then "unknown" else account.platform) [] accounts

/-- `multi_account_enabled` of the decision. -/
def GenerationEnv.multiAccountEnabled (env : GenerationEnv) : Bool :=
  match env.mode with
  | .on | .shadow => true
  | .off => false
  | .canary => env.tenant ∈ env.allowlist ∨
      (env.tenantCanaryBucket env.tenant : ℤ) < max 0 (min 100 env.canaryPercent)

def gatedAccounts (env : GenerationEnv) (accounts : List SocialAccount) : List SocialAccount :=
  if env.multiAccountEnabled then accounts else collapseOnePerPlatform accounts

def getSocialAccountsByIds (env : GenerationEnv) (ids : List ℕ) : List TenantAccount :=
  env.accounts.filter (·.id ∈ ids)

def getSocialAccountByPlatform (env : GenerationEnv) (platform : String) : Option TenantAccount :=
  env.accounts.find? fun account ↦ account.platform = platform ∧ ¬ account.quarantined

def assertAccountsAuthorized (requested : List ℕ) (found : List TenantAccount) : Except HttpError Unit :=
  let missing := requested.filter fun id ↦ id ∉ found.map (·.id)
  let quarantined := found.filter (·.quarantined)
  if missing ≠ [] then
    .error ⟨403, "Unauthorized or unknown social_account_ids: " ++ ", ".intercalate (missing.map toString)⟩
  else if quarantined ≠ [] then
    .error ⟨400, "Quarantined social_account_ids cannot be selected: " ++
      ", ".intercalate (quarantined.map fun account ↦ toString account.id)⟩
  else .ok ()

def accountOfPlatform (env : GenerationEnv) (platform : String) : Except HttpError SocialAccount :=
  match getSocialAccountByPlatform env platform with
  | none => .error ⟨400, "No social account configured for " ++ platform⟩
  | some account => .ok account.toSocialAccount

/-- The branches of `resolve_social_accounts` for ids, in their order. -/
def selectByIds (env : GenerationEnv) (ids : List ℕ) : Except HttpError (List SocialAccount) :=
  let found := getSocialAccountsByIds env ids
  (assertAccountsAuthorized ids found).map fun _ ↦ gatedAccounts env
    (ids.filterMap fun id ↦ (found.find? (·.id = id)).map TenantAccount.toSocialAccount)

def resolveSocialAccounts (env : GenerationEnv) (socialAccountIds : List ℕ) (platforms : List String)
    (stored : List ℕ) : Except HttpError (List SocialAccount) :=
  if socialAccountIds ≠ [] then selectByIds env socialAccountIds
  else if stored ≠ [] then selectByIds env stored
  else (platforms.mapM (accountOfPlatform env)).map (gatedAccounts env)

/-! ### Generations and revisions -/

structure ContentPlan where
  decision : String
  targetSocialAccountIds : List ℕ := []

structure ContentJob where
  contentPlanId : ℕ
  revisionOfJobId : Option ℕ
  feedback : Option String
  targetSocialAccountIds : List ℕ
  variantFingerprints : List (String × List ℕ)

/-- The tables; of an asset group, the job. -/
structure PlanStore where
  plans : List ContentPlan := []
  jobs : List ContentJob := []
  assetGroups : List ℕ := []

/-- What `generate_content` finds of the story: its cluster and the status of its brief. -/
structure Story where
  hasCluster : Bool
  briefStatus : Option String

def variantFingerprints (env : GenerationEnv) (accounts : List SocialAccount) : List (String × List ℕ) :=
  (groupByFingerprint env.variants accounts).map fun group ↦ (group.1, group.2.map SocialAccount.id)

/-- The checks before a generation. -/
def checkReady (plan : ContentPlan) (story : Story) : Except HttpError Unit :=
  if plan.decision ≠ "generate" then .error ⟨400, "Content plan is not approved for generation"⟩
  else if !story.hasCluster then .error ⟨404, "Story cluster not found"⟩
  else if story.briefStatus ≠ some "approved" then
    .error ⟨422, "An approved editorial brief is required before generating content. " ++
      "Create and approve a brief for this story cluster first."⟩
  else .ok ()

/-- The tables after a generation with the selected accounts, and its job. -/
def recordGeneration (env : GenerationEnv) (s : PlanStore) (planId : ℕ) (feedback : Option String)
    (revisionOfJobId : Option ℕ) (isExplicit : Bool) (selected : List SocialAccount) : PlanStore × ContentJob :=
  let accountIds := selected.map SocialAccount.id
  let job : ContentJob := ⟨planId, revisionOfJobId, feedback, accountIds, variantFingerprints env selected⟩
  ({ plans := s.plans.modify planId fun plan ↦
        if isExplicit then { plan with targetSocialAccountIds := accountIds } else plan
     jobs := s.jobs ++ [job]
     assetGroups := s.assetGroups ++ [s.jobs.length] }, job)

def generate (env : GenerationEnv) (s : PlanStore) (story : Story) (planId : ℕ) (feedback : Option String)
    (revisionOfJobId : Option ℕ) (socialAccountIds : List ℕ) : Except HttpError (PlanStore × ContentJob) :=
  match s.plans[planId]? with
  | none => .error ⟨404, "Content plan not found"⟩
  | some plan => (checkReady plan story).bind fun _ ↦
    (resolveSocialAccounts env socialAccountIds [] plan.targetSocialAccountIds).map
      (recordGeneration env s planId feedback revisionOfJobId (socialAccountIds ≠ []))

inductive Revision
  | withFeedback (jobId : ℕ) (feedback : String)
  | ofAssetGroup (assetGroupId : ℕ) (instruction : String)

/-- The job that is revised. -/
def Revision.original (s : PlanStore) : Revision → Option ContentJob
  | .withFeedback jobId _ => s.jobs[jobId]?
  | .ofAssetGroup assetGroupId _ => s.assetGroups[assetGroupId]?.bind (s.jobs[·]?)

/-- The `social_account_ids` of the generation. -/
def Revision.accountIds (original : ContentJob) : Revision → List ℕ
  | .withFeedback _ _ => original.targetSocialAccountIds
  | .ofAssetGroup _ _ => []

/-- `regenerate_with_feedback` and `regenerate_asset_group`. -/
def Revision.run (env : GenerationEnv) (s : PlanStore) (story : Story) :
    Revision → Except HttpError (PlanStore × ContentJob)
  | .withFeedback jobId feedback =>
    match s.jobs[jobId]? with
    | none => .error ⟨404, "Content job not found"⟩
    | some job =>
      generate env s story job.contentPlanId (some feedback) (some jobId) job.targetSocialAccountIds
  | .ofAssetGroup assetGroupId instruction =>
    match s.assetGroups[assetGroupId]? with
    | none => .error ⟨404, "Generated asset group not found"⟩
    | some jobId =>
      match s.jobs[jobId]? with
      | none => .error ⟨404, "Content job not found"⟩
      | some job => generate env s story job.contentPlanId (some instruction) (some jobId) []

inductive PlanOp
  | createPlan (decision : String)
  | generate (story : Story) (planId : ℕ) (feedback : Option String) (socialAccountIds : List ℕ)
  | revise (story : Story) (revision : Revision)

/-- A request that fails leaves the tables as they are. -/
def PlanOp.apply (env : GenerationEnv) (s : PlanStore) : PlanOp → PlanStore
  | .createPlan decision => { s with plans := s.plans ++ [{ decision := decision }] }
  | .generate story planId feedback ids =>
    match Revisions.generate env s story planId feedback none ids with
    | .ok (s', _) => s'
    | .error _ => s
  | .revise story revision =>
    match revision.run env s story with
    | .ok (s', _) => s'
    | .error _ => s

/-- The job passes its targets on and has some, or the targets of its plan are its own. -/
def Revision.KeepsTargets (original : ContentJob) (plan : ContentPlan) : Revision → Prop
  | .withFeedback _ _ => original.targetSocialAccountIds ≠ [] ∨ plan.targetSocialAccountIds = []
  | .ofAssetGroup _ _ => plan.targetSocialAccountIds = original.targetSocialAccountIds

def ContentJob.SameTargets (job original : ContentJob) : Prop :=
  job.targetSocialAccountIds = original.targetSocialAccountIds ∧
    job.variantFingerprints = original.variantFingerprints

/-! ### Resolving resolved accounts -/

variable {env : GenerationEnv} {s s' : PlanStore} {story : Story} {ids : List ℕ} {accounts : List SocialAccount}
  {job : ContentJob}

theorem gatedAccounts_nil : gatedAccounts env [] = [] := by
  simp [gatedAccounts, collapseOnePerPlatform, firstOf]

theorem gatedAccounts_subset : gatedAccounts env accounts ⊆ accounts := by
  unfold gatedAccounts
  split
  · exact List.Subset.refl _
  · exact fun account hkept ↦ mem_of_mem_firstOf hkept

theorem gatedAccounts_gatedAccounts : gatedAccounts env (gatedAccounts env accounts) = gatedAccounts env accounts := by
  unfold gatedAccounts
  split
  · rfl
  · exact firstOf_firstOf accounts

theorem assertAccountsAuthorized_eq_ok {found : List TenantAccount} :
    assertAccountsAuthorized ids found = .ok () ↔
      (∀ id ∈ ids, ∃ account ∈ found, account.id = id) ∧ ∀ account ∈ found, account.quarantined = false := by
  unfold assertAccountsAuthorized
  dsimp only
  split_ifs with hmissing hquarantined
  all_goals simp only [false_iff, true_iff]
  all_goals simp_all

/-- An id that is looked for is found where it is among all accounts. -/
theorem find_getSocialAccountsByIds {id : ℕ} (hid : id ∈ ids) :
    (getSocialAccountsByIds env ids).find? (·.id = id) = env.accounts.find? (·.id = id) := by
  unfold getSocialAccountsByIds
  rw [find?_filter]
  congr 1
  funext account
  by_cases heq : account.id = id <;> simp [heq, hid]

/-- The id is that of an account of the tenant that is not quarantined. -/
def Authorized (env : GenerationEnv) (id : ℕ) : Prop :=
  ∃ account ∈ env.accounts, account.id = id ∧ account.quarantined = false

theorem authorized_of_selectByIds (h : selectByIds env ids = .ok accounts) : ∀ id ∈ ids, Authorized env id := by
  cases hassert : assertAccountsAuthorized ids (getSocialAccountsByIds env ids) with
  | error => simp [selectByIds, hassert, Except.map] at h
  | ok =>
    obtain ⟨hfound, hfree⟩ := assertAccountsAuthorized_eq_ok.mp hassert
    intro id hid
    obtain ⟨account, hmem, hsame⟩ := hfound id hid
    exact ⟨account, (mem_filter.mp hmem).1, hsame, hfree account hmem⟩

/-- Accounts that have been resolved are what their ids resolve to. -/
theorem selectByIds_map_id (h : selectByIds env ids = .ok accounts) :
    selectByIds env (accounts.map SocialAccount.id) = .ok accounts := by
  unfold selectByIds at h
  dsimp only at h
  cases hassert : assertAccountsAuthorized ids (getSocialAccountsByIds env ids) with
  | error error => simp [hassert, Except.map] at h
  | ok =>
    rw [hassert] at h
    obtain ⟨-, hfree⟩ := assertAccountsAuthorized_eq_ok.mp hassert
    have haccounts : gatedAccounts env (ids.filterMap fun id ↦
        ((getSocialAccountsByIds env ids).find? (·.id = id)).map TenantAccount.toSocialAccount) = accounts :=
      Except.ok.inj h
    have hfound : ∀ account ∈ accounts, account.id ∈ ids ∧ ∃ row ∈ env.accounts,
        env.accounts.find? (·.id = account.id) = some row ∧ row.toSocialAccount = account := by
      intro account hmem
      obtain ⟨id, hid, hlookup⟩ := mem_filterMap.mp (gatedAccounts_subset (haccounts ▸ hmem))
      rw [find_getSocialAccountsByIds hid] at hlookup
      obtain ⟨row, hrow, rfl⟩ := map_eq_some_iff.mp hlookup
      have hsame : row.id = id := by simpa using find?_some hrow
      subst hsame
      exact ⟨hid, row, mem_of_find?_eq_some hrow, hrow, rfl⟩
    unfold selectByIds
    dsimp only
    have hagain : assertAccountsAuthorized (accounts.map SocialAccount.id)
        (getSocialAccountsByIds env (accounts.map SocialAccount.id)) = .ok () := by
      refine assertAccountsAuthorized_eq_ok.mpr ⟨?_, ?_⟩
      · intro id hid
        obtain ⟨account, hmem, rfl⟩ := mem_map.mp hid
        obtain ⟨-, row, hrow, -, rfl⟩ := hfound account hmem
        exact ⟨row, mem_filter.mpr ⟨hrow, by simpa using hid⟩, rfl⟩
      · intro row hrow
        obtain ⟨hmem, hid⟩ := mem_filter.mp hrow
        obtain ⟨account, haccount, hsame⟩ := mem_map.mp (of_decide_eq_true hid)
        refine hfree row (mem_filter.mpr ⟨hmem, decide_eq_true ?_⟩)
        exact hsame ▸ (hfound account haccount).1
    rw [hagain]
    have hlookup : (accounts.map SocialAccount.id).filterMap (fun id ↦
        ((getSocialAccountsByIds env (accounts.map SocialAccount.id)).find? (·.id = id)).map
          TenantAccount.toSocialAccount) = accounts := by
      rw [filterMap_map]
      refine (filterMap_congr fun account hmem ↦ ?_).trans filterMap_some
      obtain ⟨-, row, -, hrow, hsame⟩ := hfound account hmem
      dsimp only [Function.comp_apply]
      rw [find_getSocialAccountsByIds (mem_map_of_mem hmem), hrow, map_some, hsame]
    refine congrArg Except.ok ((congrArg (gatedAccounts env) hlookup).trans ?_)
    rw [← haccounts, gatedAccounts_gatedAccounts]

theorem selectByIds_nil : selectByIds env [] = .ok [] := by
  simp [selectByIds, assertAccountsAuthorized, getSocialAccountsByIds, gatedAccounts_nil, Except.map]

/-- Without platforms, the ids of the call or else those that are stored are resolved. -/
theorem resolveSocialAccounts_nil (stored : List ℕ) : resolveSocialAccounts env ids [] stored =
    selectByIds env (if ids ≠ [] then ids else stored) := by
  unfold resolveSocialAccounts
  split_ifs with hids hstored
  · rfl
  · rfl
  · rw [not_not.mp hstored, selectByIds_nil, mapM_nil]
    exact congrArg Except.ok gatedAccounts_nil

/-! ### The tables -/

/-- The targets are resolved accounts. -/
def Resolved (env : GenerationEnv) (accounts : List SocialAccount) : Prop :=
  selectByIds env (accounts.map SocialAccount.id) = .ok accounts

structure PlanStore.Sound (env : GenerationEnv) (s : PlanStore) : Prop where
  plans : ∀ plan ∈ s.plans, ∃ accounts, Resolved env accounts ∧
    plan.targetSocialAccountIds = accounts.map SocialAccount.id
  jobs : ∀ job ∈ s.jobs, ∃ accounts, Resolved env accounts ∧
    job.targetSocialAccountIds = accounts.map SocialAccount.id ∧
      job.variantFingerprints = variantFingerprints env accounts

/-- What a generation that succeeds does. -/
theorem generate_eq_ok
    (h : generate env s story planId feedback revisionOf ids = .ok (s', job)) :
    ∃ plan accounts, s.plans[planId]? = some plan ∧
      (ids ≠ [] ∧ selectByIds env ids = .ok accounts ∨
        ids = [] ∧ selectByIds env plan.targetSocialAccountIds = .ok accounts) ∧
      recordGeneration env s planId feedback revisionOf (ids ≠ []) accounts = (s', job) := by
  unfold generate at h
  split at h
  next => cases h
  next plan hplan =>
    cases hready : checkReady plan story with
    | error => simp [hready, Except.bind] at h
    | ok =>
      cases hselected : resolveSocialAccounts env ids [] plan.targetSocialAccountIds with
      | error => simp [hready, hselected, Except.bind, Except.map] at h
      | ok accounts =>
        rw [hready, hselected] at h
        refine ⟨plan, accounts, hplan, ?_, Except.ok.inj h⟩
        rw [resolveSocialAccounts_nil] at hselected
        split_ifs at hselected with hids
        · exact .inl ⟨hids, hselected⟩
        · exact .inr ⟨not_not.mp hids, hselected⟩

theorem PlanStore.Sound.generate (hs : s.Sound env)
    (h : generate env s story planId feedback revisionOf ids = .ok (s', job)) : s'.Sound env := by
  obtain ⟨plan, accounts, -, hselected, hrecord⟩ := generate_eq_ok h
  have hresolved : Resolved env accounts := hselected.elim (selectByIds_map_id ·.2) (selectByIds_map_id ·.2)
  cases hrecord
  constructor
  · intro other hother
    obtain ⟨i, hi, rfl⟩ := getElem_of_mem hother
    have hlt : i < s.plans.length := by simpa [recordGeneration] using hi
    have hold := hs.plans s.plans[i] (getElem_mem hlt)
    dsimp only [recordGeneration]
    rw [getElem_modify]
    split
    · split
      · exact ⟨accounts, hresolved, rfl⟩
      · exact hold
    · exact hold
  · intro other hother
    rcases mem_append.mp hother with hold | hnew
    · exact hs.jobs other hold
    · cases mem_singleton.mp hnew
      exact ⟨accounts, hresolved, rfl, rfl⟩

/-- A revision generates with the targets of its job, or with those of the plan. -/
theorem Revision.run_eq_ok {revision : Revision} (h : revision.run env s story = .ok (s', job)) :
    ∃ original feedback revisionOf, revision.original s = some original ∧
      Revisions.generate env s story original.contentPlanId feedback revisionOf
        (revision.accountIds original) = .ok (s', job) := by
  cases revision with
  | withFeedback jobId feedback =>
    cases hjob : s.jobs[jobId]? with
    | none => simp [Revision.run, hjob] at h
    | some original => exact ⟨original, _, _, hjob, by simpa [Revision.run, Revision.accountIds, hjob] using h⟩
  | ofAssetGroup assetGroupId instruction =>
    cases hgroup : s.assetGroups[assetGroupId]? with
    | none => simp [Revision.run, hgroup] at h
    | some jobId =>
      cases hjob : s.jobs[jobId]? with
      | none => simp [Revision.run, hgroup, hjob] at h
      | some original =>
        refine ⟨original, some instruction, some jobId, by simp [Revision.original, hgroup, hjob], ?_⟩
        simpa [Revision.run, Revision.accountIds, hgroup, hjob] using h

theorem PlanStore.Sound.apply (hs : s.Sound env) (op : PlanOp) : (op.apply env s).Sound env := by
  cases op with
  | createPlan decision =>
    refine ⟨fun plan hplan ↦ ?_, hs.jobs⟩
    rcases mem_append.mp hplan with hold | hnew
    · exact hs.plans plan hold
    · cases mem_singleton.mp hnew
      exact ⟨[], selectByIds_nil, rfl⟩
  | generate story planId feedback ids =>
    dsimp only [PlanOp.apply]
    split
    next hdone => exact hs.generate hdone
    next => exact hs
  | revise story revision =>
    dsimp only [PlanOp.apply]
    split
    next hdone =>
      obtain ⟨original, feedback, revisionOf, -, hgenerate⟩ := Revision.run_eq_ok hdone
      exact hs.generate hgenerate
    next => exact hs

/-- After any operations, a revision has the targets and the grouping of its job exactly when it passes them
on or the plan has kept them. -/
theorem revision_keepsTargets_iff (env : GenerationEnv) (ops : List PlanOp) (story : Story) (revision : Revision)
    (original job : ContentJob) (plan : ContentPlan) (s' : PlanStore)
    (horiginal : revision.original (play (PlanOp.apply env) ops {}) = some original)
    (hplan : (play (PlanOp.apply env) ops {}).plans[original.contentPlanId]? = some plan)
    (hdone : revision.run env (play (PlanOp.apply env) ops {}) story = .ok (s', job)) :
    job.SameTargets original ↔ revision.KeepsTargets original plan := by
  have hs : (play (PlanOp.apply env) ops {}).Sound env :=
    play_invariant (fun s op (hs : s.Sound env) ↦ hs.apply op) ops ⟨by simp, by simp⟩
  have hmem : original ∈ (play (PlanOp.apply env) ops {}).jobs := by
    cases revision with
    | withFeedback => exact mem_of_getElem? horiginal
    | ofAssetGroup =>
      obtain ⟨jobId, -, hjob⟩ := bind_eq_some_iff.mp horiginal
      exact mem_of_getElem? hjob
  obtain ⟨before, hbefore, htargets, hfingerprints⟩ := hs.jobs original hmem
  obtain ⟨kept, hkept, hkeptIds⟩ := hs.plans plan (mem_of_getElem? hplan)
  obtain ⟨original', feedback, revisionOf, horiginal', hgenerate⟩ := Revision.run_eq_ok hdone
  cases mem_unique horiginal horiginal'
  obtain ⟨plan', accounts, hplan', hselected, hrecord⟩ := generate_eq_ok hgenerate
  cases mem_unique hplan hplan'
  have hjob : job = ⟨original.contentPlanId, revisionOf, feedback, accounts.map SocialAccount.id,
      variantFingerprints env accounts⟩ := (congrArg Prod.snd hrecord).symm
  -- the accounts of the revision are those of the job or those of the plan
  have hsame : accounts = before → job.SameTargets original := by
    rintro rfl
    rw [hjob]
    exact ⟨htargets.symm, hfingerprints.symm⟩
  have hof : ∀ {resolved : List SocialAccount}, Resolved env resolved →
      selectByIds env (resolved.map SocialAccount.id) = .ok accounts → accounts = resolved :=
    fun hresolved hagain ↦ Except.ok.inj (hagain.symm.trans hresolved)
  have hplanned : selectByIds env plan.targetSocialAccountIds = .ok accounts →
      (job.SameTargets original ↔ plan.targetSocialAccountIds = original.targetSocialAccountIds) := by
    intro hstored
    rw [hkeptIds] at hstored ⊢
    cases hof hkept hstored
    refine ⟨fun h ↦ (congrArg ContentJob.targetSocialAccountIds hjob).symm.trans h.1, fun heq ↦ hsame ?_⟩
    rw [heq, htargets] at hstored
    exact hof hbefore hstored
  cases revision with
  | withFeedback =>
    rcases hselected with ⟨hids, hselected⟩ | ⟨hids, hselected⟩
    · dsimp only [Revision.accountIds] at hselected
      rw [htargets] at hselected
      exact iff_of_true (hsame (hof hbefore hselected)) (.inl hids)
    · rw [hplanned hselected]
      simp_all [Revision.KeepsTargets, Revision.accountIds]
  | ofAssetGroup => exact hplanned (hselected.resolve_left fun h ↦ h.1 rfl).2

/-- Whoever is targeted, by a plan or by a job, is authorized. -/
theorem targets_authorized (env : GenerationEnv) (ops : List PlanOp) : let s := play (PlanOp.apply env) ops {}
    (∀ plan ∈ s.plans, ∀ id ∈ plan.targetSocialAccountIds, Authorized env id) ∧
      ∀ job ∈ s.jobs, ∀ id ∈ job.targetSocialAccountIds, Authorized env id := by
  have hs : (play (PlanOp.apply env) ops {}).Sound env :=
    play_invariant (fun s op (hs : s.Sound env) ↦ hs.apply op) ops ⟨by simp, by simp⟩
  constructor
  · intro plan hplan
    obtain ⟨accounts, hresolved, htargets⟩ := hs.plans plan hplan
    rw [htargets]
    exact authorized_of_selectByIds hresolved
  · intro job hjob
    obtain ⟨accounts, hresolved, htargets, -⟩ := hs.jobs job hjob
    rw [htargets]
    exact authorized_of_selectByIds hresolved

/-! ### A plan generated twice -/

/-- Two accounts, and two generations of one plan, for an account each. -/
def twoAccounts : GenerationEnv where
  variants := ⟨fun _ ↦ "6f1ed002ab559585", fun _ platform _ ↦ ⟨platform, "", none, none, []⟩⟩
  accounts := [{ id := 1, platform := "x" }, { id := 2, platform := "linkedin" }]

def approvedStory : Story := ⟨true, some "approved"⟩

def generatedTwice : List PlanOp :=
  [.createPlan "generate", .generate approvedStory 0 none [1], .generate approvedStory 0 none [2]]

/-- The revision with feedback of the first job keeps its account. -/
theorem revision_keepsTargets_feedback : ∃ original job s',
    (Revision.withFeedback 0 "shorter").original (play (PlanOp.apply twoAccounts) generatedTwice {}) =
        some original ∧
      (Revision.withFeedback 0 "shorter").run twoAccounts (play (PlanOp.apply twoAccounts) generatedTwice {})
        approvedStory = .ok (s', job) ∧ job.SameTargets original :=
  ⟨_, _, _, rfl, rfl, (revision_keepsTargets_iff twoAccounts generatedTwice approvedStory
    (.withFeedback 0 "shorter") _ _ _ _ rfl rfl rfl).mpr (.inl (by decide))⟩

/-- The asset group of the first job is regenerated for the account of the second. -/
theorem asset_group_moves_to_plan_targets : ¬ ∀ (env : GenerationEnv) (ops : List PlanOp) (story : Story)
    (revision : Revision) (original job : ContentJob) (s' : PlanStore),
    revision.original (play (PlanOp.apply env) ops {}) = some original →
      revision.run env (play (PlanOp.apply env) ops {}) story = .ok (s', job) → job.SameTargets original := by
  intro h
  have hsame := h twoAccounts generatedTwice approvedStory (.ofAssetGroup 0 "brighter") _ _ _ rfl rfl
  exact absurd hsame.1 (by decide)

end ContentGenerator.ContentGeneration.Revisions

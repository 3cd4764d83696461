import ContentGenerator.IdentityAccess.Models
import ContentGenerator.Lib.PyValue

/-!
# The authorization dependencies

`get_current_user`, `get_current_membership` and `require_permission` (`api/deps/auth.py`) with the queries
they make (`repository_users.py`, `repository_sessions.py`). `requirePermission_eq_ok_iff` says exactly which
requests they admit and with which membership.

The membership is looked up without its status, and the tenant is not looked up at all. The other lookups
filter on both: `listUserMemberships` returns the ACTIVE memberships of a user, `listActiveTenants` the
tenants that are neither suspended nor deleted. `authorization_sound_iff` is the condition under which what
is admitted is sound: the membership that the request reaches stands in both lists.
-/

namespace ContentGenerator.IdentityAccess

open Lib List

/-! ### The requests -/

structure Request where
  method : String
  path : String
  accessToken : Option String := none
  csrfToken : Option String := none
  xCsrfToken : Option String := none
  tenantIdHeader : Option String := none

/-- What the code takes from outside: the signed token and the text of a UUID. -/
structure AuthEnv where
  decodeToken : String → Option JsonObject
  parseUuid : String → Option ℕ

/-- `_SAFE_METHODS`. -/
def safeMethods : List String := ["GET", "HEAD", "OPTIONS"]

/-- `hmac.compare_digest` takes texts of ASCII characters only. -/
def verifyCsrfToken (expected provided : Option String) : Except Refusal Bool :=
  match expected.filter (· ≠ ""), provided.filter (· ≠ "") with
  | some expected, some provided =>
    if (expected ++ provided).toList.all fun c ↦ c.toNat < 128 then .ok (expected = provided)
    else .error (.unhandled "TypeError")
  | _, _ => .ok false

/-- A request with a safe method needs no token. -/
def csrfPasses (request : Request) : Except Refusal Bool :=
  if request.method ∈ safeMethods then .ok true else verifyCsrfToken request.csrfToken request.xCsrfToken

/-! ### The queries -/

def getSessionById (db : IdentityDb) (sessionId : ℕ) : Except Refusal (Option RefreshSession) :=
  scalarOneOrNone (db.refreshSessions.filter fun session ↦ session.id = sessionId)

def getUserById (db : IdentityDb) (userId : ℕ) : Except Refusal (Option User) :=
  scalarOneOrNone (db.users.filter fun user ↦ user.id = userId)

def getMembership (db : IdentityDb) (userId tenantId : ℕ) : Except Refusal (Option TenantUser) :=
  scalarOneOrNone (db.tenantUsers.filter fun membership ↦
    membership.userId = userId ∧ membership.tenantId = tenantId ∧ membership.deletedAt = none)

def listUserMemberships (db : IdentityDb) (userId : ℕ) : List TenantUser :=
  db.tenantUsers.filter fun membership ↦
    membership.userId = userId ∧ membership.membershipStatus = .active ∧ membership.deletedAt = none

def listActiveTenants (db : IdentityDb) : List Tenant :=
  db.tenants.filter fun tenant ↦ tenant.status ≠ .suspended ∧ tenant.deletedAt = none

def TenantUser.role (db : IdentityDb) (membership : TenantUser) : Option Role :=
  membership.roleId.bind fun roleId ↦ db.roles.find? fun role ↦ role.id = roleId

/-! ### The dependencies -/

/-- The claims of an access token that the code reads. -/
structure AccessClaims where
  sub : Json
  sid : Json
  type : Json

/-- The claims of a token: `decode_token` and the three subscripts. -/
def accessClaims (env : AuthEnv) (accessToken : String) : Option AccessClaims := do
  let payload ← env.decodeToken accessToken
  let sub ← payload.get "sub"
  let sid ← payload.get "sid"
  let type ← payload.get "type"
  return { sub, sid, type }

def AuthEnv.idOf (env : AuthEnv) : Json → Option ℕ
  | .str text => env.parseUuid text
  | _ => none

/-- A claim as a parameter of a query: the driver refuses what is no UUID. -/
def boundId (env : AuthEnv) (claim : Json) : Except Refusal ℕ :=
  present (env.idOf claim) (.unhandled "DBAPIError")

def getCurrentUser (env : AuthEnv) (db : IdentityDb) (now : ℕ) (request : Request) : Except Refusal User := do
  let accessToken ← present (request.accessToken.filter (· ≠ "")) (.http 401 "Authentication required")
  let passes ← csrfPasses request
  require (passes = true) (.http 403 "CSRF verification failed")
  let claims ← present (accessClaims env accessToken) (.http 401 "Invalid token")
  require (claims.type = .str "access") (.http 401 "Invalid token")
  let sessionId ← boundId env claims.sid
  let found ← getSessionById db sessionId
  let session ← present (found.filter fun session ↦ session.isRevoked = false) (.http 401 "Session expired")
  require (¬ session.expiresAt < now) (.http 401 "Session expired")
  let userId ← boundId env claims.sub
  let found ← getUserById db userId
  let user ← present (found.filter fun user ↦ session.userId = user.id ∧ user.isActive = true)
    (.http 401 "User not found")
  require (user.isVerified = true ∨ pyStartsWith "/api/v1/auth/" request.path = true)
    (.http 403 "Email verification required")
  return user

/-- The tenant a request selects: its header, or else the default tenant of the user. -/
def selectedTenant (env : AuthEnv) (request : Request) (user : User) : Except Refusal ℕ :=
  match request.tenantIdHeader.filter (· ≠ "") with
  | some header => present (env.parseUuid header) (.unhandled "ValueError")
  | none => present user.defaultTenantId (.http 400 "No active tenant selected")

def getCurrentMembership (env : AuthEnv) (db : IdentityDb) (now : ℕ) (request : Request) :
    Except Refusal TenantUser := do
  let user ← getCurrentUser env db now request
  let tenantId ← selectedTenant env request user
  let found ← getMembership db user.id tenantId
  present found (.http 403 "No access to tenant")

def requirePermission (env : AuthEnv) (permissionCode : String) (db : IdentityDb) (now : ℕ)
    (request : Request) : Except Refusal TenantUser := do
  let membership ← getCurrentMembership env db now request
  require (∃ role, membership.role db = some role ∧ permissionCode ∈ role.permissionCodes)
    (.http 403 ("Missing required permission: " ++ permissionCode))
  return membership

/-! ### Which requests are admitted -/

variable {env : AuthEnv} {db : IdentityDb} {now : ℕ} {request : Request} {session : RefreshSession} {user : User}
  {membership : TenantUser} {permissionCode : String}

/-- The request carries an access token of the session. -/
def Presents (env : AuthEnv) (request : Request) (session : RefreshSession) : Prop :=
  ∃ accessToken claims, request.accessToken = some accessToken ∧ accessClaims env accessToken = some claims ∧
    claims.type = .str "access" ∧ env.idOf claims.sid = some session.id

/-- The checks of `get_current_user`. -/
structure Identified (env : AuthEnv) (db : IdentityDb) (now : ℕ) (request : Request) (session : RefreshSession)
    (user : User) : Prop where
  token : ∃ accessToken claims, request.accessToken = some accessToken ∧ accessToken ≠ "" ∧
    accessClaims env accessToken = some claims ∧ claims.type = .str "access" ∧
    env.idOf claims.sid = some session.id ∧ env.idOf claims.sub = some user.id
  csrf : csrfPasses request = .ok true
  oneSession : db.refreshSessions.filter (fun other ↦ other.id = session.id) = [session]
  unrevoked : session.isRevoked = false
  unexpired : ¬ session.expiresAt < now
  oneUser : db.users.filter (fun other ↦ other.id = user.id) = [user]
  owner : session.userId = user.id
  isActive : user.isActive = true
  verified : user.isVerified = true ∨ pyStartsWith "/api/v1/auth/" request.path = true

/-- `get_current_user` returns a user exactly when all of its checks pass. -/
theorem getCurrentUser_eq_ok_iff :
    getCurrentUser env db now request = .ok user ↔ ∃ session, Identified env db now request session user := by
  unfold getCurrentUser boundId getSessionById getUserById
  simp only [bind_eq_ok_iff, present_eq_ok_iff, require_eq_ok_iff, pure_eq_ok_iff, Option.filter_eq_some_iff]
  constructor
  · rintro ⟨accessToken, ⟨htoken, hnonempty⟩, passes, hcsrf, -, rfl, claims, hclaims, -, htype, sessionId, hsid, -, hsession,
      session, ⟨rfl, hunrevoked⟩, -, hunexpired, userId, hsub, -, huser, found, ⟨rfl, hfound⟩, -, hverified, rfl⟩
    obtain ⟨rfl, honeSession⟩ := (scalarOneOrNone_filter_eq_some_iff RefreshSession.id).mp hsession
    obtain ⟨rfl, honeUser⟩ := (scalarOneOrNone_filter_eq_some_iff User.id).mp huser
    obtain ⟨howner, hactive⟩ := of_decide_eq_true hfound
    exact ⟨session,
      { token := ⟨accessToken, claims, htoken, of_decide_eq_true hnonempty, hclaims, htype, hsid, hsub⟩
        csrf := hcsrf
        oneSession := honeSession
        unrevoked := of_decide_eq_true hunrevoked
        unexpired := hunexpired
        oneUser := honeUser
        owner := howner
        isActive := hactive
        verified := hverified }⟩
  · rintro ⟨session, h⟩
    obtain ⟨accessToken, claims, htoken, hnonempty, hclaims, htype, hsid, hsub⟩ := h.token
    have hsession := (scalarOneOrNone_filter_eq_some_iff RefreshSession.id).mpr ⟨rfl, h.oneSession⟩
    have huser := (scalarOneOrNone_filter_eq_some_iff User.id).mpr ⟨rfl, h.oneUser⟩
    exact ⟨accessToken, ⟨htoken, decide_eq_true hnonempty⟩, true, h.csrf, (), rfl, claims, hclaims, (), htype, session.id,
      hsid, some session, hsession, session, ⟨rfl, decide_eq_true h.unrevoked⟩, (), h.unexpired, user.id, hsub,
      some user, huser, user, ⟨rfl, decide_eq_true ⟨h.owner, h.isActive⟩⟩, (), h.verified, rfl⟩

/-- What a request has to pass to reach a membership that grants the permission. -/
structure Admits (env : AuthEnv) (permissionCode : String) (db : IdentityDb) (now : ℕ) (request : Request)
    (membership : TenantUser) : Prop where
  identified : ∃ session user, Identified env db now request session user ∧ membership.userId = user.id ∧
    selectedTenant env request user = .ok membership.tenantId
  oneMembership : db.tenantUsers.filter (fun other ↦ other.userId = membership.userId ∧
    other.tenantId = membership.tenantId ∧ other.deletedAt = none) = [membership]
  grants : ∃ role, membership.role db = some role ∧ permissionCode ∈ role.permissionCodes

theorem getMembership_eq_some_iff {userId tenantId : ℕ} :
    getMembership db userId tenantId = .ok (some membership) ↔
      membership.userId = userId ∧ membership.tenantId = tenantId ∧
        db.tenantUsers.filter (fun other ↦ other.userId = membership.userId ∧
          other.tenantId = membership.tenantId ∧ other.deletedAt = none) = [membership] := by
  unfold getMembership
  rw [scalarOneOrNone_eq_some_iff]
  constructor
  · intro hrows
    have hmem : membership ∈ db.tenantUsers.filter fun other ↦
        other.userId = userId ∧ other.tenantId = tenantId ∧ other.deletedAt = none := by
      rw [hrows]
      exact mem_singleton_self membership
    obtain ⟨rfl, rfl, -⟩ := of_decide_eq_true (mem_filter.mp hmem).2
    exact ⟨rfl, rfl, hrows⟩
  · rintro ⟨rfl, rfl, hrows⟩
    exact hrows

/-- `require_permission` returns a membership exactly when the request is admitted with it. -/
theorem requirePermission_eq_ok_iff :
    requirePermission env permissionCode db now request = .ok membership ↔
      Admits env permissionCode db now request membership := by
  unfold requirePermission getCurrentMembership
  simp only [bind_eq_ok_iff, present_eq_ok_iff, require_eq_ok_iff, pure_eq_ok_iff, getCurrentUser_eq_ok_iff]
  constructor
  · rintro ⟨found, ⟨user, ⟨session, hidentified⟩, tenantId, htenant, -, hfound, rfl⟩, -, hgrants, rfl⟩
    obtain ⟨huser, rfl, hone⟩ := getMembership_eq_some_iff.mp hfound
    exact ⟨⟨session, user, hidentified, huser, htenant⟩, hone, hgrants⟩
  · rintro ⟨⟨session, user, hidentified, huser, htenant⟩, hone, hgrants⟩
    have hfound := getMembership_eq_some_iff.mpr ⟨huser, rfl, hone⟩
    exact ⟨membership, ⟨user, ⟨session, hidentified⟩, membership.tenantId, htenant, some membership, hfound, rfl⟩,
      (), hgrants, rfl⟩

theorem Admits.mem (h : Admits env permissionCode db now request membership) :
    membership ∈ db.tenantUsers ∧ membership.deletedAt = none := by
  have hmem : membership ∈ db.tenantUsers.filter fun other ↦ other.userId = membership.userId ∧
      other.tenantId = membership.tenantId ∧ other.deletedAt = none := by
    rw [h.oneMembership]
    exact mem_singleton_self membership
  obtain ⟨hrow, hlive⟩ := mem_filter.mp hmem
  exact ⟨hrow, (of_decide_eq_true hlive).2.2⟩

/-! ### Soundness -/

/-- What a returned membership promises: the session the request presents is unrevoked and unexpired and
belongs to the user, who is active; the membership is the user's in the selected tenant, live and ACTIVE; the
tenant is neither deleted nor suspended; the role grants the permission. -/
structure AuthorizationSound (env : AuthEnv) (permissionCode : String) (db : IdentityDb) (now : ℕ)
    (request : Request) (membership : TenantUser) : Prop where
  session : ∃ session ∈ db.refreshSessions, ∃ user ∈ db.users, Presents env request session ∧
    session.isRevoked = false ∧ ¬ session.expiresAt < now ∧ session.userId = user.id ∧ user.isActive = true ∧
    membership.userId = user.id ∧ selectedTenant env request user = .ok membership.tenantId
  live : membership.deletedAt = none
  isActive : membership.membershipStatus = .active
  tenant : ∃ tenant ∈ db.tenants, tenant.id = membership.tenantId ∧ tenant.deletedAt = none ∧
    tenant.status ≠ .suspended
  grants : ∃ role ∈ db.roles, membership.roleId = some role.id ∧ permissionCode ∈ role.permissionCodes

/-- The membership is one the code lists as active, of a tenant it lists as active. -/
def Stands (db : IdentityDb) (membership : TenantUser) : Prop :=
  membership ∈ listUserMemberships db membership.userId ∧
    ∃ tenant ∈ listActiveTenants db, tenant.id = membership.tenantId

/-- An admitted membership is sound exactly when it stands: everything else has been checked. -/
theorem Admits.sound_iff (h : Admits env permissionCode db now request membership) :
    AuthorizationSound env permissionCode db now request membership ↔ Stands db membership := by
  obtain ⟨hmem, hlive⟩ := h.mem
  constructor
  · intro hsound
    obtain ⟨tenant, htenant, hid, hopen, hstatus⟩ := hsound.tenant
    refine ⟨mem_filter.mpr ⟨hmem, decide_eq_true ⟨rfl, hsound.isActive, hlive⟩⟩, tenant, ?_, hid⟩
    exact mem_filter.mpr ⟨htenant, decide_eq_true ⟨hstatus, hopen⟩⟩
  · rintro ⟨hlisted, tenant, htenant, hid⟩
    obtain ⟨session, user, hidentified, huser, hselected⟩ := h.identified
    obtain ⟨accessToken, claims, htoken, -, hclaims, htype, hsid, -⟩ := hidentified.token
    obtain ⟨role, hrole, hgrants⟩ := h.grants
    have hsession : session ∈ db.refreshSessions :=
      (mem_filter.mp (hidentified.oneSession ▸ mem_singleton_self session)).1
    have huserRow : user ∈ db.users := (mem_filter.mp (hidentified.oneUser ▸ mem_singleton_self user)).1
    obtain ⟨roleId, hroleId, hfind⟩ := Option.bind_eq_some_iff.mp hrole
    have hmatch := find?_some hfind
    have hroleOf : role.id = roleId := of_decide_eq_true hmatch
    obtain ⟨htenantRow, hstands⟩ := mem_filter.mp htenant
    exact
      { session := ⟨session, hsession, user, huserRow, ⟨accessToken, claims, htoken, hclaims, htype, hsid⟩,
          hidentified.unrevoked, hidentified.unexpired, hidentified.owner, hidentified.isActive, huser, hselected⟩
        live := hlive
        isActive := (of_decide_eq_true (mem_filter.mp hlisted).2).2.1
        tenant := ⟨tenant, htenantRow, hid, (of_decide_eq_true hstands).2, (of_decide_eq_true hstands).1⟩
        grants := ⟨role, mem_of_find?_eq_some hfind, hroleId.trans (congrArg some hroleOf.symm), hgrants⟩ }

/-- `require_permission` is sound for a request exactly when every membership it admits the request with
stands. -/
theorem authorization_sound_iff (env : AuthEnv) (permissionCode : String) (db : IdentityDb) (now : ℕ)
    (request : Request) :
    (∀ membership, requirePermission env permissionCode db now request = .ok membership →
      AuthorizationSound env permissionCode db now request membership) ↔
    ∀ membership ∈ db.tenantUsers, Admits env permissionCode db now request membership →
      Stands db membership := by
  constructor
  · intro hsound membership _ hadmits
    exact hadmits.sound_iff.mp (hsound membership (requirePermission_eq_ok_iff.mpr hadmits))
  · intro hstands membership hreturned
    have hadmits := requirePermission_eq_ok_iff.mp hreturned
    exact hadmits.sound_iff.mpr (hstands membership hadmits.mem.1 hadmits)

/-- A user with one session and one membership, in the state of the arguments. -/
def oneMemberDb (membershipStatus : MembershipStatus) (tenantStatus : TenantStatus) : IdentityDb where
  users := [{ id := 1, isVerified := true, defaultTenantId := some 5 }]
  tenants := [{ id := 5, status := tenantStatus }]
  roles := [{ id := 7, permissionCodes := ["publishing.write"] }]
  tenantUsers := [{ tenantId := 5, userId := 1, roleId := some 7, membershipStatus := membershipStatus }]
  refreshSessions := [{ id := 3, userId := 1, tokenHash := "digest", expiresAt := 100 }]

/-- One signed token, of session 3 of user 1. -/
def oneTokenEnv : AuthEnv where
  decodeToken := fun token ↦
    if token = "token" then some [("sub", .str "1"), ("sid", .str "3"), ("type", .str "access")] else none
  parseUuid := fun text ↦ if text = "1" then some 1 else if text = "3" then some 3 else none

/-- A suspended member still passes. -/
theorem suspended_member_admitted :
    ¬ ∀ membership, requirePermission oneTokenEnv "publishing.write" (oneMemberDb .suspended .active) 50
        { method := "GET", path := "/api/v1/publishing/jobs", accessToken := some "token" } = .ok membership →
      AuthorizationSound oneTokenEnv "publishing.write" (oneMemberDb .suspended .active) 50
        { method := "GET", path := "/api/v1/publishing/jobs", accessToken := some "token" } membership := by
  intro hsound
  have hstatus := (hsound ⟨5, 1, some 7, .suspended, none⟩ (by decide)).isActive
  exact absurd hstatus (by decide)

end ContentGenerator.IdentityAccess

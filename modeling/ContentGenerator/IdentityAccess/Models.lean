import Mathlib.Data.List.Basic

/-!
# The rows of identity and access

The tables the authorization dependencies and the session service read (`identity_access/models.py`), with
the columns they use, and the answers of a request that is refused. Ids are numbers; instants are counted in
microseconds.
-/

namespace ContentGenerator.IdentityAccess

inductive TenantStatus where
  | active | trial | suspended
  deriving DecidableEq

inductive MembershipStatus where
  | active | invited | suspended
  deriving DecidableEq

/-- A row of `users`. -/
structure User where
  id : ℕ
  isActive : Bool := true
  isVerified : Bool := false
  defaultTenantId : Option ℕ := none
  deriving DecidableEq

/-- A row of `tenants`. -/
structure Tenant where
  id : ℕ
  status : TenantStatus := .trial
  deletedAt : Option ℕ := none
  deriving DecidableEq

/-- A row of `roles`. -/
structure Role where
  id : ℕ
  permissionCodes : List String := []
  deriving DecidableEq

/-- A row of `tenant_users`: a membership. -/
structure TenantUser where
  tenantId : ℕ
  userId : ℕ
  roleId : Option ℕ := none
  membershipStatus : MembershipStatus := .active
  deletedAt : Option ℕ := none
  deriving DecidableEq

/-- A row of `refresh_sessions`. -/
structure RefreshSession where
  id : ℕ
  userId : ℕ
  tokenHash : String
  isRevoked : Bool := false
  expiresAt : ℕ
  deriving DecidableEq

/-- The tables as one request reads them. -/
structure IdentityDb where
  users : List User := []
  tenants : List Tenant := []
  roles : List Role := []
  tenantUsers : List TenantUser := []
  refreshSessions : List RefreshSession := []

/-- What a refused request ends with: an `HTTPException`, or an exception nothing handles. -/
inductive Refusal where
  | http (statusCode : ℕ) (detail : String)
  | unhandled (error : String)
  deriving DecidableEq

def scalarOneOrNone {α : Type} : List α → Except Refusal (Option α)
  | [] => .ok none
  | [row] => .ok (some row)
  | _ :: _ :: _ => .error (.unhandled "MultipleResultsFound")

/-- `if not condition: raise`. -/
def require (condition : Prop) [Decidable condition] (refusal : Refusal) : Except Refusal Unit :=
  if condition then .ok () else .error refusal

def present {α : Type} (value : Option α) (refusal : Refusal) : Except Refusal α :=
  match value with
  | some found => .ok found
  | none => .error refusal

variable {α β : Type} {refusal : Refusal}

theorem bind_eq_ok_iff {x : Except Refusal α} {f : α → Except Refusal β} {b : β} :
    (x >>= f) = .ok b ↔ ∃ a, x = .ok a ∧ f a = .ok b := by
  cases x with
  | error e =>
    constructor
    · intro h
      cases h
    · rintro ⟨a, ha, -⟩
      cases ha
  | ok a =>
    constructor
    · intro h
      exact ⟨a, rfl, h⟩
    · rintro ⟨a', ha, hf⟩
      cases ha
      exact hf

theorem pure_eq_ok_iff {a b : α} : (pure a : Except Refusal α) = .ok b ↔ a = b := by
  constructor
  · intro h
    cases h
    rfl
  · rintro rfl
    rfl

theorem require_eq_ok_iff {condition : Prop} [Decidable condition] {u : Unit} :
    require condition refusal = .ok u ↔ condition := by
  unfold require
  split_ifs with h
  · exact iff_of_true rfl h
  · refine iff_of_false (fun hok ↦ ?_) h
    cases hok

theorem present_eq_ok_iff {value : Option α} {found : α} :
    present value refusal = .ok found ↔ value = some found := by
  cases value with
  | none =>
    refine iff_of_false (fun h ↦ ?_) (fun h ↦ ?_)
    · cases h
    · cases h
  | some other =>
    constructor
    · intro h
      cases h
      rfl
    · intro h
      cases h
      rfl

theorem scalarOneOrNone_eq_some_iff {rows : List α} {row : α} :
    scalarOneOrNone rows = .ok (some row) ↔ rows = [row] := by
  rcases rows with _ | ⟨other, _ | ⟨third, rest⟩⟩
  · refine iff_of_false (fun h ↦ ?_) (fun h ↦ ?_)
    · cases h
    · cases h
  · constructor
    · intro h
      cases h
      rfl
    · intro h
      cases h
      rfl
  · refine iff_of_false (fun h ↦ ?_) (fun h ↦ ?_)
    · cases h
    · cases h

/-- A lookup by a key column. -/
theorem scalarOneOrNone_filter_eq_some_iff {rows : List α} {row : α} (key : α → ℕ) {value : ℕ} :
    scalarOneOrNone (rows.filter fun other ↦ key other = value) = .ok (some row) ↔
      key row = value ∧ rows.filter (fun other ↦ key other = key row) = [row] := by
  rw [scalarOneOrNone_eq_some_iff]
  constructor
  · intro hrows
    have hmem : row ∈ rows.filter fun other ↦ key other = value := by
      rw [hrows]
      exact List.mem_singleton_self row
    have hkey : key row = value := of_decide_eq_true (List.mem_filter.mp hmem).2
    rw [← hkey] at hrows
    exact ⟨hkey, hrows⟩
  · rintro ⟨rfl, hrows⟩
    exact hrows

end ContentGenerator.IdentityAccess

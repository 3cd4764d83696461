import Mathlib.Data.List.Nodup
import Mathlib.Logic.Function.Basic
import ContentGenerator.Lib.Play
import ContentGenerator.Lib.Rotation
import ContentGenerator.IdentityAccess.Authorization

/-!
# Refresh tokens

The session service (`auth_sessions.py`, `auth_credentials.py`, `repository_sessions.py`) as transactions that
interleave: `refresh`, `logout` and `reset_password` read their sessions first, without a lock, and what they
write shows when they commit.

`TokensSound` says that no token is refreshed twice and that a reset or a logout that has committed leaves no
session of the chains it ends. A refresh commits without a second look at its session, a logout revokes the
session it was given and not its successor, and a reset revokes the sessions it has listed.
`refresh_tokens_sound_iff` says of a run that it is sound exactly when none of this makes a difference in it.
-/

namespace ContentGenerator.IdentityAccess

open Lib List Option
open Function (comp_apply update update_of_ne update_self)

/-! ### Sessions -/

/-- What the service takes from outside: the digest of a token, and the lifetime of a session. -/
structure SessionEnv where
  hashRefreshToken : String → String
  refreshTokenExpire : ℕ

def getRefreshSessionByHash (db : IdentityDb) (tokenHash : String) : Except Refusal (Option RefreshSession) :=
  scalarOneOrNone (db.refreshSessions.filter fun session ↦ session.tokenHash = tokenHash)

/-- `list_active_sessions`, on the rows the query sees. -/
def listActiveSessions (sessions : List RefreshSession) (userId now : ℕ) : List RefreshSession :=
  sessions.filter fun session ↦ session.userId = userId ∧ session.isRevoked = false ∧ now < session.expiresAt

def revokeRows (ids : List ℕ) (sessions : List RefreshSession) : List RefreshSession :=
  sessions.map fun row ↦ if row.id ∈ ids then { row with isRevoked := true } else row

/-- `revoke_refresh_session`: a session that was read as revoked is not written. -/
def revokeRefreshSession (db : IdentityDb) (session : RefreshSession) : IdentityDb :=
  if session.isRevoked then db
  else { db with refreshSessions := revokeRows [session.id] db.refreshSessions }

/-- Neither the primary key nor the unique index on the digest holds the new session. -/
def Fresh (db : IdentityDb) (id : ℕ) (tokenHash : String) : Prop :=
  ∀ row ∈ db.refreshSessions, row.id ≠ id ∧ row.tokenHash ≠ tokenHash

instance (db : IdentityDb) (id : ℕ) (tokenHash : String) : Decidable (Fresh db id tokenHash) :=
  inferInstanceAs (Decidable (∀ row ∈ db.refreshSessions, row.id ≠ id ∧ row.tokenHash ≠ tokenHash))

/-- `create_refresh_session`: the insert, or an `IntegrityError`. -/
def createRefreshSession (db : IdentityDb) (session : RefreshSession) : Option IdentityDb :=
  if Fresh db session.id session.tokenHash then
    some { db with refreshSessions := db.refreshSessions ++ [session] }
  else none

/-! ### Transactions -/

/-- What a call has read and not yet committed. -/
inductive SessionCall where
  | refresh (session : RefreshSession)
  | logout (session : RefreshSession)
  | resetPassword (userId now : ℕ) (seen : List RefreshSession)

def SessionCall.rows : SessionCall → List RefreshSession
  | .refresh session => [session]
  | .logout session => [session]
  | .resetPassword _ _ seen => seen

/-- `refresh` up to its writes. -/
def refreshReads (env : SessionEnv) (db : IdentityDb) (now : ℕ) (rawRefreshToken : String) :
    Except Refusal RefreshSession := do
  let found ← getRefreshSessionByHash db (env.hashRefreshToken rawRefreshToken)
  let session ← present (found.filter fun session ↦ session.isRevoked = false) (.http 401 "Invalid refresh token")
  require (¬ session.expiresAt < now) (.http 401 "Refresh token expired")
  let user ← getUserById db session.userId
  let _ ← present (user.filter fun user ↦ user.isActive) (.http 401 "User not found or disabled")
  pure session

/-- What `refresh` writes. -/
def refreshWrites (env : SessionEnv) (db : IdentityDb) (session : RefreshSession) (newId : ℕ) (newRaw : String)
    (now : ℕ) : Option IdentityDb :=
  createRefreshSession (revokeRefreshSession db session)
    { id := newId
      userId := session.userId
      tokenHash := env.hashRefreshToken newRaw
      expiresAt := now + env.refreshTokenExpire }

/-- What `reset_password` writes to the sessions: it revokes those it has listed. -/
def resetWrites (db : IdentityDb) (seen : List RefreshSession) (userId now : ℕ) : IdentityDb :=
  (listActiveSessions seen userId now).foldl revokeRefreshSession db

/-- The committed tables and the calls under way. Beside them stands what has happened: the session a chain
started with, the digests whose refresh has committed, and the chains a reset or a logout has ended. -/
structure SessionSystem where
  db : IdentityDb
  calls : ℕ → Option SessionCall := fun _ ↦ none
  chainOf : ℕ → ℕ := fun id ↦ id
  refreshed : List String := []
  closed : List ℕ := []

def SessionSystem.start (users : List User) : SessionSystem where
  db := { users := users }

def SessionSystem.opens (s : SessionSystem) (call : ℕ) (pending : SessionCall) : SessionSystem :=
  { s with calls := update s.calls call (some pending) }

def SessionSystem.ends (s : SessionSystem) (call : ℕ) : SessionSystem :=
  { s with calls := update s.calls call none }

def SessionSystem.chainsOf (s : SessionSystem) (userId : ℕ) : List ℕ :=
  (s.db.refreshSessions.filter fun row ↦ row.userId = userId).map fun row ↦ s.chainOf row.id

/-- The reads and the commits of the calls; the instants, ids and tokens they draw are part of the event. A
sign-in that has passed its checks only adds a session. -/
inductive SessionEvent where
  | signsIn (userId newId : ℕ) (newRaw : String) (now : ℕ)
  | refreshReads (call : ℕ) (rawRefreshToken : String) (now : ℕ)
  | refreshCommits (call newId : ℕ) (newRaw : String) (now : ℕ)
  | logoutReads (call : ℕ) (rawRefreshToken : String)
  | logoutCommits (call : ℕ)
  | resetReads (call userId now : ℕ)
  | resetCommits (call : ℕ)
  | rollsBack (call : ℕ)

def SessionSystem.step (env : SessionEnv) (s : SessionSystem) : SessionEvent → SessionSystem
  | .signsIn userId newId newRaw now =>
    match createRefreshSession s.db
        { id := newId
          userId := userId
          tokenHash := env.hashRefreshToken newRaw
          expiresAt := now + env.refreshTokenExpire } with
    | some db => { s with db := db, chainOf := update s.chainOf newId newId }
    | none => s
  | .refreshReads call rawRefreshToken now =>
    match IdentityAccess.refreshReads env s.db now rawRefreshToken with
    | .ok session => s.opens call (.refresh session)
    | .error _ => s.ends call
  | .refreshCommits call newId newRaw now =>
    match s.calls call with
    | some (.refresh session) =>
      match refreshWrites env s.db session newId newRaw now with
      | some db =>
        { s.ends call with
          db := db
          chainOf := update s.chainOf newId (s.chainOf session.id)
          refreshed := session.tokenHash :: s.refreshed }
      | none => s.ends call
    | _ => s
  | .logoutReads call rawRefreshToken =>
    match getRefreshSessionByHash s.db (env.hashRefreshToken rawRefreshToken) with
    | .ok (some session) => s.opens call (.logout session)
    | _ => s.ends call
  | .logoutCommits call =>
    match s.calls call with
    | some (.logout session) =>
      { s.ends call with
        db := revokeRefreshSession s.db session
        closed := s.chainOf session.id :: s.closed }
    | _ => s
  | .resetReads call userId now =>
    match getUserById s.db userId with
    | .ok (some user) => s.opens call (.resetPassword user.id now s.db.refreshSessions)
    | _ => s.ends call
  | .resetCommits call =>
    match s.calls call with
    | some (.resetPassword userId now seen) =>
      { s.ends call with
        db := resetWrites s.db seen userId now
        closed := s.chainsOf userId ++ s.closed }
    | _ => s
  | .rollsBack call => s.ends call

/-- No token has been refreshed twice, and every session of an ended chain is revoked. -/
structure TokensSound (s : SessionSystem) : Prop where
  singleUse : s.refreshed.Nodup
  final : ∀ row ∈ s.db.refreshSessions, s.chainOf row.id ∈ s.closed → row.isRevoked = true

/-- Nothing has come between what a call has read and its commit: the session of a refresh is still open, the
token of a logout has not been refreshed (or its chain has ended already), and the open sessions of a user
were there, and not past their expiry, when the reset listed them. -/
def Undisturbed (env : SessionEnv) (s : SessionSystem) : SessionEvent → Prop
  | .refreshCommits call newId newRaw _ => ∀ session, s.calls call = some (.refresh session) →
      Fresh s.db newId (env.hashRefreshToken newRaw) →
      ∀ row ∈ s.db.refreshSessions, row.id = session.id → row.isRevoked = false
  | .logoutCommits call => ∀ session, s.calls call = some (.logout session) →
      session.tokenHash ∉ s.refreshed ∨ s.chainOf session.id ∈ s.closed
  | .resetCommits call => ∀ userId now seen, s.calls call = some (.resetPassword userId now seen) →
      ∀ row ∈ s.db.refreshSessions, row.userId = userId → row.isRevoked = false →
        row.id ∈ seen.map RefreshSession.id ∧ now < row.expiresAt
  | _ => True

/-! ### Rows -/

variable {env : SessionEnv} {db : IdentityDb} {s : SessionSystem} {rows : List RefreshSession}
  {row row' session new tip : RefreshSession} {ids : List ℕ}

def RefreshSession.issue (row : RefreshSession) : RefreshSession := { row with isRevoked := false }

/-- The row `later` is `row` some time later. -/
structure RefreshSession.Becomes (row later : RefreshSession) : Prop where
  issue_eq : later.issue = row.issue
  revoked : row.isRevoked = true → later.isRevoked = true

theorem becomes_refl (row : RefreshSession) : row.Becomes row := ⟨rfl, id⟩

theorem RefreshSession.Becomes.trans {first second third : RefreshSession} (h₁ : first.Becomes second)
    (h₂ : second.Becomes third) : first.Becomes third :=
  ⟨h₂.issue_eq.trans h₁.issue_eq, fun h ↦ h₂.revoked (h₁.revoked h)⟩

theorem RefreshSession.Becomes.id_eq (h : row.Becomes row') : row'.id = row.id := by
  have hissue := congrArg RefreshSession.id h.issue_eq
  exact hissue

theorem RefreshSession.Becomes.userId_eq (h : row.Becomes row') : row'.userId = row.userId := by
  have hissue := congrArg RefreshSession.userId h.issue_eq
  exact hissue

theorem RefreshSession.Becomes.tokenHash_eq (h : row.Becomes row') : row'.tokenHash = row.tokenHash := by
  have hissue := congrArg RefreshSession.tokenHash h.issue_eq
  exact hissue

theorem RefreshSession.Becomes.expiresAt_eq (h : row.Becomes row') : row'.expiresAt = row.expiresAt := by
  have hissue := congrArg RefreshSession.expiresAt h.issue_eq
  exact hissue

@[simp] theorem map_issue_revokeRows (ids : List ℕ) (rows : List RefreshSession) :
    (revokeRows ids rows).map RefreshSession.issue = rows.map RefreshSession.issue := by
  unfold revokeRows
  rw [List.map_map]
  refine map_congr_left fun row _ ↦ ?_
  dsimp only [comp_apply]
  split_ifs
  · rfl
  · rfl

theorem revokeRows_revokeRows (first second : List ℕ) (rows : List RefreshSession) :
    revokeRows second (revokeRows first rows) = revokeRows (first ++ second) rows := by
  unfold revokeRows
  rw [List.map_map]
  refine map_congr_left fun row _ ↦ ?_
  dsimp only [comp_apply]
  by_cases hfirst : row.id ∈ first
  · rw [if_pos hfirst, if_pos (mem_append_left _ hfirst)]
    split_ifs
    · rfl
    · rfl
  · have hiff : row.id ∈ first ++ second ↔ row.id ∈ second := by
      rw [mem_append]
      exact or_iff_right hfirst
    rw [if_neg hfirst]
    simp only [hiff]

/-- A row after the revocation of some, and the row it was. -/
theorem exists_of_mem_revokeRows (h : row' ∈ revokeRows ids rows) :
    ∃ row ∈ rows, row.Becomes row' ∧ (row'.isRevoked = true ↔ row.id ∈ ids ∨ row.isRevoked = true) := by
  obtain ⟨row, hrow, rfl⟩ := List.mem_map.mp h
  refine ⟨row, hrow, ?_⟩
  split_ifs with hid
  · exact ⟨⟨rfl, fun _ ↦ rfl⟩, iff_of_true rfl (.inl hid)⟩
  · exact ⟨becomes_refl row, (or_iff_right hid).symm⟩

/-- A row, and what it is after the revocation of some. -/
theorem exists_mem_revokeRows (ids : List ℕ) (h : row ∈ rows) :
    ∃ row' ∈ revokeRows ids rows, row.Becomes row' ∧
      (row'.isRevoked = true ↔ row.id ∈ ids ∨ row.isRevoked = true) := by
  refine ⟨_, List.mem_map_of_mem h, ?_⟩
  split_ifs with hid
  · exact ⟨⟨rfl, fun _ ↦ rfl⟩, iff_of_true rfl (.inl hid)⟩
  · exact ⟨becomes_refl row, (or_iff_right hid).symm⟩

theorem revokeRows_eq_self (h : ∀ row ∈ rows, row.id ∈ ids → row.isRevoked = true) : revokeRows ids rows = rows := by
  unfold revokeRows
  refine (map_congr_left fun row hrow ↦ ?_).trans (List.map_id rows)
  split_ifs with hid
  · have hrevoked := h row hrow hid
    cases row
    cases hrevoked
    rfl
  · rfl

/-- A session that was read as revoked is still revoked, so the write that is left out changes nothing. -/
theorem refreshSessions_revokeRefreshSession (h : session.isRevoked = true →
    ∀ row ∈ db.refreshSessions, row.id = session.id → row.isRevoked = true) :
    (revokeRefreshSession db session).refreshSessions = revokeRows [session.id] db.refreshSessions := by
  unfold revokeRefreshSession
  split_ifs with hrevoked
  · refine (revokeRows_eq_self fun row hrow hid ↦ ?_).symm
    exact h hrevoked row hrow (mem_singleton.mp hid)
  · rfl

theorem refreshSessions_foldl_revoke (sessions : List RefreshSession) (hopen : ∀ a ∈ sessions, a.isRevoked = false)
    (db : IdentityDb) : (sessions.foldl revokeRefreshSession db).refreshSessions =
      revokeRows (sessions.map RefreshSession.id) db.refreshSessions := by
  induction sessions generalizing db with
  | nil => exact (revokeRows_eq_self fun _ _ hid ↦ (not_mem_nil hid).elim).symm
  | cons session rest ih =>
    have hsession : session.isRevoked = false := hopen session mem_cons_self
    have hwrite : (revokeRefreshSession db session).refreshSessions =
        revokeRows [session.id] db.refreshSessions :=
      refreshSessions_revokeRefreshSession fun hrevoked ↦ (Bool.false_ne_true (hsession.symm.trans hrevoked)).elim
    rw [foldl_cons, ih (fun a ha ↦ hopen a (mem_cons_of_mem _ ha)), hwrite, revokeRows_revokeRows]
    rfl

theorem refreshSessions_resetWrites (db : IdentityDb) (seen : List RefreshSession) (userId now : ℕ) :
    (resetWrites db seen userId now).refreshSessions =
      revokeRows ((listActiveSessions seen userId now).map RefreshSession.id) db.refreshSessions := by
  refine refreshSessions_foldl_revoke _ (fun session hsession ↦ ?_) db
  exact (of_decide_eq_true (mem_filter.mp hsession).2).2.1

variable {db' : IdentityDb} {call now userId : ℕ} {seen : List RefreshSession}

theorem createRefreshSession_eq_some_iff :
    createRefreshSession db new = some db' ↔
      Fresh db new.id new.tokenHash ∧ { db with refreshSessions := db.refreshSessions ++ [new] } = db' := by
  unfold createRefreshSession
  split_ifs with hfresh
  · rw [some_inj]
    exact (and_iff_right hfresh).symm
  · refine iff_of_false (fun h ↦ ?_) (fun h ↦ hfresh h.1)
    cases h

/-- The session a refresh goes on with is in the table, and open. -/
theorem mem_of_refreshReads {raw : String} (h : refreshReads env db now raw = .ok session) :
    session ∈ db.refreshSessions ∧ session.isRevoked = false := by
  unfold refreshReads at h
  obtain ⟨found, hfound, h⟩ := bind_eq_ok_iff.mp h
  obtain ⟨read, hread, h⟩ := bind_eq_ok_iff.mp h
  obtain ⟨_, -, h⟩ := bind_eq_ok_iff.mp h
  obtain ⟨_, -, h⟩ := bind_eq_ok_iff.mp h
  obtain ⟨_, -, h⟩ := bind_eq_ok_iff.mp h
  obtain rfl : read = session := pure_eq_ok_iff.mp h
  obtain ⟨hsome, hopen⟩ := filter_eq_some_iff.mp (present_eq_ok_iff.mp hread)
  rw [hsome] at hfound
  refine ⟨?_, of_decide_eq_true hopen⟩
  have hrows := scalarOneOrNone_eq_some_iff.mp hfound
  have hmem : read ∈ db.refreshSessions.filter fun session ↦ session.tokenHash = env.hashRefreshToken raw := by
    rw [hrows]
    exact mem_singleton_self read
  exact (mem_filter.mp hmem).1

/-! ### Chains -/

structure Chained (issued : List RefreshSession) (chainOf : ℕ → ℕ) (refreshed : List String) (closed : List ℕ) :
    Prop where
  ids_nodup : (issued.map RefreshSession.id).Nodup
  hashes_nodup : (issued.map RefreshSession.tokenHash).Nodup
  singleUse : refreshed.Nodup
  refreshed_issued : ∀ hash ∈ refreshed, hash ∈ issued.map RefreshSession.tokenHash
  oneTip : OneTip issued (fun a ↦ chainOf a.id) fun a ↦ a.tokenHash ∈ refreshed
  chain_issued : ∀ a ∈ issued, chainOf a.id ∈ issued.map RefreshSession.id
  closed_issued : ∀ chain ∈ closed, chain ∈ issued.map RefreshSession.id
  one_user : ∀ a ∈ issued, ∀ b ∈ issued, chainOf a.id = chainOf b.id → a.userId = b.userId

/-- Neither the id nor the digest has been issued. -/
def Unissued (issued : List RefreshSession) (new : RefreshSession) : Prop :=
  new.id ∉ issued.map RefreshSession.id ∧ new.tokenHash ∉ issued.map RefreshSession.tokenHash

section Chains

variable {issued : List RefreshSession} {chainOf : ℕ → ℕ} {refreshed : List String} {closed : List ℕ}

theorem update_chainOf_of_unissued (hnew : Unissued issued new) (chain : ℕ) {a : RefreshSession} (ha : a ∈ issued) :
    update chainOf new.id chain a.id = chainOf a.id := by
  refine update_of_ne ?_ _ _
  intro hid
  exact hnew.1 (hid ▸ List.mem_map_of_mem ha)

theorem nodup_map_append {β : Type} {key : RefreshSession → β} (h : (issued.map key).Nodup)
    (hnew : key new ∉ issued.map key) : ((issued ++ [new]).map key).Nodup := by
  rw [map_append]
  refine List.Nodup.append h (nodup_singleton _) ?_
  intro value hvalue hlast
  rw [map_singleton, mem_singleton] at hlast
  exact hnew (hlast ▸ hvalue)

/-- A sign-in starts a chain. -/
theorem Chained.start (h : Chained issued chainOf refreshed closed) (hnew : Unissued issued new) :
    Chained (issued ++ [new]) (update chainOf new.id new.id) refreshed closed := by
  have hold : ∀ a ∈ issued, update chainOf new.id new.id a.id = chainOf a.id :=
    fun a ha ↦ update_chainOf_of_unissued hnew new.id ha
  have hself : update chainOf new.id new.id new.id = new.id := update_self _ _ _
  have hapart : ∀ a ∈ issued, chainOf a.id ≠ new.id := fun a ha hchain ↦ hnew.1 (hchain ▸ h.chain_issued a ha)
  have hids : ∀ id ∈ issued.map RefreshSession.id, id ∈ (issued ++ [new]).map RefreshSession.id := by
    intro id hid
    rw [map_append]
    exact mem_append_left _ hid
  refine ⟨nodup_map_append h.ids_nodup hnew.1, nodup_map_append h.hashes_nodup hnew.2, h.singleUse, ?_, ?_, ?_, ?_, ?_⟩
  · intro hash hhash
    rw [map_append]
    exact mem_append_left _ (h.refreshed_issued hash hhash)
  · refine (h.oneTip.congr hold fun a _ ↦ Iff.rfl).start (fun a ha ↦ ?_) fun hused ↦ ?_
    · rw [hold a ha, hself]
      exact hapart a ha
    · exact hnew.2 (h.refreshed_issued _ hused)
  · intro a ha
    rcases mem_append.mp ha with ha | ha
    · rw [hold a ha]
      exact hids _ (h.chain_issued a ha)
    · rw [mem_singleton.mp ha, hself]
      exact List.mem_map_of_mem (mem_append_right _ (mem_singleton_self new))
  · exact fun chain hchain ↦ hids chain (h.closed_issued chain hchain)
  · intro a ha b hb hab
    rcases mem_append.mp ha with ha | ha
    · rcases mem_append.mp hb with hb | hb
      · rw [hold a ha, hold b hb] at hab
        exact h.one_user a ha b hb hab
      · rw [mem_singleton.mp hb, hold a ha, hself] at hab
        exact (hapart a ha hab).elim
    · rcases mem_append.mp hb with hb | hb
      · rw [mem_singleton.mp ha, hold b hb, hself] at hab
        exact (hapart b hb hab.symm).elim
      · rw [mem_singleton.mp ha, mem_singleton.mp hb]

/-- A refresh of the last session of a chain issues the next one. -/
theorem Chained.rotate (h : Chained issued chainOf refreshed closed) (hnew : Unissued issued new)
    (htip : tip ∈ issued) (hunused : tip.tokenHash ∉ refreshed) (huser : new.userId = tip.userId) :
    Chained (issued ++ [new]) (update chainOf new.id (chainOf tip.id)) (tip.tokenHash :: refreshed)
      closed := by
  have hold : ∀ a ∈ issued, update chainOf new.id (chainOf tip.id) a.id = chainOf a.id :=
    fun a ha ↦ update_chainOf_of_unissued hnew _ ha
  have hself : update chainOf new.id (chainOf tip.id) new.id = chainOf tip.id :=
    update_self _ _ _
  have hhashes := nodup_map_append h.hashes_nodup hnew.2
  have hmem : ∀ {a}, a ∈ issued → a ∈ issued ++ [new] := fun ha ↦ mem_append_left _ ha
  have hids : ∀ id ∈ issued.map RefreshSession.id, id ∈ (issued ++ [new]).map RefreshSession.id := by
    intro id hid
    rw [map_append]
    exact mem_append_left _ hid
  -- the session of `issued` that stands for `a` as far as chains go
  have hstands : ∀ a ∈ issued ++ [new], ∃ b ∈ issued, chainOf b.id =
      update chainOf new.id (chainOf tip.id) a.id ∧ a.userId = b.userId := by
    intro a ha
    rcases mem_append.mp ha with ha | ha
    · exact ⟨a, ha, (hold a ha).symm, rfl⟩
    · rw [mem_singleton.mp ha]
      exact ⟨tip, htip, hself.symm, huser⟩
  refine ⟨nodup_map_append h.ids_nodup hnew.1, hhashes, ?_, ?_, ?_, ?_, ?_, ?_⟩
  · exact nodup_cons.mpr ⟨hunused, h.singleUse⟩
  · intro hash hhash
    rw [map_append]
    refine mem_append_left _ ?_
    rcases mem_cons.mp hhash with rfl | hhash
    · exact List.mem_map_of_mem htip
    · exact h.refreshed_issued hash hhash
  · have hrotated := (h.oneTip.congr hold fun a _ ↦ Iff.rfl).rotate htip hunused
      (hself.trans (hold tip htip).symm) (fun hused ↦ hnew.2 (h.refreshed_issued _ hused)) (fun hsame ↦ ?_)
    · refine hrotated.congr (fun _ _ ↦ rfl) fun a ha ↦ ?_
      rw [mem_cons]
      refine or_congr_left ?_
      constructor
      · exact fun hhash ↦ inj_on_of_nodup_map hhashes ha (hmem htip) hhash
      · rintro rfl
        rfl
    · exact hnew.1 (hsame ▸ List.mem_map_of_mem htip)
  · intro a ha
    obtain ⟨b, hb, hchain, -⟩ := hstands a ha
    rw [← hchain]
    exact hids _ (h.chain_issued b hb)
  · exact fun chain hchain ↦ hids chain (h.closed_issued chain hchain)
  · intro a ha b hb hab
    obtain ⟨a', ha', hchainA, huserA⟩ := hstands a ha
    obtain ⟨b', hb', hchainB, huserB⟩ := hstands b hb
    rw [huserA, huserB]
    exact h.one_user a' ha' b' hb' (hchainA.trans (hab.trans hchainB.symm))

/-- Chains are ended. -/
theorem Chained.close (h : Chained issued chainOf refreshed closed) {chains : List ℕ}
    (hchains : ∀ chain ∈ chains, chain ∈ issued.map RefreshSession.id) :
    Chained issued chainOf refreshed (chains ++ closed) := by
  refine { h with closed_issued := fun chain hchain ↦ ?_ }
  rcases mem_append.mp hchain with hchain | hchain
  · exact hchains chain hchain
  · exact h.closed_issued chain hchain

theorem Chained.eq_of_unused (h : Chained issued chainOf refreshed closed) {a b : RefreshSession} (ha : a ∈ issued)
    (hb : b ∈ issued) (hab : chainOf a.id = chainOf b.id) (hua : a.tokenHash ∉ refreshed)
    (hub : b.tokenHash ∉ refreshed) : a = b :=
  h.oneTip.unique a ha b hb hab hua hub

end Chains

/-! ### The invariant -/

/-- A session is revoked because its token has been refreshed or because its chain has ended; and what a call
has read is in the table, if only in a later state. -/
structure Accounted (s : SessionSystem) : Prop where
  chained : Chained (s.db.refreshSessions.map RefreshSession.issue) s.chainOf s.refreshed s.closed
  revoked_iff : ∀ row ∈ s.db.refreshSessions,
    row.isRevoked = true ↔ row.tokenHash ∈ s.refreshed ∨ s.chainOf row.id ∈ s.closed
  read : ∀ call pending, s.calls call = some pending →
    ∀ row ∈ pending.rows, ∃ later ∈ s.db.refreshSessions, row.Becomes later
  open_refresh : ∀ call session, s.calls call = some (.refresh session) → session.isRevoked = false

theorem Accounted.sound (h : Accounted s) : TokensSound s :=
  ⟨h.chained.singleUse, fun row hrow hclosed ↦ (h.revoked_iff row hrow).mpr (.inr hclosed)⟩

theorem accounted_start (users : List User) : Accounted (.start users) where
  chained :=
    { ids_nodup := nodup_nil
      hashes_nodup := nodup_nil
      singleUse := nodup_nil
      refreshed_issued := fun _ h ↦ (not_mem_nil h).elim
      oneTip := oneTip_nil
      chain_issued := fun _ h ↦ (not_mem_nil h).elim
      closed_issued := fun _ h ↦ (not_mem_nil h).elim
      one_user := fun _ h ↦ (not_mem_nil h).elim }
  revoked_iff := fun _ h ↦ (not_mem_nil h).elim
  read := fun _ _ h ↦ (some_ne_none _ h.symm).elim
  open_refresh := fun _ _ h ↦ (some_ne_none _ h.symm).elim

theorem Accounted.eq_of_id (h : Accounted s) (hrow : row ∈ s.db.refreshSessions) (hrow' : row' ∈ s.db.refreshSessions)
    (hid : row.id = row'.id) : row = row' := by
  have hnodup := h.chained.ids_nodup
  rw [List.map_map] at hnodup
  exact inj_on_of_nodup_map hnodup hrow hrow' hid

theorem Accounted.eq_of_tokenHash (h : Accounted s) (hrow : row ∈ s.db.refreshSessions)
    (hrow' : row' ∈ s.db.refreshSessions) (hhash : row.tokenHash = row'.tokenHash) : row = row' := by
  have hnodup := h.chained.hashes_nodup
  rw [List.map_map] at hnodup
  exact inj_on_of_nodup_map hnodup hrow hrow' hhash

theorem Accounted.chain_mem_issued (h : Accounted s) (hrow : row ∈ s.db.refreshSessions) :
    s.chainOf row.id ∈ (s.db.refreshSessions.map RefreshSession.issue).map RefreshSession.id :=
  h.chained.chain_issued row.issue (List.mem_map_of_mem hrow)

theorem Accounted.of_open (h : Accounted s) (hrow : row ∈ s.db.refreshSessions) (hopen : row.isRevoked = false) :
    row.tokenHash ∉ s.refreshed ∧ s.chainOf row.id ∉ s.closed := by
  refine not_or.mp fun hused ↦ ?_
  exact Bool.false_ne_true (hopen.symm.trans ((h.revoked_iff row hrow).mpr hused))

theorem unissued_of_fresh (hfresh : Fresh db new.id new.tokenHash) :
    Unissued (db.refreshSessions.map RefreshSession.issue) new := by
  constructor
  · intro hid
    obtain ⟨issue, hissue, hid⟩ := List.mem_map.mp hid
    obtain ⟨row, hrow, rfl⟩ := List.mem_map.mp hissue
    exact (hfresh row hrow).1 hid
  · intro hhash
    obtain ⟨issue, hissue, hhash⟩ := List.mem_map.mp hhash
    obtain ⟨row, hrow, rfl⟩ := List.mem_map.mp hissue
    exact (hfresh row hrow).2 hhash

theorem update_chainOf_of_mem {chainOf : ℕ → ℕ} (hnew : Unissued (rows.map RefreshSession.issue) new) (chain : ℕ)
    (hrow : row ∈ rows) : update chainOf new.id chain row.id = chainOf row.id :=
  update_chainOf_of_unissued hnew chain (a := row.issue) (List.mem_map_of_mem hrow)

theorem calls_of_ends {other : ℕ} {pending : SessionCall} (h : (s.ends call).calls other = some pending) :
    s.calls other = some pending := by
  by_cases hcall : other = call
  · have hnone : (s.ends call).calls other = none := hcall ▸ update_self _ _ _
    exact (some_ne_none _ (h.symm.trans hnone)).elim
  · exact (update_of_ne hcall _ _).symm.trans h

/-! ### Reads -/

theorem Accounted.ends (h : Accounted s) (call : ℕ) : Accounted (s.ends call) where
  chained := h.chained
  revoked_iff := h.revoked_iff
  read := fun other pending hcall ↦ h.read other pending (calls_of_ends hcall)
  open_refresh := fun other session hcall ↦ h.open_refresh other session (calls_of_ends hcall)

theorem Accounted.opens (h : Accounted s) (call : ℕ) {pending : SessionCall}
    (hrows : ∀ row ∈ pending.rows, row ∈ s.db.refreshSessions)
    (hopen : ∀ session, pending = .refresh session → session.isRevoked = false) : Accounted (s.opens call pending) := by
  have hcalls : ∀ other found, (s.opens call pending).calls other = some found →
      found = pending ∨ s.calls other = some found := by
    intro other found hfound
    by_cases hcall : other = call
    · have hsome : (s.opens call pending).calls other = some pending := hcall ▸ update_self _ _ _
      exact .inl (mem_unique hfound hsome)
    · exact .inr ((update_of_ne hcall _ _).symm.trans hfound)
  refine ⟨h.chained, h.revoked_iff, fun other found hfound row hrow ↦ ?_, fun other session hfound ↦ ?_⟩
  · rcases hcalls other found hfound with rfl | hbefore
    · exact ⟨row, hrows row hrow, becomes_refl row⟩
    · exact h.read other found hbefore row hrow
  · rcases hcalls other (.refresh session) hfound with hpending | hbefore
    · exact hopen session hpending.symm
    · exact h.open_refresh other session hbefore

/-! ### Commits -/

theorem Accounted.signsIn (h : Accounted s) (hfresh : Fresh s.db new.id new.tokenHash) (hopen : new.isRevoked = false) :
    Accounted { s with
      db := { s.db with refreshSessions := s.db.refreshSessions ++ [new] }
      chainOf := update s.chainOf new.id new.id } := by
  have hnew := unissued_of_fresh hfresh
  have hissue : new.issue = new := by
    cases new
    cases hopen
    rfl
  refine ⟨?_, fun row hrow ↦ ?_, fun call pending hcall row hrow ↦ ?_, h.open_refresh⟩
  · have hchained := h.chained.start hnew
    rw [← hissue] at hchained
    dsimp only
    rw [map_append]
    exact hchained
  · dsimp only
    rcases mem_append.mp hrow with hrow | hrow
    · rw [update_chainOf_of_mem hnew new.id hrow]
      exact h.revoked_iff row hrow
    · obtain rfl := mem_singleton.mp hrow
      rw [update_self]
      refine iff_of_false (Bool.eq_false_iff.mp hopen) ?_
      rintro (hused | hclosed)
      · exact hnew.2 (h.chained.refreshed_issued _ hused)
      · exact hnew.1 (h.chained.closed_issued _ hclosed)
  · obtain ⟨later, hlater, hbecomes⟩ := h.read call pending hcall row hrow
    exact ⟨later, mem_append_left _ hlater, hbecomes⟩

/-- A refresh whose session is still open. -/
theorem Accounted.refreshCommits (h : Accounted s) (call : ℕ) (hnew : Unissued (s.db.refreshSessions.map RefreshSession.issue) new)
    (hopen : new.isRevoked = false) (huser : new.userId = session.userId) (hsession : row ∈ s.db.refreshSessions)
    (hbecomes : session.Becomes row) (hrow : row.isRevoked = false) :
    Accounted { s.ends call with
      db := { s.db with refreshSessions := revokeRows [session.id] s.db.refreshSessions ++ [new] }
      chainOf := update s.chainOf new.id (s.chainOf session.id)
      refreshed := session.tokenHash :: s.refreshed } := by
  obtain ⟨hunused, hgoesOn⟩ := h.of_open hsession hrow
  have hissue : new.issue = new := by
    cases new
    cases hopen
    rfl
  refine ⟨?_, fun row' hrow' ↦ ?_, fun other pending hcall read hread ↦ ?_, fun other read hcall ↦ ?_⟩
  · have hchained := h.chained.rotate hnew (List.mem_map_of_mem hsession) hunused
      (huser.trans hbecomes.userId_eq.symm)
    have hid : row.issue.id = session.id := hbecomes.id_eq
    have hhash : row.issue.tokenHash = session.tokenHash := hbecomes.tokenHash_eq
    rw [hid, hhash, ← hissue] at hchained
    dsimp only
    rw [map_append, map_issue_revokeRows]
    exact hchained
  · dsimp only
    rcases mem_append.mp hrow' with hrow' | hrow'
    · obtain ⟨old, hold, holdBecomes, hrevoked⟩ := exists_of_mem_revokeRows hrow'
      have hchain : update s.chainOf new.id (s.chainOf session.id) old.id = s.chainOf old.id :=
        update_chainOf_of_mem hnew _ hold
      have hself : old.id = session.id ↔ old.tokenHash = session.tokenHash := by
        rw [← hbecomes.id_eq, ← hbecomes.tokenHash_eq]
        constructor
        · intro hid
          rw [h.eq_of_id hold hsession hid]
        · intro hhash
          rw [h.eq_of_tokenHash hold hsession hhash]
      rw [hrevoked, holdBecomes.id_eq, holdBecomes.tokenHash_eq, hchain, h.revoked_iff old hold, mem_singleton,
        hself, mem_cons]
      exact or_assoc.symm
    · obtain rfl := mem_singleton.mp hrow'
      have hchain : update s.chainOf row'.id (s.chainOf session.id) row'.id = s.chainOf row.id := by
        rw [update_self, hbecomes.id_eq]
      rw [hchain]
      refine iff_of_false (Bool.eq_false_iff.mp hopen) ?_
      rintro (hused | hclosed)
      · rcases mem_cons.mp hused with hhash | hused
        · refine hnew.2 ?_
          rw [hhash, ← hbecomes.tokenHash_eq, List.map_map]
          exact List.mem_map_of_mem hsession
        · exact hnew.2 (h.chained.refreshed_issued _ hused)
      · exact hgoesOn hclosed
  · obtain ⟨later, hlater, hreadBecomes⟩ := h.read other pending (calls_of_ends hcall) read hread
    obtain ⟨last, hlast, hlastBecomes, -⟩ := exists_mem_revokeRows [session.id] hlater
    exact ⟨last, mem_append_left _ hlast, hreadBecomes.trans hlastBecomes⟩
  · exact h.open_refresh other read (calls_of_ends hcall)

theorem Accounted.closes (h : Accounted s) (call : ℕ) {chains : List ℕ}
    (hrows : db'.refreshSessions = revokeRows ids s.db.refreshSessions)
    (hissued : ∀ chain ∈ chains, ∃ row ∈ s.db.refreshSessions, s.chainOf row.id = chain)
    (hends : ∀ row ∈ s.db.refreshSessions, row.id ∈ ids → s.chainOf row.id ∈ chains)
    (hall : ∀ row ∈ s.db.refreshSessions, s.chainOf row.id ∈ chains → row.isRevoked = false → row.id ∈ ids) :
    Accounted { s.ends call with db := db', closed := chains ++ s.closed } := by
  refine ⟨?_, fun row' hrow' ↦ ?_, fun other pending hcall read hread ↦ ?_, fun other read hcall ↦ ?_⟩
  · dsimp only
    rw [hrows, map_issue_revokeRows]
    refine h.chained.close fun chain hchain ↦ ?_
    obtain ⟨row, hrow, rfl⟩ := hissued chain hchain
    exact h.chain_mem_issued hrow
  · dsimp only at hrow' ⊢
    rw [hrows] at hrow'
    obtain ⟨row, hrow, hbecomes, hrevoked⟩ := exists_of_mem_revokeRows hrow'
    rw [hrevoked, hbecomes.id_eq, hbecomes.tokenHash_eq, mem_append]
    constructor
    · rintro (hid | hbefore)
      · exact .inr (.inl (hends row hrow hid))
      · exact ((h.revoked_iff row hrow).mp hbefore).imp_right .inr
    · rintro (hused | hchain | hclosed)
      · exact .inr ((h.revoked_iff row hrow).mpr (.inl hused))
      · cases hopen : row.isRevoked with
        | true => exact .inr rfl
        | false => exact .inl (hall row hrow hchain hopen)
      · exact .inr ((h.revoked_iff row hrow).mpr (.inr hclosed))
  · obtain ⟨later, hlater, hreadBecomes⟩ := h.read other pending (calls_of_ends hcall) read hread
    obtain ⟨last, hlast, hlastBecomes, -⟩ := exists_mem_revokeRows ids hlater
    refine ⟨last, ?_, hreadBecomes.trans hlastBecomes⟩
    dsimp only
    rw [hrows]
    exact hlast
  · exact h.open_refresh other read (calls_of_ends hcall)

/-! ### Events -/

/-- The revocation of a session that a call has read. -/
theorem Accounted.refreshSessions_revoke (h : Accounted s) (hrow : row ∈ s.db.refreshSessions)
    (hbecomes : session.Becomes row) :
    (revokeRefreshSession s.db session).refreshSessions = revokeRows [session.id] s.db.refreshSessions := by
  refine refreshSessions_revokeRefreshSession fun hrevoked other hother hid ↦ ?_
  rw [h.eq_of_id hother hrow (hid.trans hbecomes.id_eq.symm)]
  exact hbecomes.revoked hrevoked

theorem Accounted.logoutCommits (h : Accounted s) (call : ℕ) (hcall : s.calls call = some (.logout session))
    (hcondition : session.tokenHash ∉ s.refreshed ∨ s.chainOf session.id ∈ s.closed) :
    Accounted { s.ends call with
      db := revokeRefreshSession s.db session
      closed := s.chainOf session.id :: s.closed } := by
  obtain ⟨later, hlater, hbecomes⟩ := h.read call _ hcall session (mem_singleton_self session)
  have hrows := h.refreshSessions_revoke hlater hbecomes
  refine h.closes call hrows (fun chain (hchain : chain ∈ [s.chainOf session.id]) ↦ ?_)
    (fun row hrow hid ↦ ?_) fun row hrow hchain hopen ↦ ?_
  · rw [mem_singleton.mp hchain]
    exact ⟨later, hlater, congrArg s.chainOf hbecomes.id_eq⟩
  · rw [mem_singleton.mp hid]
    exact mem_singleton_self _
  · have hsame : s.chainOf row.id = s.chainOf session.id := mem_singleton.mp hchain
    obtain ⟨hunused, hgoesOn⟩ := h.of_open hrow hopen
    rcases hcondition with hfirst | hclosed
    · -- both are the session of the chain that is still to be refreshed
      have hlaterUnused : later.tokenHash ∉ s.refreshed := hbecomes.tokenHash_eq ▸ hfirst
      have hissue : row.issue = later.issue :=
        h.chained.eq_of_unused (List.mem_map_of_mem hrow) (List.mem_map_of_mem hlater)
          (hsame.trans (congrArg s.chainOf hbecomes.id_eq).symm) hunused hlaterUnused
      have hid : row.issue.id = later.issue.id := congrArg RefreshSession.id hissue
      exact mem_singleton.mpr (Eq.trans hid hbecomes.id_eq)
    · rw [← hsame] at hclosed
      exact (hgoesOn hclosed).elim

theorem mem_chainsOf {chain : ℕ} :
    chain ∈ s.chainsOf userId ↔ ∃ row ∈ s.db.refreshSessions, row.userId = userId ∧ s.chainOf row.id = chain := by
  unfold SessionSystem.chainsOf
  rw [List.mem_map]
  constructor
  · rintro ⟨row, hrow, rfl⟩
    obtain ⟨hrow, huser⟩ := mem_filter.mp hrow
    exact ⟨row, hrow, of_decide_eq_true huser, rfl⟩
  · rintro ⟨row, hrow, huser, rfl⟩
    exact ⟨row, mem_filter.mpr ⟨hrow, decide_eq_true huser⟩, rfl⟩

theorem Accounted.userId_eq_of_chain (h : Accounted s) (hrow : row ∈ s.db.refreshSessions)
    (hrow' : row' ∈ s.db.refreshSessions) (hchain : s.chainOf row.id = s.chainOf row'.id) :
    row.userId = row'.userId :=
  h.chained.one_user row.issue (List.mem_map_of_mem hrow) row'.issue (List.mem_map_of_mem hrow') hchain

/-- A row that the reset has listed. -/
theorem mem_map_listActiveSessions {id : ℕ} :
    id ∈ (listActiveSessions seen userId now).map RefreshSession.id ↔
      ∃ read ∈ seen, read.id = id ∧ read.userId = userId ∧ read.isRevoked = false ∧ now < read.expiresAt := by
  unfold listActiveSessions
  rw [List.mem_map]
  constructor
  · rintro ⟨read, hread, rfl⟩
    obtain ⟨hread, hactive⟩ := mem_filter.mp hread
    exact ⟨read, hread, rfl, of_decide_eq_true hactive⟩
  · rintro ⟨read, hread, rfl, hactive⟩
    exact ⟨read, mem_filter.mpr ⟨hread, decide_eq_true hactive⟩, rfl⟩

/-- A reset that has listed all open sessions of its user ends their chains. -/
theorem Accounted.resetCommits (h : Accounted s) (call : ℕ)
    (hcall : s.calls call = some (.resetPassword userId now seen))
    (hcondition : ∀ row ∈ s.db.refreshSessions, row.userId = userId → row.isRevoked = false →
      row.id ∈ seen.map RefreshSession.id ∧ now < row.expiresAt) :
    Accounted { s.ends call with
      db := resetWrites s.db seen userId now
      closed := s.chainsOf userId ++ s.closed } := by
  -- a row that was seen is a row of the table
  have hseen : ∀ read ∈ seen, ∀ row ∈ s.db.refreshSessions, read.id = row.id → read.Becomes row := by
    intro read hread row hrow hid
    obtain ⟨later, hlater, hbecomes⟩ := h.read call _ hcall read hread
    rw [h.eq_of_id hrow hlater (hid.symm.trans hbecomes.id_eq.symm)]
    exact hbecomes
  refine h.closes call (refreshSessions_resetWrites s.db seen userId now) (fun chain hchain ↦ ?_)
    (fun row hrow hid ↦ ?_) fun row hrow hchain hopen ↦ ?_
  · obtain ⟨row, hrow, -, hrowChain⟩ := mem_chainsOf.mp hchain
    exact ⟨row, hrow, hrowChain⟩
  · obtain ⟨read, hread, hid, huser, -⟩ := mem_map_listActiveSessions.mp hid
    exact mem_chainsOf.mpr ⟨row, hrow, (hseen read hread row hrow hid).userId_eq.trans huser, rfl⟩
  · obtain ⟨other, hother, huser, hsame⟩ := mem_chainsOf.mp hchain
    have hrowUser : row.userId = userId := (h.userId_eq_of_chain hrow hother hsame.symm).trans huser
    obtain ⟨hid, hlives⟩ := hcondition row hrow hrowUser hopen
    obtain ⟨read, hread, hid⟩ := List.mem_map.mp hid
    have hbecomes := hseen read hread row hrow hid
    refine mem_map_listActiveSessions.mpr ⟨read, hread, hid, ?_, ?_, ?_⟩
    · exact hbecomes.userId_eq.symm.trans hrowUser
    · refine Bool.eq_false_iff.mpr fun hrevoked ↦ ?_
      exact Bool.false_ne_true (hopen.symm.trans (hbecomes.revoked hrevoked))
    · rw [← hbecomes.expiresAt_eq]
      exact hlives

theorem refreshWrites_eq_some_iff {newId : ℕ} {newRaw : String} (hopen : session.isRevoked = false) :
    refreshWrites env db session newId newRaw now = some db' ↔
      Fresh db newId (env.hashRefreshToken newRaw) ∧
        { db with
          refreshSessions := revokeRows [session.id] db.refreshSessions ++
            [{ id := newId
               userId := session.userId
               tokenHash := env.hashRefreshToken newRaw
               expiresAt := now + env.refreshTokenExpire }] } = db' := by
  have hrevoke : revokeRefreshSession db session =
      { db with refreshSessions := revokeRows [session.id] db.refreshSessions } := by
    unfold revokeRefreshSession
    rw [if_neg (Bool.eq_false_iff.mp hopen)]
  have hfresh : Fresh { db with refreshSessions := revokeRows [session.id] db.refreshSessions } newId
      (env.hashRefreshToken newRaw) ↔ Fresh db newId (env.hashRefreshToken newRaw) := by
    constructor
    · intro h row hrow
      obtain ⟨row', hrow', hbecomes, -⟩ := exists_mem_revokeRows [session.id] hrow
      rw [← hbecomes.id_eq, ← hbecomes.tokenHash_eq]
      exact h row' hrow'
    · intro h row' hrow'
      obtain ⟨row, hrow, hbecomes, -⟩ := exists_of_mem_revokeRows hrow'
      rw [hbecomes.id_eq, hbecomes.tokenHash_eq]
      exact h row hrow
  unfold refreshWrites
  rw [hrevoke, createRefreshSession_eq_some_iff]
  exact and_congr_left fun _ ↦ hfresh

/-- An event that nothing disturbs keeps the invariant. -/
theorem Accounted.step (h : Accounted s) (event : SessionEvent) (hcondition : Undisturbed env s event) :
    Accounted (s.step env event) := by
  cases event with
  | signsIn userId newId newRaw now =>
    unfold SessionSystem.step
    dsimp only
    split
    case h_1 db' hdb =>
      obtain ⟨hfresh, rfl⟩ := createRefreshSession_eq_some_iff.mp hdb
      exact h.signsIn hfresh rfl
    case h_2 => exact h
  | refreshReads call raw now =>
    unfold SessionSystem.step
    dsimp only
    split
    case h_1 session hread =>
      obtain ⟨hmem, hopen⟩ := mem_of_refreshReads hread
      refine h.opens call (fun row hrow ↦ ?_) fun other hother ↦ ?_
      · rw [mem_singleton.mp hrow]
        exact hmem
      · cases hother
        exact hopen
    case h_2 => exact h.ends call
  | refreshCommits call newId newRaw now =>
    unfold SessionSystem.step
    dsimp only
    split
    case h_1 session hcall =>
      split
      case h_1 db' hdb =>
        obtain ⟨hfresh, rfl⟩ := (refreshWrites_eq_some_iff (h.open_refresh call session hcall)).mp hdb
        obtain ⟨later, hlater, hbecomes⟩ := h.read call _ hcall session (mem_singleton_self session)
        refine h.refreshCommits call (unissued_of_fresh hfresh) rfl rfl hlater hbecomes ?_
        exact hcondition session hcall hfresh later hlater hbecomes.id_eq
      case h_2 => exact h.ends call
    case h_2 => exact h
  | logoutReads call raw =>
    unfold SessionSystem.step
    dsimp only
    split
    case h_1 session hread =>
      refine h.opens call (fun row hrow ↦ ?_) fun other hother ↦ ?_
      · rw [mem_singleton.mp hrow]
        have hmem : session ∈ s.db.refreshSessions.filter fun row ↦ row.tokenHash = env.hashRefreshToken raw := by
          rw [scalarOneOrNone_eq_some_iff.mp hread]
          exact mem_singleton_self session
        exact (mem_filter.mp hmem).1
      · cases hother
    case h_2 => exact h.ends call
  | logoutCommits call =>
    unfold SessionSystem.step
    dsimp only
    split
    case h_1 session hcall => exact h.logoutCommits call hcall (hcondition session hcall)
    case h_2 => exact h
  | resetReads call userId now =>
    unfold SessionSystem.step
    dsimp only
    split
    case h_1 user hread =>
      refine h.opens call (fun row hrow ↦ hrow) fun other hother ↦ ?_
      cases hother
    case h_2 => exact h.ends call
  | resetCommits call =>
    unfold SessionSystem.step
    dsimp only
    split
    case h_1 userId now seen hcall => exact h.resetCommits call hcall (hcondition userId now seen hcall)
    case h_2 => exact h
  | rollsBack call => exact h.ends call

/-- A refresh of a session that has been closed since: its token has been refreshed already, or the successor
it issues stays open in a chain that has ended. -/
theorem Accounted.open_of_refreshCommits (h : Accounted s) {newId : ℕ} {newRaw : String}
    (hcall : s.calls call = some (.refresh session)) (hfresh : Fresh s.db newId (env.hashRefreshToken newRaw))
    (hsound : TokensSound (s.step env (.refreshCommits call newId newRaw now))) (hrow : row ∈ s.db.refreshSessions)
    (hid : row.id = session.id) : row.isRevoked = false := by
  obtain ⟨later, hlater, hbecomes⟩ := h.read call _ hcall session (mem_singleton_self session)
  obtain rfl : row = later := h.eq_of_id hrow hlater (hid.trans hbecomes.id_eq.symm)
  have hwrites := (@refreshWrites_eq_some_iff _ _ _ _ now _ _ (h.open_refresh call session hcall)).mpr ⟨hfresh, rfl⟩
  unfold SessionSystem.step at hsound
  dsimp only at hsound
  rw [hcall] at hsound
  dsimp only at hsound
  rw [hwrites] at hsound
  dsimp only at hsound
  refine Bool.eq_false_iff.mpr fun hrevoked ↦ ?_
  rcases (h.revoked_iff row hrow).mp hrevoked with hused | hclosed
  · rw [hbecomes.tokenHash_eq] at hused
    exact (nodup_cons.mp hsound.singleUse).1 hused
  · have hnew := hsound.final _ (mem_append_right _ (mem_singleton_self _))
    dsimp only at hnew
    rw [update_self, ← hid] at hnew
    exact Bool.false_ne_true (hnew hclosed)

theorem Accounted.of_logoutCommits (h : Accounted s) (hcall : s.calls call = some (.logout session))
    (hsound : TokensSound (s.step env (.logoutCommits call))) :
    session.tokenHash ∉ s.refreshed ∨ s.chainOf session.id ∈ s.closed := by
  obtain ⟨later, hlater, hbecomes⟩ := h.read call _ hcall session (mem_singleton_self session)
  have hrows := h.refreshSessions_revoke hlater hbecomes
  unfold SessionSystem.step at hsound
  dsimp only at hsound
  rw [hcall] at hsound
  dsimp only at hsound
  refine or_iff_not_imp_left.mpr fun hused ↦ ?_
  rw [not_not] at hused
  -- the session of the chain that is still to be refreshed
  obtain ⟨issue, hissue, hchain, hunused⟩ := h.chained.oneTip.exists_tip later.issue (List.mem_map_of_mem hlater)
  obtain ⟨tip, htip, rfl⟩ := List.mem_map.mp hissue
  have htipChain : s.chainOf tip.id = s.chainOf session.id :=
    Eq.trans hchain (congrArg s.chainOf hbecomes.id_eq)
  obtain ⟨row, hrow, htipBecomes, hrevoked⟩ := exists_mem_revokeRows [session.id] htip
  have hclosed : s.chainOf row.id ∈ s.chainOf session.id :: s.closed := by
    rw [htipBecomes.id_eq, htipChain]
    exact mem_cons_self
  have hrowRevoked := hsound.final row (hrows ▸ hrow) hclosed
  rcases hrevoked.mp hrowRevoked with hid | hbefore
  · rw [mem_singleton] at hid
    have hself : tip = later := h.eq_of_id htip hlater (hid.trans hbecomes.id_eq.symm)
    refine (hunused ?_).elim
    rw [hself]
    exact hbecomes.tokenHash_eq ▸ hused
  · rcases (h.revoked_iff tip htip).mp hbefore with htipUsed | htipClosed
    · exact (hunused htipUsed).elim
    · exact htipChain ▸ htipClosed

theorem Accounted.of_resetCommits (h : Accounted s) (hcall : s.calls call = some (.resetPassword userId now seen))
    (hsound : TokensSound (s.step env (.resetCommits call))) (hrow : row ∈ s.db.refreshSessions)
    (huser : row.userId = userId) (hopen : row.isRevoked = false) :
    row.id ∈ seen.map RefreshSession.id ∧ now < row.expiresAt := by
  unfold SessionSystem.step at hsound
  dsimp only at hsound
  rw [hcall] at hsound
  dsimp only at hsound
  obtain ⟨row', hrow', hbecomes, hrevoked⟩ :=
    exists_mem_revokeRows ((listActiveSessions seen userId now).map RefreshSession.id) hrow
  rw [← refreshSessions_resetWrites] at hrow'
  have hclosed : s.chainOf row'.id ∈ s.chainsOf userId ++ s.closed := by
    refine mem_append_left _ (mem_chainsOf.mpr ⟨row, hrow, huser, ?_⟩)
    rw [hbecomes.id_eq]
  rcases hrevoked.mp (hsound.final row' hrow' hclosed) with hlisted | hbefore
  · obtain ⟨read, hread, hid, -, -, hlives⟩ := mem_map_listActiveSessions.mp hlisted
    obtain ⟨later, hlater, hreadBecomes⟩ := h.read call _ hcall read hread
    have hself : row = later := h.eq_of_id hrow hlater (hid.symm.trans hreadBecomes.id_eq.symm)
    refine ⟨List.mem_map.mpr ⟨read, hread, hid⟩, ?_⟩
    rw [hself, hreadBecomes.expiresAt_eq]
    exact hlives
  · exact (Bool.false_ne_true (hopen.symm.trans hbefore)).elim

theorem Accounted.undisturbed (h : Accounted s) (event : SessionEvent) (hsound : TokensSound (s.step env event)) :
    Undisturbed env s event := by
  cases event with
  | refreshCommits call newId newRaw now =>
    exact fun session hcall hfresh row hrow hid ↦ h.open_of_refreshCommits hcall hfresh hsound hrow hid
  | logoutCommits call => exact fun session hcall ↦ h.of_logoutCommits hcall hsound
  | resetCommits call =>
    exact fun userId now seen hcall row hrow huser hopen ↦ h.of_resetCommits hcall hsound hrow huser hopen
  | signsIn userId newId newRaw now => trivial
  | refreshReads call raw now => trivial
  | logoutReads call raw => trivial
  | resetReads call userId now => trivial
  | rollsBack call => trivial

/-! ### Runs -/

/-- In a run from an empty table, no token is refreshed twice and a reset or logout is final in every state
reached, exactly when every commit finds what it needs undisturbed. -/
theorem refresh_tokens_sound_iff (env : SessionEnv) (users : List User) (events : List SessionEvent) :
    (∀ before after, events = before ++ after →
        TokensSound (play (SessionSystem.step env) before (.start users))) ↔
      Along (SessionSystem.step env) (Undisturbed env) events (.start users) := by
  rw [← along_apply_iff events (accounted_start users).sound]
  refine along_congr (fun s event (hs : Accounted s) hsound ↦ ?_) (fun s event hs ↦ ?_) events
    (accounted_start users)
  · exact hs.step event (hs.undisturbed event hsound)
  · exact ⟨hs.undisturbed event, fun hcondition ↦ (hs.step event hcondition).sound⟩

def plainTokens : SessionEnv where
  hashRefreshToken := fun raw ↦ raw
  refreshTokenExpire := 100

/-- Two refreshes of one token that both read it before either commits. -/
def twoRefreshes : List SessionEvent :=
  [.signsIn 1 1 "first" 0, .refreshReads 1 "first" 1, .refreshReads 2 "first" 1, .refreshCommits 1 2 "second" 2,
    .refreshCommits 2 3 "third" 2]

def refreshDuringReset : List SessionEvent :=
  [.signsIn 1 1 "first" 0, .refreshReads 1 "first" 1, .resetReads 2 1 1, .resetCommits 2,
    .refreshCommits 1 2 "second" 2]

/-- One token is refreshed twice, and a session outlives a reset. -/
theorem refresh_races : ¬ TokensSound (play (SessionSystem.step plainTokens) twoRefreshes (.start [{ id := 1 }])) ∧
    ¬ TokensSound (play (SessionSystem.step plainTokens) refreshDuringReset (.start [{ id := 1 }])) := by
  constructor
  · intro hsound
    exact absurd hsound.singleUse (by decide +kernel)
  · intro hsound
    have hlast := hsound.final { id := 2, userId := 1, tokenHash := "second", expiresAt := 102 }
    exact absurd (hlast (by decide +kernel) (by decide +kernel)) (by decide)

end ContentGenerator.IdentityAccess

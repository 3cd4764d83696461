import ContentGenerator.Publishing.AccountLineage

/-!
# What a consolidation plan does

A row points at the social account it keeps, at the one that names it, or at the one with its external id. The
plan lets a row have the account it points at unless the row is named by an account that an earlier row has
taken (`Refused`), or has no account and its name is taken (`NameTaken`); these rows are quarantined
(`actions_planRows`). The plan leaves every row quarantined or linked to an account of its own, within its
tenant and platform, exactly when the accounts are `Separable` (`consolidated_iff`).
-/

namespace ContentGenerator.Publishing

open Lib List Option

variable {action : ConsolidationAction}

/-- The rows that a plan is made for. Their ids are primary keys. -/
structure LegacyAccounts where
  connected : List ConnectedSnapshot
  social : List SocialSnapshot
  jobs : List JobSnapshot := []
  nodupConnected : (connected.map ConnectedSnapshot.id).Nodup
  nodupSocial : (social.map SocialSnapshot.id).Nodup

/-! ### What a plan does -/

/-- A social account after a plan: one there was, or the one created for a connected row. -/
inductive PlannedAccount
  | existing (socialId : Uuid)
  | created (connectedId : Uuid)
  deriving DecidableEq

def relink (row : ConnectedSnapshot) (link : Option PlannedAccount) (action : ConsolidationAction) :
    Option PlannedAccount :=
  if action.connectedId = some row.id then
    match action.kind with
    | .linkConnectedToSocial => action.socialId.map .existing
    | .createSocialFromConnected => some (.created row.id)
    | _ => link
  else link

def linkAfter (actions : List ConsolidationAction) (row : ConnectedSnapshot) : Option PlannedAccount :=
  actions.foldl (relink row) (row.socialAccountId.map .existing)

def quarantines (actions : List ConsolidationAction) (row : ConnectedSnapshot) : ℕ :=
  actions.countP fun action ↦ action.kind = .quarantineConnected ∧ action.connectedId = some row.id

/-- The row is linked to a live social account of its tenant and platform: one there was, or a created one. -/
def LinkedAfter (social : List SocialSnapshot) (actions : List ConsolidationAction) (row : ConnectedSnapshot) :
    Prop :=
  (∃ s ∈ liveSocial social, linkAfter actions row = some (.existing s.id) ∧
    s.tenantId = row.tenantId ∧ s.platform = row.platform) ∨
  ∃ action ∈ actions, action.kind = .createSocialFromConnected ∧
    (∃ connectedId, action.connectedId = some connectedId ∧ linkAfter actions row = some (.created connectedId)) ∧
    action.tenantId = row.tenantId ∧ action.platform = row.platform

namespace LegacyAccounts

variable {lower : String → String} {t : LegacyAccounts} {row other : ConnectedSnapshot} {s s' : SocialSnapshot}

/-! ### The order of the rows -/

def order (t : LegacyAccounts) : List ConnectedSnapshot := (planGroups t.connected).flatMap Prod.snd

def before (t : LegacyAccounts) (row : ConnectedSnapshot) : List ConnectedSnapshot :=
  t.order.takeWhile fun other ↦ other ≠ row

theorem grouped_planGroups (connected : List ConnectedSnapshot) :
    Grouped ConnectedSnapshot.group (planGroups connected) :=
  ((grouped_groupsOf _ _).perm (mergeSort_perm _ _).symm).mapValues fun rows ↦ mergeSort_perm rows _

/-- Every live row is in the order, once. -/
theorem perm_order (t : LegacyAccounts) : t.order.Perm (liveConnected t.connected) :=
  (perm_flatMap_mapValues _ fun rows ↦ mergeSort_perm rows _).trans
    (((mergeSort_perm _ _).flatMap_right _).trans (perm_groupsOf _ _))

theorem mem_order : row ∈ t.order ↔ row ∈ liveConnected t.connected := t.perm_order.mem_iff

theorem nodup_ids (t : LegacyAccounts) : (t.order.map ConnectedSnapshot.id).Nodup :=
  (t.perm_order.map _).nodup_iff.mpr (t.nodupConnected.sublist (filter_sublist.map _))

theorem eq_of_id (hrow : row ∈ t.order) (hother : other ∈ t.order) (h : row.id = other.id) : row = other :=
  inj_on_of_nodup_map t.nodup_ids hrow hother h

theorem before_eq {done rest : List ConnectedSnapshot} (h : t.order = done ++ row :: rest) : t.before row = done := by
  have hnodup : t.order.Nodup := t.nodup_ids.of_map _
  rw [h] at hnodup
  have hdone : ∀ other ∈ done, other ≠ row := by
    rintro other hother rfl
    exact disjoint_of_nodup_append hnodup hother mem_cons_self
  rw [before, h, takeWhile_append_of_pos fun other hother ↦ decide_eq_true (hdone other hother),
    takeWhile_cons_of_neg (by simp), append_nil]

theorem mem_before_or {a b : ConnectedSnapshot} (ha : a ∈ t.order) (hb : b ∈ t.order) (hne : a ≠ b) :
    a ∈ t.before b ∨ b ∈ t.before a := by
  obtain ⟨done, rest, hsplit⟩ := append_of_mem hb
  rw [hsplit, mem_append, mem_cons, or_iff_right hne] at ha
  rcases ha with ha | ha
  · rw [before_eq hsplit]
    exact .inl ha
  · obtain ⟨middle, rest', rfl⟩ := append_of_mem ha
    have hlater : t.order = (done ++ b :: middle) ++ a :: rest' := by rw [hsplit]; simp
    rw [before_eq hlater]
    exact .inr (mem_append_right _ mem_cons_self)

theorem mem_order_of_mem_before (h : other ∈ t.before row) : other ∈ t.order :=
  (takeWhile_sublist _).subset h

theorem ne_of_mem_before (h : other ∈ t.before row) : other ≠ row := by
  simpa using mem_takeWhile_imp h

/-! ### What a row points at -/

def keeps (t : LegacyAccounts) (row : ConnectedSnapshot) : Option SocialSnapshot :=
  row.socialAccountId.bind (socialById t.social)

def legacy (t : LegacyAccounts) (row : ConnectedSnapshot) : Option SocialSnapshot :=
  if t.keeps row = none then socialByLegacyConnected t.social row.id else none

/-- The account with the external id of a row that has none otherwise. -/
def external (t : LegacyAccounts) (row : ConnectedSnapshot) : Option SocialSnapshot :=
  if linkedSocial t.social row = none then
    socialByExternal t.social row.tenantId row.platform (mintLegacyExternalId (.inl row.id))
  else none

def PointsTo (t : LegacyAccounts) (row : ConnectedSnapshot) (s : SocialSnapshot) : Prop :=
  t.keeps row = some s ∨ t.legacy row = some s ∨ t.external row = some s

/-- Two rows of one tenant and platform have one name. -/
def SameName (lower : String → String) (a b : ConnectedSnapshot) : Prop :=
  a.group = b.group ∧ lower (pyStrip a.accountName) = lower (pyStrip b.accountName)

/-- The account that names the row has gone to an earlier row. A row that points at its account by the external
id has it only if its name is free: every earlier row of its name is refused. -/
inductive Refused (lower : String → String) (t : LegacyAccounts) : ConnectedSnapshot → Prop
  | intro {row other : ConnectedSnapshot} {s : SocialSnapshot} (hlegacy : t.legacy row = some s)
      (hbefore : other ∈ t.before row) (hpoints : t.PointsTo other s)
      (hfree : t.external other = some s → ∀ third ∈ t.before other,
        SameName lower third other → Refused lower t third) :
      Refused lower t row

/-- The row points at the account, and its name is free if it needs it. -/
def Takes (lower : String → String) (t : LegacyAccounts) (row : ConnectedSnapshot) (s : SocialSnapshot) : Prop :=
  t.PointsTo row s ∧
    (t.external row = some s → ∀ third ∈ t.before row, SameName lower third row → t.Refused lower third)

def NameTaken (lower : String → String) (t : LegacyAccounts) (row : ConnectedSnapshot) : Prop :=
  linkedSocial t.social row = none ∧ ∃ other ∈ t.before row, SameName lower other row ∧ ¬ t.Refused lower other

theorem refused_iff :
    t.Refused lower row ↔ ∃ s, t.legacy row = some s ∧ ∃ other ∈ t.before row, t.Takes lower other s :=
  ⟨fun ⟨hlegacy, hbefore, hpoints, hfree⟩ ↦ ⟨_, hlegacy, _, hbefore, hpoints, hfree⟩,
    fun ⟨_, hlegacy, _, hbefore, hpoints, hfree⟩ ↦ .intro hlegacy hbefore hpoints hfree⟩

theorem linkedSocial_eq : linkedSocial t.social row = (t.keeps row).or (t.legacy row) := by
  unfold linkedSocial legacy
  change (t.keeps row).or _ = _
  cases t.keeps row with
  | none => rw [if_pos rfl]
  | some s => rfl

theorem mem_liveSocial_of_keeps (h : t.keeps row = some s) :
    s ∈ liveSocial t.social ∧ row.socialAccountId = some s.id := by
  obtain ⟨id, hid, hfind⟩ := bind_eq_some_iff.mp h
  have hsame : s.id = id := by simpa using find?_some hfind
  exact ⟨mem_reverse.mp (mem_of_find?_eq_some hfind), by rw [hid, hsame]⟩

theorem mem_liveSocial_of_legacy (h : t.legacy row = some s) :
    s ∈ liveSocial t.social ∧ row.socialAccountId ≠ some s.id := by
  unfold legacy at h
  by_cases hkeeps : t.keeps row = none
  · rw [if_pos hkeeps] at h
    have hmem : s ∈ liveSocial t.social := mem_reverse.mp (mem_of_find?_eq_some h)
    refine ⟨hmem, fun hid ↦ ?_⟩
    -- the row would have the account
    rw [keeps, hid, bind_some, socialById, find?_eq_none] at hkeeps
    exact hkeeps s (mem_reverse.mpr hmem) (decide_eq_true rfl)
  · rw [if_neg hkeeps] at h
    exact absurd h nofun

theorem mem_liveSocial_of_external (h : t.external row = some s) :
    s ∈ liveSocial t.social ∧ s.tenantId = row.tenantId ∧ s.platform = row.platform := by
  unfold external at h
  by_cases hlinked : linkedSocial t.social row = none
  · rw [if_pos hlinked] at h
    have hfound := find?_some h
    rw [decide_eq_true_eq] at hfound
    exact ⟨mem_reverse.mp (mem_of_find?_eq_some h), hfound.2.1, hfound.2.2.1⟩
  · rw [if_neg hlinked] at h
    exact absurd h nofun

theorem legacy_of_keeps (h : t.keeps row = some s) : t.legacy row = none := by
  rw [legacy, if_neg (h ▸ some_ne_none s)]

theorem external_of_linked (h : linkedSocial t.social row ≠ none) : t.external row = none := if_neg h

theorem PointsTo.mem (h : t.PointsTo row s) : s ∈ liveSocial t.social := by
  rcases h with h | h | h
  · exact (mem_liveSocial_of_keeps h).1
  · exact (mem_liveSocial_of_legacy h).1
  · exact (mem_liveSocial_of_external h).1

theorem social_eq_of_id (hs : s ∈ liveSocial t.social) (hs' : s' ∈ liveSocial t.social) (h : s.id = s'.id) :
    s = s' :=
  inj_on_of_nodup_map t.nodupSocial (mem_filter.mp hs).1 (mem_filter.mp hs').1 h

/-- A row points at one account. -/
theorem PointsTo.eq (h : t.PointsTo row s) (h' : t.PointsTo row s') : s = s' := by
  have hkeeps : ∀ {a}, t.keeps row = some a → t.legacy row = none ∧ t.external row = none := fun ha ↦
    ⟨legacy_of_keeps ha, external_of_linked (by rw [linkedSocial_eq, ha]; exact some_ne_none _)⟩
  have hlegacy : ∀ {a}, t.legacy row = some a → t.external row = none := fun ha ↦
    external_of_linked (by rw [linkedSocial_eq, ha]; cases t.keeps row <;> exact some_ne_none _)
  rcases h with h | h | h <;> rcases h' with h' | h' | h'
  · exact mem_unique h h'
  · exact absurd ((hkeeps h).1.symm.trans h') nofun
  · exact absurd ((hkeeps h).2.symm.trans h') nofun
  · exact absurd ((hkeeps h').1.symm.trans h) nofun
  · exact mem_unique h h'
  · exact absurd ((hlegacy h).symm.trans h') nofun
  · exact absurd ((hkeeps h').2.symm.trans h) nofun
  · exact absurd ((hlegacy h').symm.trans h) nofun
  · exact mem_unique h h'

/-! ### What the plan says of a row -/

def Quarantined (lower : String → String) (t : LegacyAccounts) (row : ConnectedSnapshot) : Prop :=
  t.Refused lower row ∨ t.NameTaken lower row

open Classical in
noncomputable def rowActions (lower : String → String) (t : LegacyAccounts) (row : ConnectedSnapshot) :
    List ConsolidationAction :=
  if t.Refused lower row then
    [{ kind := .quarantineConnected, tenantId := row.tenantId, platform := row.platform
       connectedId := some row.id, socialId := (t.legacy row).map (·.id)
       reason := some "social_already_claimed" }]
  else if t.NameTaken lower row then
    [{ kind := .quarantineConnected, tenantId := row.tenantId, platform := row.platform
       connectedId := some row.id, reason := some "duplicate_platform_account_name" }]
  else match t.keeps row, t.legacy row, t.external row with
    | some _, _, _ => []
    | none, some s, _ =>
      [{ kind := .linkConnectedToSocial, tenantId := row.tenantId, platform := row.platform
         connectedId := some row.id, socialId := some s.id, reason := some "legacy_connected_match" }]
    | none, none, some s =>
      [{ kind := .linkConnectedToSocial, tenantId := row.tenantId, platform := row.platform
         connectedId := some row.id, socialId := some s.id
         externalId := some (mintLegacyExternalId (.inl row.id)), reason := some "external_id_match" }]
    | none, none, none =>
      [{ kind := .createSocialFromConnected, tenantId := row.tenantId, platform := row.platform
         connectedId := some row.id, externalId := some (mintLegacyExternalId (.inl row.id))
         reason := some "orphan_connected" }]

/-- What the loop has after some rows: the ids of the accounts they take, and their actions. -/
structure PlannedUpTo (lower : String → String) (t : LegacyAccounts) (done : List ConnectedSnapshot)
    (st : PlanState) : Prop where
  claimed : ∀ id, id ∈ st.claimedSocialIds ↔ ∃ row ∈ done, ∃ s, t.Takes lower row s ∧ s.id = id
  actions : st.actions = mintActions t.social ++ done.flatMap (t.rowActions lower)

def NamesSeen (lower : String → String) (t : LegacyAccounts) (group : Uuid × String)
    (done : List ConnectedSnapshot) (seen : List String) : Prop :=
  ∀ name, name ∈ seen ↔
    ∃ row ∈ done, row.group = group ∧ lower (pyStrip row.accountName) = name ∧ ¬ t.Refused lower row

variable {done rest : List ConnectedSnapshot} {st : PlanState} {seen : List String}

/-- An account is claimed when an earlier row takes it. -/
theorem PlannedUpTo.mem_claimed (h : t.PlannedUpTo lower done st) (hs : s ∈ liveSocial t.social) :
    s.id ∈ st.claimedSocialIds ↔ ∃ other ∈ done, t.Takes lower other s := by
  rw [h.claimed]
  refine exists_congr fun other ↦ and_congr_right fun _ ↦ ⟨?_, fun htakes ↦ ⟨s, htakes, rfl⟩⟩
  rintro ⟨s', htakes, hid⟩
  exact social_eq_of_id htakes.1.mem hs hid ▸ htakes

/-- A row that takes an account puts it among the claimed ones. -/
theorem claimed_append_of_takes (h : t.PlannedUpTo lower done st) (htakes : t.Takes lower row s) (id : Uuid) :
    id ∈ s.id :: st.claimedSocialIds ↔ ∃ other ∈ done ++ [row], ∃ s, t.Takes lower other s ∧ s.id = id := by
  rw [mem_cons, h.claimed]
  constructor
  · rintro (rfl | ⟨other, hother, hclaimed⟩)
    · exact ⟨row, mem_append_right _ (mem_singleton_self row), s, htakes, rfl⟩
    · exact ⟨other, mem_append_left _ hother, hclaimed⟩
  · rintro ⟨other, hother, s', htakes', rfl⟩
    rcases mem_append.mp hother with hother | hother
    · exact .inr ⟨other, hother, s', htakes', rfl⟩
    · rw [mem_singleton.mp hother] at htakes'
      exact .inl (congrArg _ (htakes'.1.eq htakes.1))

/-- A row that takes nothing new leaves them as they are. -/
theorem claimed_append_of_claimed (h : t.PlannedUpTo lower done st)
    (hold : ∀ s, t.Takes lower row s → ∃ other ∈ done, t.Takes lower other s) (id : Uuid) :
    id ∈ st.claimedSocialIds ↔ ∃ other ∈ done ++ [row], ∃ s, t.Takes lower other s ∧ s.id = id := by
  rw [h.claimed]
  constructor
  · rintro ⟨other, hother, hclaimed⟩
    exact ⟨other, mem_append_left _ hother, hclaimed⟩
  · rintro ⟨other, hother, s, htakes, rfl⟩
    rcases mem_append.mp hother with hother | hother
    · exact ⟨other, hother, s, htakes, rfl⟩
    · rw [mem_singleton.mp hother] at htakes
      obtain ⟨other, hother, htakes'⟩ := hold s htakes
      exact ⟨other, hother, s, htakes', rfl⟩

theorem actions_append (h : t.PlannedUpTo lower done st) :
    st.actions ++ t.rowActions lower row =
      mintActions t.social ++ (done ++ [row]).flatMap (t.rowActions lower) := by
  rw [h.actions, flatMap_append, flatMap_singleton, append_assoc]

theorem namesSeen_cons (h : t.NamesSeen lower row.group done seen) (hrow : ¬ t.Refused lower row) :
    t.NamesSeen lower row.group (done ++ [row]) (lower (pyStrip row.accountName) :: seen) := by
  intro name
  rw [mem_cons, h name]
  constructor
  · rintro (rfl | ⟨other, hother, hsame⟩)
    · exact ⟨row, mem_append_right _ (mem_singleton_self row), rfl, rfl, hrow⟩
    · exact ⟨other, mem_append_left _ hother, hsame⟩
  · rintro ⟨other, hother, hgroup, rfl, hother'⟩
    rcases mem_append.mp hother with hother | hother
    · exact .inr ⟨other, hother, hgroup, rfl, hother'⟩
    · exact .inl (by rw [mem_singleton.mp hother])

theorem namesSeen_append (h : t.NamesSeen lower row.group done seen)
    (hrow : ¬ t.Refused lower row → lower (pyStrip row.accountName) ∈ seen) :
    t.NamesSeen lower row.group (done ++ [row]) seen := by
  intro name
  refine ⟨fun hname ↦ ?_, ?_⟩
  · obtain ⟨other, hother, hsame⟩ := (h name).mp hname
    exact ⟨other, mem_append_left _ hother, hsame⟩
  · rintro ⟨other, hother, hgroup, rfl, hother'⟩
    rcases mem_append.mp hother with hother | hother
    · exact (h _).mpr ⟨other, hother, hgroup, rfl, hother'⟩
    · rw [mem_singleton.mp hother] at hother' ⊢
      exact hrow hother'

theorem not_refused_of_legacy_eq_none (h : t.legacy row = none) : ¬ t.Refused lower row := by
  rw [refused_iff]
  rintro ⟨s, hs, -⟩
  exact absurd (h.symm.trans hs) nofun

theorem linked_ne_none_of_legacy (h : t.legacy row = some s) : linkedSocial t.social row ≠ none := by
  rw [linkedSocial_eq, h]
  cases t.keeps row <;> exact some_ne_none _

/-- A row with an account has it whatever its name is. -/
theorem takes_of_linked (hpoints : t.PointsTo row s) (hlinked : linkedSocial t.social row ≠ none) :
    t.Takes lower row s :=
  ⟨hpoints, fun hexternal ↦ absurd ((external_of_linked hlinked).symm.trans hexternal) nofun⟩

theorem PlannedUpTo.planRow (h : t.PlannedUpTo lower done st) (horder : t.order = done ++ row :: rest)
    (hseen : t.NamesSeen lower row.group done seen) :
    t.PlannedUpTo lower (done ++ [row]) (planRow lower t.social row.group (st, seen) row).1 ∧
      t.NamesSeen lower row.group (done ++ [row]) (planRow lower t.social row.group (st, seen) row).2 := by
  have hbefore := before_eq horder
  cases hkeeps : t.keeps row with
  | some s =>
    have hlinked : linkedSocial t.social row = some s := by rw [linkedSocial_eq, hkeeps, some_or]
    have hid := (mem_liveSocial_of_keeps hkeeps).2
    have hrefused : ¬ t.Refused lower row := not_refused_of_legacy_eq_none (legacy_of_keeps hkeeps)
    have hne : linkedSocial t.social row ≠ none := hlinked ▸ some_ne_none s
    have hactions : t.rowActions lower row = [] := by
      rw [rowActions, if_neg hrefused, if_neg fun hname ↦ hne hname.1, hkeeps]
    simp only [Publishing.planRow, hlinked]
    rw [if_neg fun hclaimed ↦ hclaimed.2 hid, if_neg fun hother ↦ hother hid]
    refine ⟨⟨claimed_append_of_takes h (takes_of_linked (.inl hkeeps) hne), ?_⟩, namesSeen_cons hseen hrefused⟩
    rw [← actions_append h, hactions, append_nil]
    rfl
  | none =>
    cases hlegacy : t.legacy row with
    | some s =>
      have hlinked : linkedSocial t.social row = some s := by rw [linkedSocial_eq, hkeeps, hlegacy, none_or]
      obtain ⟨hlive, hid⟩ := mem_liveSocial_of_legacy hlegacy
      have hne := linked_ne_none_of_legacy hlegacy
      have hclaimed : s.id ∈ st.claimedSocialIds ↔ t.Refused lower row := by
        rw [h.mem_claimed hlive, refused_iff, hbefore]
        refine ⟨fun hother ↦ ⟨s, hlegacy, hother⟩, ?_⟩
        rintro ⟨s', hs', hother⟩
        exact mem_unique hlegacy hs' ▸ hother
      simp only [Publishing.planRow, hlinked]
      by_cases hrefused : t.Refused lower row
      · -- an earlier row has the account that names this one
        rw [if_pos ⟨hclaimed.mpr hrefused, hid⟩]
        have hold : ∀ s', t.Takes lower row s' → ∃ other ∈ done, t.Takes lower other s' := by
          intro s' htakes
          rw [htakes.1.eq (.inr (.inl hlegacy))]
          exact (h.mem_claimed hlive).mp (hclaimed.mpr hrefused)
        refine ⟨⟨(claimed_append_of_claimed h hold :), ?_⟩,
          namesSeen_append hseen fun hnot ↦ absurd hrefused hnot⟩
        rw [← actions_append h, rowActions, if_pos hrefused, hlegacy]
        rfl
      · rw [if_neg fun hboth ↦ hrefused (hclaimed.mp hboth.1), if_pos hid]
        refine ⟨⟨claimed_append_of_takes h (takes_of_linked (.inr (.inl hlegacy)) hne), ?_⟩,
          namesSeen_cons hseen hrefused⟩
        rw [← actions_append h, rowActions, if_neg hrefused, if_neg fun hname ↦ hne hname.1, hkeeps, hlegacy]
        rfl
    | none =>
      have hlinked : linkedSocial t.social row = none := by rw [linkedSocial_eq, hkeeps, hlegacy, none_or]
      have hrefused : ¬ t.Refused lower row := not_refused_of_legacy_eq_none hlegacy
      have hexternal : t.external row =
          socialByExternal t.social row.group.1 row.group.2 (mintLegacyExternalId (.inl row.id)) := if_pos hlinked
      have htaken : lower (pyStrip row.accountName) ∈ seen ↔ t.NameTaken lower row := by
        rw [hseen, NameTaken, hbefore, and_iff_right hlinked]
        exact exists_congr fun other ↦ and_congr_right fun _ ↦ and_assoc.symm
      -- the row points at an account only by its external id
      have hpoints : ∀ {s}, t.PointsTo row s → t.external row = some s := fun hs ↦
        (hs.resolve_left fun hs ↦ absurd (hkeeps.symm.trans hs) nofun).resolve_left fun hs ↦
          absurd (hlegacy.symm.trans hs) nofun
      simp only [Publishing.planRow, hlinked]
      by_cases hname : t.NameTaken lower row
      · rw [if_pos (htaken.mpr hname)]
        have hold : ∀ s, t.Takes lower row s → ∃ other ∈ done, t.Takes lower other s := by
          intro s htakes
          obtain ⟨-, other, hother, hsame, hnot⟩ := hname
          exact absurd (htakes.2 (hpoints htakes.1) other hother hsame) hnot
        refine ⟨⟨(claimed_append_of_claimed h hold :), ?_⟩, namesSeen_append hseen fun _ ↦ htaken.mpr hname⟩
        rw [← actions_append h, rowActions, if_neg hrefused, if_pos hname]
        rfl
      · rw [if_neg fun hmem ↦ hname (htaken.mp hmem), ← hexternal]
        cases hmatch : t.external row with
        | some s =>
          have htakes : t.Takes lower row s := by
            refine ⟨.inr (.inr hmatch), fun _ other hother hsame ↦ ?_⟩
            by_contra hnot
            exact hname ⟨hlinked, other, hother, hsame, hnot⟩
          refine ⟨⟨claimed_append_of_takes h htakes, ?_⟩, namesSeen_cons hseen hrefused⟩
          rw [← actions_append h, rowActions, if_neg hrefused, if_neg hname, hkeeps, hlegacy, hmatch]
          rfl
        | none =>
          have hold : ∀ s, t.Takes lower row s → ∃ other ∈ done, t.Takes lower other s := fun s htakes ↦
            absurd (hmatch.symm.trans (hpoints htakes.1)) nofun
          refine ⟨⟨(claimed_append_of_claimed h hold :), ?_⟩, namesSeen_cons hseen hrefused⟩
          rw [← actions_append h, rowActions, if_neg hrefused, if_neg hname, hkeeps, hlegacy, hmatch]
          rfl

/-- What the loop over the rows plans. -/
theorem actions_planRows (lower : String → String) (t : LegacyAccounts) :
    (planRows lower t.connected t.social).actions =
      mintActions t.social ++ t.order.flatMap (t.rowActions lower) := by
  refine ((grouped_planGroups t.connected).foldl_induction (Publishing.planRow lower t.social) []
    (t.PlannedUpTo lower) (fun group done st ↦ t.PlannedUpTo lower done st.1 ∧ t.NamesSeen lower group done st.2)
    ?_ ?_ (fun _ _ _ h ↦ h.1) ?_).actions
  · rintro group done st h hothers
    refine ⟨h, fun name ↦ iff_of_false not_mem_nil ?_⟩
    rintro ⟨row, hrow, hgroup, -⟩
    exact hothers row hrow hgroup
  · rintro _ done row rest ⟨st, seen⟩ horder rfl ⟨h, hseen⟩
    exact h.planRow horder hseen
  · refine ⟨fun id ↦ iff_of_false not_mem_nil ?_, (append_nil _).symm⟩
    rintro ⟨row, hrow, -⟩
    exact not_mem_nil hrow

/-! ### The actions of one row in the plan -/

def plan (lower : String → String) (t : LegacyAccounts) : List ConsolidationAction :=
  planConsolidation lower t.connected t.social t.jobs

theorem mem_rowActions (h : action ∈ t.rowActions lower row) :
    action.connectedId = some row.id ∧ action.kind ≠ .backfillJobSocialId := by
  unfold rowActions at h
  split_ifs at h
  · rw [mem_singleton.mp h]
    exact ⟨rfl, nofun⟩
  · rw [mem_singleton.mp h]
    exact ⟨rfl, nofun⟩
  · split at h
    · simp at h
    · rw [mem_singleton.mp h]
      exact ⟨rfl, nofun⟩
    · rw [mem_singleton.mp h]
      exact ⟨rfl, nofun⟩
    · rw [mem_singleton.mp h]
      exact ⟨rfl, nofun⟩

/-- An action that names a connected row and is not about a job is of a live row. -/
theorem mem_order_of_mem_planRows
    (h : action ∈ (planRows lower t.connected t.social).actions) :
    action.connectedId = none ∧ action.kind = .mintExternalId ∨
      ∃ row ∈ t.order, action ∈ t.rowActions lower row := by
  rw [actions_planRows, mem_append] at h
  rcases h with h | h
  · obtain ⟨s, -, rfl⟩ := List.mem_map.mp h
    exact .inl ⟨rfl, rfl⟩
  · exact .inr (mem_flatMap.mp h)

/-- The job is one that the plan gives the account of its connected row: it has none, and the row is live. -/
def Inherits (t : LegacyAccounts) (job : JobSnapshot) (row : ConnectedSnapshot) : Prop :=
  job.socialAccountId = none ∧ row ∈ t.order ∧ job.connectedAccountId = some row.id

/-- The actions backfill jobs, with the connected rows of which `inherited` speaks. -/
def Backfills (inherited : Uuid → Prop) (added : List ConsolidationAction) : Prop :=
  (∀ action ∈ added, action.kind = .backfillJobSocialId ∧ ∃ id, action.connectedId = some id) ∧
    ∀ id, (∃ action ∈ added, action.connectedId = some id) ↔ inherited id

/-- One job adds its action exactly when its connected row is live. -/
theorem planJob_eq {actions : List ConsolidationAction} (job : JobSnapshot)
    (hactions : ∀ action ∈ actions, action.kind = .createSocialFromConnected ∨
      action.kind = .linkConnectedToSocial → ∃ row ∈ t.order, action.connectedId = some row.id) :
    ∃ added, planJob t.connected actions job = actions ++ added ∧
      Backfills (fun id ↦ ∃ row, t.Inherits job row ∧ row.id = id) added := by
  have hempty : (∀ row, ¬ t.Inherits job row) → ∃ added, actions = actions ++ added ∧
      Backfills (fun id ↦ ∃ row, t.Inherits job row ∧ row.id = id) added := by
    intro hnot
    refine ⟨[], (append_nil _).symm, by simp, fun id ↦ iff_of_false ?_ ?_⟩
    · rintro ⟨action, haction, -⟩
      exact not_mem_nil haction
    · rintro ⟨row, hrow, -⟩
      exact hnot row hrow
  unfold planJob
  cases hsocial : job.socialAccountId with
  | some socialId => exact hempty fun row hrow ↦ absurd (hsocial.symm.trans hrow.1) nofun
  | none =>
    cases hconnected : job.connectedAccountId with
    | none => exact hempty fun row hrow ↦ absurd (hconnected.symm.trans hrow.2.2) nofun
    | some connectedId =>
      dsimp only
      cases hrow : (liveConnected t.connected).find? fun c ↦ c.id = connectedId with
      | some row =>
        have hid : row.id = connectedId := by simpa using find?_some hrow
        have hmem : row ∈ t.order := mem_order.mpr (mem_of_find?_eq_some hrow)
        have hone : ∀ socialId, ∃ added, actions ++ [backfillAction job socialId] = actions ++ added ∧
            Backfills (fun id ↦ ∃ row, t.Inherits job row ∧ row.id = id) added := by
          intro socialId
          refine ⟨_, rfl, fun action haction ↦ ?_, fun id ↦ ?_⟩
          · rw [mem_singleton.mp haction]
            exact ⟨rfl, connectedId, hconnected⟩
          · simp only [mem_singleton, exists_eq_left, backfillAction, hconnected, Option.some.injEq]
            constructor
            · rintro rfl
              exact ⟨row, ⟨hsocial, hmem, by rw [hconnected, hid]⟩, hid⟩
            · rintro ⟨other, ⟨-, -, hother⟩, rfl⟩
              exact mem_unique hconnected hother
        cases (Option.bind (some row) (·.socialAccountId)).or (plannedSocialId actions connectedId) with
        | none => exact hone none
        | some socialId => exact hone (some socialId)
      | none =>
        have hno : ∀ row ∈ t.order, row.id ≠ connectedId := by
          intro row hmem
          simpa using find?_eq_none.mp hrow row (mem_order.mp hmem)
        -- only live rows are linked or have an account created
        have hplanned : plannedSocialId actions connectedId = none := by
          unfold plannedSocialId
          rw [find?_eq_none.mpr, bind_none]
          intro action haction hmatch
          obtain ⟨hid, hkind⟩ := of_decide_eq_true hmatch
          obtain ⟨row, hmem, hrow⟩ := hactions action haction hkind
          exact hno row hmem (mem_unique hrow hid)
        rw [hplanned]
        refine hempty fun row ⟨_, hmem, hrow⟩ ↦ hno row hmem ?_
        exact mem_unique hrow hconnected

theorem plan_eq (lower : String → String) (t : LegacyAccounts) :
    ∃ added, t.plan lower = (planRows lower t.connected t.social).actions ++ added ∧
      Backfills (fun id ↦ ∃ job ∈ t.jobs, ∃ row, t.Inherits job row ∧ row.id = id) added := by
  have hrows : ∀ action ∈ (planRows lower t.connected t.social).actions,
      action.kind = .createSocialFromConnected ∨ action.kind = .linkConnectedToSocial →
        ∃ row ∈ t.order, action.connectedId = some row.id := by
    intro action haction hkind
    rcases mem_order_of_mem_planRows haction with ⟨-, hmint⟩ | ⟨row, hrow, hmem⟩
    · rw [hmint] at hkind
      exact absurd hkind (by decide)
    · exact ⟨row, hrow, (mem_rowActions hmem).1⟩
  unfold plan planConsolidation
  generalize (planRows lower t.connected t.social).actions = actions at hrows
  induction t.jobs generalizing actions with
  | nil => exact ⟨[], (append_nil _).symm, by simp, fun id ↦ by simp⟩
  | cons job rest ih =>
    obtain ⟨first, hfirst, hkind, hid⟩ := planJob_eq job hrows
    rw [foldl_cons, hfirst]
    obtain ⟨added, hadded, hkinds, hids⟩ := ih (actions ++ first) (by
      intro action haction hplanned
      rcases mem_append.mp haction with haction | haction
      · exact hrows action haction hplanned
      · rw [(hkind action haction).1] at hplanned
        exact absurd hplanned (by decide))
    refine ⟨first ++ added, by rw [hadded, append_assoc], ?_, fun id ↦ ?_⟩
    · intro action haction
      rcases mem_append.mp haction with haction | haction
      · exact hkind action haction
      · exact hkinds action haction
    · simp only [mem_append, or_and_right, exists_or, hid, hids, mem_cons, exists_eq_left]

/-- Of what several values add to a list, a test finds what one of them adds. -/
theorem filter_flatMap_eq {A B : Type*} {values : List A} {f : A → List B} {p : B → Bool} {a : A}
    (ha : a ∈ values) (hnodup : values.Nodup) (hown : ∀ b ∈ f a, p b = true)
    (hother : ∀ a' ∈ values, a' ≠ a → ∀ b ∈ f a', p b = false) : (values.flatMap f).filter p = f a := by
  obtain ⟨first, last, rfl⟩ := append_of_mem ha
  have hnone : ∀ part : List A, (∀ a' ∈ part, a' ∈ first ++ a :: last ∧ a' ≠ a) →
      (part.flatMap f).filter p = [] := by
    intro part hpart
    refine filter_eq_nil_iff.mpr fun b hb ↦ ?_
    obtain ⟨a', ha', hb⟩ := mem_flatMap.mp hb
    rw [hother a' (hpart a' ha').1 (hpart a' ha').2 b hb]
    exact Bool.false_ne_true
  have hsplit := nodup_append.mp hnodup
  rw [flatMap_append, flatMap_cons, filter_append, filter_append,
    filter_eq_self.mpr hown, hnone first, hnone last, nil_append, append_nil]
  · rintro a' ha'
    refine ⟨mem_append_right _ (mem_cons_of_mem _ ha'), ?_⟩
    rintro rfl
    exact (nodup_cons.mp hsplit.2.1).1 ha'
  · intro a' ha'
    exact ⟨mem_append_left _ ha', hsplit.2.2 a' ha' a mem_cons_self⟩

theorem filter_plan (hrow : row ∈ t.order) :
    ((t.plan lower).filter fun action ↦
      action.connectedId = some row.id ∧ action.kind ≠ .backfillJobSocialId) = t.rowActions lower row := by
  obtain ⟨added, hplan, hkind, -⟩ := plan_eq lower t
  have hmint : ((mintActions t.social).filter fun action ↦
      action.connectedId = some row.id ∧ action.kind ≠ .backfillJobSocialId) = [] := by
    refine filter_eq_nil_iff.mpr fun action haction ↦ ?_
    obtain ⟨s, -, rfl⟩ := List.mem_map.mp haction
    exact fun hmatch ↦ absurd (of_decide_eq_true hmatch).1 nofun
  have hadded : (added.filter fun action ↦
      action.connectedId = some row.id ∧ action.kind ≠ .backfillJobSocialId) = [] :=
    filter_eq_nil_iff.mpr fun action haction hmatch ↦ (of_decide_eq_true hmatch).2 (hkind action haction).1
  rw [hplan, actions_planRows, filter_append, filter_append, hmint, hadded, nil_append,
    append_nil]
  refine filter_flatMap_eq hrow (t.nodup_ids.of_map _) (fun action haction ↦ ?_) ?_
  · exact decide_eq_true (mem_rowActions haction)
  intro other hother hne action haction
  refine decide_eq_false fun hmatch ↦ hne (eq_of_id hother hrow ?_)
  exact Option.some.inj ((mem_rowActions haction).1.symm.trans hmatch.1)

theorem quarantines_plan (hrow : row ∈ t.order) :
    quarantines (t.plan lower) row =
      (t.rowActions lower row).countP fun action ↦ action.kind = .quarantineConnected := by
  rw [← filter_plan hrow, countP_filter, quarantines]
  refine countP_congr fun action _ ↦ ?_
  simp only [Bool.and_eq_true, decide_eq_true_eq]
  refine ⟨fun h ↦ ⟨h.1, h.2, ?_⟩, fun h ↦ ⟨h.1, h.2.1⟩⟩
  rw [h.1]
  exact nofun

theorem linkAfter_plan (hrow : row ∈ t.order) :
    linkAfter (t.plan lower) row =
      (t.rowActions lower row).foldl (relink row) (row.socialAccountId.map .existing) := by
  rw [← filter_plan hrow, foldl_filter, linkAfter]
  refine congrArg (fun step ↦ foldl step _ _) (funext fun link ↦ funext fun action ↦ ?_)
  by_cases hid : action.connectedId = some row.id
  · by_cases hkind : action.kind = .backfillJobSocialId
    · rw [if_neg fun hmatch ↦ (of_decide_eq_true hmatch).2 hkind, relink, if_pos hid, hkind]
    · rw [if_pos (decide_eq_true ⟨hid, hkind⟩)]
  · rw [if_neg fun hmatch ↦ hid (of_decide_eq_true hmatch).1, relink, if_neg hid]

/-! ### What the plan leaves of a row -/

theorem quarantines_of_quarantined (hrow : row ∈ t.order) (h : t.Quarantined lower row) :
    quarantines (t.plan lower) row = 1 := by
  rw [quarantines_plan hrow, rowActions]
  by_cases hrefused : t.Refused lower row
  · rw [if_pos hrefused]
    rfl
  · rw [if_neg hrefused, if_pos (h.resolve_left hrefused)]
    rfl

theorem linked_of_not_quarantined (hrow : row ∈ t.order) (h : ¬ t.Quarantined lower row) :
    quarantines (t.plan lower) row = 0 ∧
      ((∃ s, t.Takes lower row s ∧ linkAfter (t.plan lower) row = some (.existing s.id)) ∨
        (∀ s, ¬ t.PointsTo row s) ∧ linkAfter (t.plan lower) row = some (.created row.id) ∧
          ∃ action ∈ t.plan lower, action.kind = .createSocialFromConnected ∧
            action.connectedId = some row.id ∧ action.tenantId = row.tenantId ∧ action.platform = row.platform) := by
  obtain ⟨hrefused, hname⟩ := not_or.mp h
  have hactions : ∀ action ∈ t.rowActions lower row, action ∈ t.plan lower := by
    intro action haction
    rw [← filter_plan hrow] at haction
    exact (mem_filter.mp haction).1
  rw [quarantines_plan hrow, linkAfter_plan hrow]
  cases hkeeps : t.keeps row with
  | some s =>
    have hne : linkedSocial t.social row ≠ none := by
      rw [linkedSocial_eq, hkeeps]
      exact some_ne_none s
    rw [rowActions, if_neg hrefused, if_neg hname, hkeeps]
    exact ⟨rfl, .inl ⟨s, takes_of_linked (.inl hkeeps) hne,
      congrArg (Option.map _) (mem_liveSocial_of_keeps hkeeps).2⟩⟩
  | none =>
    cases hlegacy : t.legacy row with
    | some s =>
      rw [rowActions, if_neg hrefused, if_neg hname, hkeeps, hlegacy]
      exact ⟨rfl, .inl ⟨s, takes_of_linked (.inr (.inl hlegacy)) (linked_ne_none_of_legacy hlegacy),
        if_pos rfl⟩⟩
    | none =>
      cases hmatch : t.external row with
      | some s =>
        have hlinked : linkedSocial t.social row = none := by rw [linkedSocial_eq, hkeeps, hlegacy, none_or]
        rw [rowActions, if_neg hrefused, if_neg hname, hkeeps, hlegacy, hmatch]
        refine ⟨rfl, .inl ⟨s, ⟨.inr (.inr hmatch), fun _ other hother hsame ↦ ?_⟩, if_pos rfl⟩⟩
        by_contra hnot
        exact hname ⟨hlinked, other, hother, hsame, hnot⟩
      | none =>
        rw [rowActions, if_neg hrefused, if_neg hname, hkeeps, hlegacy, hmatch] at hactions ⊢
        refine ⟨rfl, .inr ⟨fun s hpoints ↦ ?_, if_pos rfl, _, hactions _ (mem_singleton_self _),
          rfl, rfl, rfl, rfl⟩⟩
        rcases hpoints with hs | hs | hs
        · exact absurd (hkeeps.symm.trans hs) nofun
        · exact absurd (hlegacy.symm.trans hs) nofun
        · exact absurd (hmatch.symm.trans hs) nofun

/-! ### When the plan is a matching -/

/-- What a consolidation is for: every live row is quarantined, once, or linked to a live account of its tenant
and platform, no two of the others share an account, and a job inherits only from a row with an account. -/
structure Consolidated (lower : String → String) (t : LegacyAccounts) : Prop where
  settled : ∀ row ∈ liveConnected t.connected, quarantines (t.plan lower) row = 1 ∨
    quarantines (t.plan lower) row = 0 ∧ LinkedAfter t.social (t.plan lower) row
  apart : ∀ a ∈ liveConnected t.connected, ∀ b ∈ liveConnected t.connected,
    quarantines (t.plan lower) a = 0 → quarantines (t.plan lower) b = 0 →
    ∀ account, linkAfter (t.plan lower) a = some account → linkAfter (t.plan lower) b = some account → a = b
  backfilled : ∀ action ∈ t.plan lower, action.kind = .backfillJobSocialId →
    ∃ row ∈ liveConnected t.connected, action.connectedId = some row.id ∧
      quarantines (t.plan lower) row = 0 ∧ LinkedAfter t.social (t.plan lower) row

/-- The accounts can be told apart: a row has one of its own tenant and platform, of two rows that take one the
later is named by it, and no job inherits from a row that is refused or whose name is taken. -/
structure Separable (lower : String → String) (t : LegacyAccounts) : Prop where
  sameTenant : ∀ row ∈ t.order, ∀ s, t.keeps row = some s ∨ t.legacy row = some s ∧ ¬ t.Refused lower row →
    s.tenantId = row.tenantId ∧ s.platform = row.platform
  laterNamed : ∀ row ∈ t.order, ∀ other ∈ t.before row, ∀ s,
    t.Takes lower other s → t.Takes lower row s → t.legacy row = some s
  jobs : ∀ job ∈ t.jobs, ∀ row, t.Inherits job row → ¬ t.Quarantined lower row

theorem quarantines_eq_zero_iff (hrow : row ∈ t.order) :
    quarantines (t.plan lower) row = 0 ↔ ¬ t.Quarantined lower row := by
  refine ⟨fun h hquarantined ↦ ?_, fun h ↦ (linked_of_not_quarantined hrow h).1⟩
  rw [quarantines_of_quarantined hrow hquarantined] at h
  exact absurd h Nat.one_ne_zero

theorem mem_before_trans {third : ConnectedSnapshot} (hrow : row ∈ t.order) (hother : other ∈ t.before row)
    (hthird : third ∈ t.before other) : third ∈ t.before row := by
  obtain ⟨done, rest, hsplit⟩ := append_of_mem hrow
  rw [before_eq hsplit] at hother ⊢
  obtain ⟨first, last, rfl⟩ := append_of_mem hother
  have hearlier : t.order = first ++ other :: (last ++ row :: rest) := by rw [hsplit]; simp
  rw [before_eq hearlier] at hthird
  exact mem_append_left _ hthird

theorem length_before_lt (hrow : row ∈ t.order) (hother : other ∈ t.before row) :
    (t.before other).length < (t.before row).length := by
  obtain ⟨done, rest, hsplit⟩ := append_of_mem hrow
  rw [before_eq hsplit] at hother ⊢
  obtain ⟨first, last, rfl⟩ := append_of_mem hother
  have hearlier : t.order = first ++ other :: (last ++ row :: rest) := by rw [hsplit]; simp
  rw [before_eq hearlier]
  simp

theorem not_nameTaken_of_takes (h : t.Takes lower row s) : ¬ t.NameTaken lower row := by
  rintro ⟨hlinked, other, hother, hsame, hnot⟩
  refine hnot (h.2 ?_ other hother hsame)
  rw [linkedSocial_eq, or_eq_none_iff] at hlinked
  exact (h.1.resolve_left fun hs ↦ absurd (hlinked.1.symm.trans hs) nofun).resolve_left fun hs ↦
    absurd (hlinked.2.symm.trans hs) nofun

/-- The first row that takes an account has it. -/
theorem exists_first_taker (hrow : row ∈ t.order) (h : t.Takes lower row s) :
    ∃ first ∈ t.order, (first = row ∨ first ∈ t.before row) ∧ t.Takes lower first s ∧
      ¬ t.Quarantined lower first := by
  induction hlength : (t.before row).length using Nat.strong_induction_on generalizing row with
  | _ n ih =>
    by_cases hrefused : t.Refused lower row
    · obtain ⟨s', hlegacy, other, hother, htakes⟩ := refused_iff.mp hrefused
      obtain rfl : s' = s := h.1.eq (.inr (.inl hlegacy)) |>.symm
      obtain ⟨first, hfirst, hwhere, hrest⟩ :=
        ih _ (hlength ▸ length_before_lt hrow hother) (mem_order_of_mem_before hother) htakes rfl
      refine ⟨first, hfirst, .inr ?_, hrest⟩
      rcases hwhere with rfl | hbefore
      · exact hother
      · exact mem_before_trans hrow hother hbefore
    · exact ⟨row, hrow, .inl rfl, h, not_or.mpr ⟨hrefused, not_nameTaken_of_takes h⟩⟩

theorem linkAfter_of_takes (hrow : row ∈ t.order) (hquarantined : ¬ t.Quarantined lower row)
    (h : t.Takes lower row s) : linkAfter (t.plan lower) row = some (.existing s.id) := by
  obtain ⟨-, ⟨s', htakes, hlink⟩ | ⟨hnone, -⟩⟩ := linked_of_not_quarantined hrow hquarantined
  · rw [hlink, htakes.1.eq h.1]
  · exact absurd h.1 (hnone s)

/-- A linked row has an account of its tenant and platform exactly when that is the account it points at. -/
theorem linkedAfter_iff (hrow : row ∈ t.order) (hquarantined : ¬ t.Quarantined lower row) :
    LinkedAfter t.social (t.plan lower) row ↔ ∀ s, t.keeps row = some s ∨ t.legacy row = some s →
      s.tenantId = row.tenantId ∧ s.platform = row.platform := by
  obtain ⟨-, ⟨s, htakes, hlink⟩ | ⟨hnone, hlink, action, haction, hkind, hid, hwhere⟩⟩ :=
    linked_of_not_quarantined hrow hquarantined
  · constructor
    · rintro (⟨s', hs', hlink', hwhere⟩ | ⟨action, -, -, ⟨connectedId, -, hlink'⟩, -⟩) s'' hs''
      · have hsame : s.id = s'.id := PlannedAccount.existing.inj (mem_unique hlink hlink')
        rw [social_eq_of_id hs' htakes.1.mem hsame.symm, htakes.1.eq (hs''.imp_right .inl)] at hwhere
        exact hwhere
      · exact absurd (mem_unique hlink hlink') nofun
    · intro hsame
      refine .inl ⟨s, htakes.1.mem, hlink, ?_⟩
      rcases htakes.1 with hs | hs | hs
      · exact hsame s (.inl hs)
      · exact hsame s (.inr hs)
      · exact (mem_liveSocial_of_external hs).2
  · refine iff_of_true (.inr ⟨action, haction, hkind, ⟨row.id, hid, hlink⟩, hwhere⟩) fun s hs ↦ ?_
    exact absurd (hs.imp_right .inl) (hnone s)

theorem settled_iff :
    (∀ row ∈ liveConnected t.connected, quarantines (t.plan lower) row = 1 ∨
      quarantines (t.plan lower) row = 0 ∧ LinkedAfter t.social (t.plan lower) row) ↔
    ∀ row ∈ t.order, ∀ s, t.keeps row = some s ∨ t.legacy row = some s ∧ ¬ t.Refused lower row →
      s.tenantId = row.tenantId ∧ s.platform = row.platform := by
  simp only [← mem_order]
  refine forall₂_congr fun row hrow ↦ ?_
  by_cases hquarantined : t.Quarantined lower row
  · refine iff_of_true (.inl (quarantines_of_quarantined hrow hquarantined)) fun s hs ↦ ?_
    -- a quarantined row neither keeps an account nor gets the one that names it
    have htakes : t.Takes lower row s := by
      rcases hs with hs | ⟨hs, -⟩
      · refine takes_of_linked (.inl hs) ?_
        rw [linkedSocial_eq, hs]
        exact some_ne_none s
      · exact takes_of_linked (.inr (.inl hs)) (linked_ne_none_of_legacy hs)
    have hrefused := hquarantined.resolve_right (not_nameTaken_of_takes htakes)
    rcases hs with hs | ⟨-, hnot⟩
    · exact absurd hrefused (not_refused_of_legacy_eq_none (legacy_of_keeps hs))
    · exact absurd hrefused hnot
  · have hzero := (quarantines_eq_zero_iff hrow).mpr hquarantined
    rw [hzero, or_iff_right Nat.zero_ne_one, and_iff_right rfl, linkedAfter_iff hrow hquarantined]
    refine forall_congr' fun s ↦ imp_congr_left (or_congr_right (and_iff_left ?_).symm)
    exact (not_or.mp hquarantined).1

theorem apart_iff :
    (∀ a ∈ liveConnected t.connected, ∀ b ∈ liveConnected t.connected,
      quarantines (t.plan lower) a = 0 → quarantines (t.plan lower) b = 0 →
      ∀ account, linkAfter (t.plan lower) a = some account → linkAfter (t.plan lower) b = some account → a = b) ↔
    ∀ row ∈ t.order, ∀ other ∈ t.before row, ∀ s,
      t.Takes lower other s → t.Takes lower row s → t.legacy row = some s := by
  simp only [← mem_order]
  constructor
  · intro h row hrow other hother s hother' hrow'
    by_contra hnamed
    -- neither the row nor the first one that takes the account is quarantined
    have hquarantined : ¬ t.Quarantined lower row := by
      refine not_or.mpr ⟨fun hrefused ↦ ?_, not_nameTaken_of_takes hrow'⟩
      obtain ⟨s', hlegacy, -⟩ := refused_iff.mp hrefused
      exact hnamed (hrow'.1.eq (.inr (.inl hlegacy)) ▸ hlegacy)
    obtain ⟨first, hfirst, hwhere, htakes, hfirst'⟩ := exists_first_taker (mem_order_of_mem_before hother) hother'
    have hbefore : first ∈ t.before row := by
      rcases hwhere with rfl | hbefore
      · exact hother
      · exact mem_before_trans hrow hother hbefore
    refine ne_of_mem_before hbefore (h first hfirst row hrow ?_ ?_ _ (linkAfter_of_takes hfirst hfirst' htakes)
      (linkAfter_of_takes hrow hquarantined hrow'))
    · exact (quarantines_eq_zero_iff hfirst).mpr hfirst'
    · exact (quarantines_eq_zero_iff hrow).mpr hquarantined
  · intro h a ha b hb hafree hbfree account halink hblink
    rw [quarantines_eq_zero_iff ha] at hafree
    rw [quarantines_eq_zero_iff hb] at hbfree
    obtain ⟨-, ⟨s, hatakes, halink'⟩ | ⟨-, halink', -⟩⟩ := linked_of_not_quarantined ha hafree
    · obtain ⟨-, ⟨s', hbtakes, hblink'⟩ | ⟨-, hblink', -⟩⟩ := linked_of_not_quarantined hb hbfree
      · have haccount := (halink'.symm.trans (halink.trans hblink.symm)).trans hblink'
        have hsame : s = s' := social_eq_of_id hatakes.1.mem hbtakes.1.mem
          (PlannedAccount.existing.inj (Option.some.inj haccount))
        subst hsame
        by_contra hne
        -- the later of the two rows would be refused
        rcases mem_before_or ha hb hne with hbefore | hbefore
        · exact hbfree (.inl (refused_iff.mpr ⟨s, h b hb a hbefore s hatakes hbtakes, a, hbefore, hatakes⟩))
        · exact hafree (.inl (refused_iff.mpr ⟨s, h a ha b hbefore s hbtakes hatakes, b, hbefore, hbtakes⟩))
      · exact absurd (Option.some.inj ((halink'.symm.trans (halink.trans hblink.symm)).trans hblink')) nofun
    · obtain ⟨-, ⟨s', hbtakes, hblink'⟩ | ⟨-, hblink', -⟩⟩ := linked_of_not_quarantined hb hbfree
      · exact absurd (Option.some.inj ((halink'.symm.trans (halink.trans hblink.symm)).trans hblink')) nofun
      · have haccount := (halink'.symm.trans (halink.trans hblink.symm)).trans hblink'
        exact eq_of_id ha hb (PlannedAccount.created.inj (Option.some.inj haccount))

theorem backfill_mem_plan_iff {id : Uuid} :
    (∃ action ∈ t.plan lower, action.kind = .backfillJobSocialId ∧ action.connectedId = some id) ↔
      ∃ job ∈ t.jobs, ∃ row, t.Inherits job row ∧ row.id = id := by
  obtain ⟨added, hplan, hkind, hids⟩ := plan_eq lower t
  rw [hplan]
  refine Iff.trans ⟨?_, ?_⟩ (hids id)
  · rintro ⟨action, haction, hbackfill, hid⟩
    rcases mem_append.mp haction with haction | haction
    · rcases mem_order_of_mem_planRows haction with ⟨hnone, -⟩ | ⟨row, -, hmem⟩
      · exact absurd (hnone.symm.trans hid) nofun
      · exact absurd hbackfill (mem_rowActions hmem).2
    · exact ⟨action, haction, hid⟩
  · rintro ⟨action, haction, hid⟩
    exact ⟨action, mem_append_right _ haction, (hkind action haction).1, hid⟩

/-- The plan is a matching of the live rows exactly when the accounts can be told apart. -/
theorem consolidated_iff (lower : String → String) (t : LegacyAccounts) :
    t.Consolidated lower ↔ t.Separable lower := by
  constructor
  · intro h
    refine ⟨settled_iff.mp h.settled, apart_iff.mp h.apart, fun job hjob row hrow ↦ ?_⟩
    obtain ⟨action, haction, hkind, hid⟩ := backfill_mem_plan_iff.mpr ⟨job, hjob, row, hrow, rfl⟩
    obtain ⟨row', hrow', hid', hzero, -⟩ := h.backfilled action haction hkind
    rw [← mem_order] at hrow'
    obtain rfl := eq_of_id hrow' hrow.2.1 (mem_unique hid' hid)
    exact (quarantines_eq_zero_iff hrow').mp hzero
  · intro h
    have hsettled := settled_iff.mpr h.sameTenant
    refine ⟨hsettled, apart_iff.mpr h.laterNamed, fun action haction hkind ↦ ?_⟩
    obtain ⟨id, hid⟩ : ∃ id, action.connectedId = some id := by
      obtain ⟨added, hplan, hadded, -⟩ := plan_eq lower t
      rw [hplan, mem_append] at haction
      rcases haction with haction | haction
      · rcases mem_order_of_mem_planRows haction with ⟨-, hmint⟩ | ⟨row, -, hmem⟩
        · exact absurd (hmint.symm.trans hkind) nofun
        · exact absurd hkind (mem_rowActions hmem).2
      · exact (hadded action haction).2
    obtain ⟨job, hjob, row, hrow, rfl⟩ := backfill_mem_plan_iff.mp ⟨action, haction, hkind, hid⟩
    have hzero := (quarantines_eq_zero_iff hrow.2.1).mpr (h.jobs job hjob row hrow)
    have hlive := mem_order.mp hrow.2.1
    refine ⟨row, hlive, hid, hzero, ((hsettled row hlive).resolve_left fun hone ↦ ?_).2⟩
    exact Nat.zero_ne_one (hzero.symm.trans hone)

/-! ### Two rows with one account -/

def sharedAccount : SocialSnapshot :=
  { id := .repeated 1, tenantId := .repeated 0, platform := "x", accountExternalId := some "ext-1" }

def firstHolder : ConnectedSnapshot :=
  { id := .repeated 2, tenantId := .repeated 0, platform := "x", accountName := "Main"
    socialAccountId := some (.repeated 1) }

/-- Another one, of the same name. -/
def secondHolder : ConnectedSnapshot := { firstHolder with id := .repeated 3 }

/-- The tables of the two rows. -/
def sharedHolders : LegacyAccounts where
  connected := [firstHolder, secondHolder]
  social := [sharedAccount]
  nodupConnected := by decide
  nodupSocial := by decide

/-- Both rows keep the account. -/
theorem shared_account_kept_twice :
    ¬ ∀ (lower : String → String) (t : LegacyAccounts), t.Consolidated lower := by
  intro h
  have hkeeps : ∀ row ∈ [firstHolder, secondHolder], sharedHolders.keeps row = some sharedAccount := by
    decide +kernel
  have hmem : ∀ row ∈ [firstHolder, secondHolder], row ∈ sharedHolders.order := fun row hrow ↦
    mem_order.mpr (mem_filter.mpr ⟨hrow, by revert row; decide⟩)
  have htakes : ∀ row ∈ [firstHolder, secondHolder], sharedHolders.Takes pyLower row sharedAccount := by
    intro row hrow
    refine takes_of_linked (.inl (hkeeps row hrow)) ?_
    rw [linkedSocial_eq, hkeeps row hrow]
    exact some_ne_none _
  have hnamed := apart_iff.mp (h pyLower sharedHolders).apart
  have hcontra : ∀ row ∈ [firstHolder, secondHolder], ∀ other ∈ [firstHolder, secondHolder],
      other ∉ sharedHolders.before row := by
    intro row hrow other hother hbefore
    have hlegacy := hnamed row (hmem row hrow) other hbefore sharedAccount (htakes other hother) (htakes row hrow)
    exact absurd ((legacy_of_keeps (hkeeps row hrow)).symm.trans hlegacy) nofun
  rcases mem_before_or (hmem firstHolder (by decide)) (hmem secondHolder (by decide)) (by decide) with hb | hb
  · exact hcontra _ (by decide) _ (by decide) hb
  · exact hcontra _ (by decide) _ (by decide) hb

end LegacyAccounts

end ContentGenerator.Publishing

import ContentGenerator.ContentGeneration.Variants
import ContentGenerator.Lib.Assignment
import ContentGenerator.Lib.Play
import ContentGenerator.Lib.Transition

/-!
# The variant an account is published with

Runs of transforms and direct upserts. Variants are keyed by fingerprint and an upsert synchronises the
targets of its own variant only, so the tables are labelled classes (`VariantStore.classes`): a class for each
job and fingerprint, with the accounts as members and the text as label. `classes_upsertVariant` connects the
store to them: an upsert is the write of one class.

`PublishesLatest` says that an account is a target of at most one variant of a job, that it stays one, and
that the lookup for publishing returns the text of the last upsert that named it. `latest_variants_iff` is
the exact condition on the operations of a run, `moved_account_keeps_old_text` a run that violates it.
-/

namespace ContentGenerator.ContentGeneration

open Lib List Option
open Prod (ext_iff fst)

/-! ### The runs -/

inductive VariantOp where
  | transform (input : TransformInput)
  | upsert (call : UpsertCall)

def VariantOp.apply (env : VariantEnv) (s : VariantStore) : VariantOp → VariantStore
  | .transform input => (executeTransform env s input).1
  | .upsert call => (s.upsertVariant call).1

def VariantOp.calls (env : VariantEnv) : VariantOp → List UpsertCall
  | .transform input =>
    if input.canonicalText = "" ∨ input.accounts.isEmpty then []
    else
      match input.contentJobId with
      | none => []
      | some contentJobId =>
        ((groupByFingerprint env input.accounts).insertionSort fun group other ↦ group.1 ≤ other.1).map
          fun group ↦ upsertCall env input contentJobId group.1 group.2
  | .upsert call => [call]

/-- The tables and the upserts so far. -/
structure VariantHistory where
  store : VariantStore := {}
  upserts : List UpsertCall := []

def VariantHistory.apply (env : VariantEnv) (h : VariantHistory) (op : VariantOp) : VariantHistory where
  store := op.apply env h.store
  upserts := h.upserts ++ op.calls env

def LastCovering (upserts : List UpsertCall) (contentJobId accountId : ℕ) (call : UpsertCall) : Prop :=
  (call.contentJobId = contentJobId ∧ accountId ∈ call.socialAccountIds) ∧
    ∃ before after, upserts = before ++ call :: after ∧
      ∀ later ∈ after, ¬ (later.contentJobId = contentJobId ∧ accountId ∈ later.socialAccountIds)

/-- An account is a target of at most one variant of a job, stays a target once it has been named, and is
published with the text of the last upsert that named it. -/
structure PublishesLatest (h : VariantHistory) : Prop where
  one : ∀ contentJobId accountId, ∀ variant ∈ h.store.listForJob contentJobId,
    ∀ other ∈ h.store.listForJob contentJobId, accountId ∈ h.store.listTargets variant.id →
      accountId ∈ h.store.listTargets other.id → variant = other
  target : ∀ contentJobId accountId call, LastCovering h.upserts contentJobId accountId call →
    ∃ variant ∈ h.store.listForJob contentJobId, accountId ∈ h.store.listTargets variant.id
  latest : ∀ contentJobId accountId call, LastCovering h.upserts contentJobId accountId call →
    (h.store.resolveForAccount contentJobId accountId []).map VariantSnapshot.text = some call.text

/-- The upserts of an operation name no account under two fingerprints, name no account that a variant they
do not write keeps, and name again every account they drop. -/
structure KeepsTargets (s : VariantStore) (calls : List UpsertCall) : Prop where
  apart : ∀ call ∈ calls, ∀ other ∈ calls, call.contentJobId = other.contentJobId →
    ∀ accountId ∈ call.socialAccountIds, accountId ∈ other.socialAccountIds →
      call.fingerprint = other.fingerprint
  moved : ∀ call ∈ calls, ∀ accountId ∈ call.socialAccountIds,
    ∀ variant ∈ s.listForJob call.contentJobId, accountId ∈ s.listTargets variant.id →
      ∃ other ∈ calls, other.contentJobId = call.contentJobId ∧ other.fingerprint = variant.fingerprint
  named : ∀ call ∈ calls, ∀ variant ∈ s.listForJob call.contentJobId,
    variant.fingerprint = call.fingerprint → ∀ accountId ∈ s.listTargets variant.id,
      ∃ other ∈ calls, other.contentJobId = call.contentJobId ∧ accountId ∈ other.socialAccountIds

/-! ### The tables as labelled classes -/

def ContentVariant.key (variant : ContentVariant) : ℕ × String := (variant.contentJobId, variant.fingerprint)

/-- What the constraints of the tables keep. -/
structure VariantStore.Sound (s : VariantStore) : Prop where
  live : ∀ variant ∈ s.variants, variant.deletedAt = none
  ids : (s.variants.map ContentVariant.id).Nodup
  keys : (s.variants.map ContentVariant.key).Nodup
  fresh : ∀ variant ∈ s.variants, variant.id < s.nextId
  owned : ∀ row ∈ s.targets, row.variantId < s.nextId

def VariantStore.classes (s : VariantStore) : Classes (ℕ × String) (ℕ × ℕ) String where
  members := fun key ↦ {member | member.1 = key.1 ∧
    ∃ variant ∈ s.variants, variant.key = key ∧ member.2 ∈ s.listTargets variant.id}
  label := fun key ↦ (s.getByFingerprint key.1 key.2).map ContentVariant.text

def UpsertCall.assign (call : UpsertCall) : Assign (ℕ × String) (ℕ × ℕ) String where
  key := (call.contentJobId, call.fingerprint)
  members := {member | member.1 = call.contentJobId ∧ member.2 ∈ call.socialAccountIds}
  label := call.text

namespace VariantStore

variable {s : VariantStore} {call : UpsertCall} {variant other : ContentVariant} {accountId : ℕ}

theorem Sound.eq_of_id (h : s.Sound) (hvariant : variant ∈ s.variants) (hother : other ∈ s.variants)
    (hid : variant.id = other.id) : variant = other :=
  inj_on_of_nodup_map h.ids hvariant hother hid

theorem Sound.eq_of_key (h : s.Sound) (hvariant : variant ∈ s.variants) (hother : other ∈ s.variants)
    (hkey : variant.key = other.key) : variant = other :=
  inj_on_of_nodup_map h.keys hvariant hother hkey

theorem Sound.getByFingerprint_eq_some_iff (h : s.Sound) {contentJobId : ℕ} {fingerprint : String} :
    s.getByFingerprint contentJobId fingerprint = some variant ↔
      variant ∈ s.variants ∧ variant.key = (contentJobId, fingerprint) := by
  unfold getByFingerprint
  constructor
  · intro hfind
    have hmatch := find?_some hfind
    obtain ⟨hjob, hfingerprint, -⟩ := of_decide_eq_true hmatch
    exact ⟨mem_of_find?_eq_some hfind, Prod.ext hjob hfingerprint⟩
  · rintro ⟨hvariant, hkey⟩
    obtain ⟨hjob, hfingerprint⟩ := ext_iff.mp hkey
    cases hfind : s.variants.find? fun variant ↦ variant.contentJobId = contentJobId ∧
        variant.fingerprint = fingerprint ∧ variant.deletedAt = none with
    | none =>
      have hnone := find?_eq_none.mp hfind variant hvariant
      exact absurd (decide_eq_true ⟨hjob, hfingerprint, h.live variant hvariant⟩) hnone
    | some found =>
      have hmatch := find?_some hfind
      obtain ⟨hjob', hfingerprint', -⟩ := of_decide_eq_true hmatch
      have hsame : found.key = variant.key := (Prod.ext hjob' hfingerprint').trans hkey.symm
      rw [h.eq_of_key (mem_of_find?_eq_some hfind) hvariant hsame]

theorem Sound.mem_listForJob_iff (h : s.Sound) {contentJobId : ℕ} :
    variant ∈ s.listForJob contentJobId ↔ variant ∈ s.variants ∧ variant.contentJobId = contentJobId := by
  unfold listForJob
  rw [mem_filter, decide_eq_true_eq]
  constructor
  · rintro ⟨hvariant, hjob, -⟩
    exact ⟨hvariant, hjob⟩
  · rintro ⟨hvariant, hjob⟩
    exact ⟨hvariant, hjob, h.live variant hvariant⟩

theorem mem_listTargets_iff {variantId : ℕ} :
    accountId ∈ s.listTargets variantId ↔ ⟨variantId, accountId⟩ ∈ s.targets := by
  unfold listTargets
  rw [List.mem_map]
  constructor
  · rintro ⟨⟨rowId, rowAccount⟩, hrow, rfl⟩
    obtain ⟨hmem, hid⟩ := mem_filter.mp hrow
    rw [decide_eq_true_eq] at hid
    subst hid
    exact hmem
  · intro hmem
    exact ⟨_, mem_filter.mpr ⟨hmem, decide_eq_true rfl⟩, rfl⟩

/-- The targets of a variant that has been synchronised, and of the others. -/
theorem mem_listTargets_syncTargets {variantId rowId : ℕ} {socialAccountIds : List ℕ} :
    accountId ∈ (s.syncTargets variantId socialAccountIds).listTargets rowId ↔
      if rowId = variantId then accountId ∈ socialAccountIds else accountId ∈ s.listTargets rowId := by
  rw [mem_listTargets_iff]
  unfold syncTargets
  dsimp only
  rw [mem_append, mem_filter, decide_eq_true_eq, List.mem_map]
  split_ifs with hid
  · subst hid
    constructor
    · rintro (⟨-, hwanted⟩ | ⟨added, hadded, hrow⟩)
      · exact mem_dedup.mp (hwanted rfl)
      · obtain ⟨-, rfl⟩ := ContentVariantTarget.mk.inj hrow
        exact mem_dedup.mp (mem_filter.mp hadded).1
    · intro hwanted
      by_cases hexists : accountId ∈ s.listTargets rowId
      · exact .inl ⟨mem_listTargets_iff.mp hexists, fun _ ↦ mem_dedup.mpr hwanted⟩
      · exact .inr ⟨accountId, mem_filter.mpr ⟨mem_dedup.mpr hwanted, decide_eq_true hexists⟩, rfl⟩
  · rw [mem_listTargets_iff]
    constructor
    · rintro (⟨hrow, -⟩ | ⟨added, -, hrow⟩)
      · exact hrow
      · exact absurd (ContentVariantTarget.mk.inj hrow).1.symm hid
    · intro hrow
      exact .inl ⟨hrow, fun h ↦ absurd h hid⟩

/-- What an upsert does: it leaves one variant under its key, with its text and exactly its accounts, and
every other variant as it was. -/
structure Upserted (s : VariantStore) (call : UpsertCall) (s' : VariantStore) (variant : ContentVariant) :
    Prop where
  mem : variant ∈ s'.variants
  key : variant.key = (call.contentJobId, call.fingerprint)
  text : variant.text = call.text
  others : ∀ other, other.key ≠ variant.key → (other ∈ s'.variants ↔ other ∈ s.variants)
  targets : ∀ accountId, accountId ∈ s'.listTargets variant.id ↔ accountId ∈ call.socialAccountIds
  frame : ∀ rowId, rowId ≠ variant.id → ∀ accountId,
    accountId ∈ s'.listTargets rowId ↔ accountId ∈ s.listTargets rowId

theorem sound_empty : Sound {} where
  live := by simp
  ids := nodup_nil
  keys := nodup_nil
  fresh := by simp
  owned := by simp

theorem Sound.syncTargets (h : s.Sound) {variantId : ℕ} (hfresh : variantId < s.nextId)
    (socialAccountIds : List ℕ) : (s.syncTargets variantId socialAccountIds).Sound where
  live := h.live
  ids := h.ids
  keys := h.keys
  fresh := h.fresh
  owned := by
    intro row hrow
    rcases mem_append.mp hrow with hold | hnew
    · exact h.owned row (mem_filter.mp hold).1
    · obtain ⟨accountId, -, rfl⟩ := List.mem_map.mp hnew
      exact hfresh

/-- The first upsert of a key. -/
theorem Sound.addVariant (h : s.Sound) (hid : variant.id = s.nextId) (hlive : variant.deletedAt = none)
    (hnew : ∀ other ∈ s.variants, other.key ≠ variant.key) : (s.addVariant variant).Sound where
  live := by
    intro other hother
    rcases mem_append.mp hother with hold | hlast
    · exact h.live other hold
    · rw [mem_singleton.mp hlast]
      exact hlive
  ids := by
    unfold VariantStore.addVariant
    rw [map_append, nodup_append]
    refine ⟨h.ids, nodup_singleton _, fun id hold id' hlast ↦ ?_⟩
    obtain ⟨other, hother, rfl⟩ := List.mem_map.mp hold
    rw [mem_singleton.mp hlast, hid]
    exact (h.fresh other hother).ne
  keys := by
    unfold VariantStore.addVariant
    rw [map_append, nodup_append]
    refine ⟨h.keys, nodup_singleton _, fun key hold key' hlast ↦ ?_⟩
    obtain ⟨other, hother, rfl⟩ := List.mem_map.mp hold
    rw [mem_singleton.mp hlast]
    exact hnew other hother
  fresh := by
    intro other hother
    rcases mem_append.mp hother with hold | hlast
    · exact (h.fresh other hold).trans (Nat.lt_succ_self _)
    · rw [mem_singleton.mp hlast, hid]
      exact Nat.lt_succ_self _
  owned := fun row hrow ↦ (h.owned row hrow).trans (Nat.lt_succ_self _)

/-- A later upsert of a key: the row is rewritten under its id and its key. -/
theorem Sound.writeVariant (h : s.Sound) (hother : other ∈ s.variants) (hid : variant.id = other.id)
    (hkey : variant.key = other.key) (hlive : variant.deletedAt = none) : (s.writeVariant variant).Sound := by
  have hcolumn : ∀ {β : Type} (column : ContentVariant → β), column variant = column other →
      (s.writeVariant variant).variants.map column = s.variants.map column := by
    intro β column hcolumn
    unfold VariantStore.writeVariant
    rw [List.map_map]
    refine map_congr_left fun row hrow ↦ ?_
    rw [Function.comp_apply]
    split_ifs with hsame
    · rw [hcolumn, h.eq_of_id hrow hother (hsame.trans hid)]
    · rfl
  exact
    { live := by
        intro row hrow
        obtain ⟨old, hold, rfl⟩ := List.mem_map.mp hrow
        split_ifs
        · exact hlive
        · exact h.live old hold
      ids := by
        rw [hcolumn ContentVariant.id hid]
        exact h.ids
      keys := by
        rw [hcolumn ContentVariant.key hkey]
        exact h.keys
      fresh := by
        intro row hrow
        obtain ⟨old, hold, rfl⟩ := List.mem_map.mp hrow
        split_ifs
        · rw [hid]
          exact h.fresh other hother
        · exact h.fresh old hold
      owned := h.owned }

theorem Upserted.of_sync {flushed : VariantStore} (hmem : variant ∈ flushed.variants)
    (hkey : variant.key = (call.contentJobId, call.fingerprint)) (htext : variant.text = call.text)
    (hothers : ∀ other, other.key ≠ variant.key → (other ∈ flushed.variants ↔ other ∈ s.variants))
    (htargets : flushed.targets = s.targets) :
    s.Upserted call (flushed.syncTargets variant.id call.socialAccountIds) variant where
  mem := hmem
  key := hkey
  text := htext
  others := hothers
  targets := fun accountId ↦ by
    rw [mem_listTargets_syncTargets, if_pos rfl]
  frame := fun rowId hrow accountId ↦ by
    rw [mem_listTargets_syncTargets, if_neg hrow, mem_listTargets_iff, mem_listTargets_iff, htargets]

theorem Sound.upsertVariant (h : s.Sound) (call : UpsertCall) :
    (s.upsertVariant call).1.Sound ∧ s.Upserted call (s.upsertVariant call).1 (s.upsertVariant call).2 := by
  unfold VariantStore.upsertVariant
  cases hfind : s.getByFingerprint call.contentJobId call.fingerprint with
  | none =>
    have hnew : ∀ other ∈ s.variants, other.key ≠ (newVariant s.nextId call).key := by
      intro other hother hkey
      have hsome := h.getByFingerprint_eq_some_iff.mpr ⟨hother, hkey⟩
      exact absurd (hsome.symm.trans hfind) (some_ne_none other)
    refine ⟨(h.addVariant rfl rfl hnew).syncTargets (Nat.lt_succ_self _) _, Upserted.of_sync ?_ rfl rfl ?_ rfl⟩
    · exact mem_append_right _ (mem_singleton_self _)
    · intro other hother
      refine mem_append.trans (or_iff_left fun hlast ↦ hother ?_)
      rw [mem_singleton.mp hlast]
  | some existing =>
    obtain ⟨hexisting, hkey⟩ := h.getByFingerprint_eq_some_iff.mp hfind
    have hwritten : (s.writeVariant (updatedVariant existing call)).Sound :=
      h.writeVariant hexisting rfl rfl (h.live existing hexisting)
    refine ⟨hwritten.syncTargets (h.fresh existing hexisting) _, Upserted.of_sync ?_ hkey rfl ?_ rfl⟩
    · exact List.mem_map.mpr ⟨existing, hexisting, if_pos rfl⟩
    · intro other hother
      constructor
      · intro hmem
        obtain ⟨old, hold, rfl⟩ := List.mem_map.mp hmem
        by_cases hsame : old.id = (updatedVariant existing call).id
        · rw [if_pos hsame] at hother
          exact absurd rfl hother
        · rw [if_neg hsame]
          exact hold
      · intro hmem
        refine List.mem_map.mpr ⟨other, hmem, if_neg fun hsame ↦ hother ?_⟩
        rw [h.eq_of_id hmem hexisting hsame]
        rfl

theorem mem_classes_iff {key : ℕ × String} {member : ℕ × ℕ} :
    member ∈ s.classes.members key ↔ member.1 = key.1 ∧
      ∃ variant ∈ s.variants, variant.key = key ∧ member.2 ∈ s.listTargets variant.id := Iff.rfl

theorem Sound.label_classes_iff (h : s.Sound) {key : ℕ × String} {text : String} :
    s.classes.label key = some text ↔ ∃ variant ∈ s.variants, variant.key = key ∧ variant.text = text := by
  unfold VariantStore.classes
  dsimp only
  rw [map_eq_some_iff]
  constructor
  · rintro ⟨variant, hfind, htext⟩
    obtain ⟨hvariant, hkey⟩ := h.getByFingerprint_eq_some_iff.mp hfind
    exact ⟨variant, hvariant, hkey, htext⟩
  · rintro ⟨variant, hvariant, hkey, htext⟩
    exact ⟨variant, h.getByFingerprint_eq_some_iff.mpr ⟨hvariant, hkey⟩, htext⟩

/-- An upsert is the write of one class. -/
theorem Sound.classes_upsertVariant (h : s.Sound) (call : UpsertCall) :
    (s.upsertVariant call).1.classes = s.classes.assign call.assign := by
  obtain ⟨hsound, hup⟩ := h.upsertVariant call
  have hmembers : (s.upsertVariant call).1.classes.members = (s.classes.assign call.assign).members := by
    funext key
    ext member
    by_cases hkey : key = call.assign.key
    · subst hkey
      rw [(s.classes.assign_self call.assign).1, mem_classes_iff]
      refine and_congr_right fun _ ↦ ⟨?_, fun hin ↦ ?_⟩
      · rintro ⟨variant, hvariant, hkey, hin⟩
        rw [hsound.eq_of_key hvariant hup.mem (hkey.trans hup.key.symm)] at hin
        exact (hup.targets _).mp hin
      · exact ⟨_, hup.mem, hup.key, (hup.targets _).mpr hin⟩
    · rw [(s.classes.assign_of_ne hkey).1, mem_classes_iff, mem_classes_iff]
      refine and_congr_right fun _ ↦ exists_congr fun variant ↦ ?_
      by_cases hvariant : variant.key = key
      · have hne : variant.key ≠ (s.upsertVariant call).2.key := fun hsame ↦
          hkey (hvariant.symm.trans (hsame.trans hup.key))
        rw [hup.others variant hne]
        refine and_congr_right fun hmem ↦ and_congr_right fun _ ↦ hup.frame variant.id (fun hid ↦ hne ?_) _
        rw [hsound.eq_of_id ((hup.others variant hne).mpr hmem) hup.mem hid]
      · exact iff_of_false (fun hand ↦ hvariant hand.2.1) (fun hand ↦ hvariant hand.2.1)
  have hlabel : (s.upsertVariant call).1.classes.label = (s.classes.assign call.assign).label := by
    funext key
    refine Option.ext fun text ↦ ?_
    rw [hsound.label_classes_iff]
    by_cases hkey : key = call.assign.key
    · subst hkey
      rw [(s.classes.assign_self call.assign).2, some_inj]
      constructor
      · rintro ⟨variant, hvariant, hkey, rfl⟩
        rw [hsound.eq_of_key hvariant hup.mem (hkey.trans hup.key.symm)]
        exact hup.text.symm
      · rintro rfl
        exact ⟨_, hup.mem, hup.key, hup.text⟩
    · rw [(s.classes.assign_of_ne hkey).2, h.label_classes_iff]
      refine exists_congr fun variant ↦ and_congr_left fun hand ↦ hup.others variant fun hsame ↦ ?_
      exact hkey (hand.1.symm.trans (hsame.trans hup.key))
  exact congrArg₂ Classes.mk hmembers hlabel

/-- A list of upserts is a batch of writes. -/
theorem Sound.upsertAll (h : s.Sound) (calls : List UpsertCall) :
    (calls.foldl (fun s call ↦ (s.upsertVariant call).1) s).Sound ∧
      (calls.foldl (fun s call ↦ (s.upsertVariant call).1) s).classes =
        s.classes.assignAll (calls.map UpsertCall.assign) := by
  induction calls generalizing s with
  | nil => exact ⟨h, rfl⟩
  | cons call rest ih =>
    obtain ⟨hsound, hclasses⟩ := ih (h.upsertVariant call).1
    rw [h.classes_upsertVariant call] at hclasses
    exact ⟨hsound, hclasses⟩

end VariantStore

/-! ### The upserts of a transform -/

variable {env : VariantEnv}

theorem nodup_addToGroup {groups : List (String × List SocialAccount)} (h : (groups.map fst).Nodup)
    (fingerprint : String) (account : SocialAccount) :
    ((addToGroup groups fingerprint account).map fst).Nodup := by
  unfold addToGroup
  split_ifs with hexists
  · have hkeys : (groups.map fun group ↦
        if group.1 = fingerprint then (group.1, group.2 ++ [account]) else group).map fst =
          groups.map fst := by
      rw [List.map_map]
      refine map_congr_left fun group _ ↦ ?_
      rw [Function.comp_apply]
      split_ifs <;> rfl
    rw [hkeys]
    exact h
  · rw [map_append, nodup_append]
    refine ⟨h, nodup_singleton _, fun key hold key' hlast ↦ ?_⟩
    obtain ⟨group, hgroup, rfl⟩ := List.mem_map.mp hold
    rw [mem_singleton.mp hlast]
    exact fun hkey ↦ hexists ⟨group, hgroup, hkey⟩

theorem nodup_groupByFingerprint (env : VariantEnv) (accounts : List SocialAccount) :
    ((groupByFingerprint env accounts).map fst).Nodup :=
  foldl_invariant (P := fun groups : List (String × List SocialAccount) ↦ (groups.map fst).Nodup)
    (fun _ account _ h ↦ nodup_addToGroup h _ account) nodup_nil

/-- No operation upserts a variant twice. -/
theorem VariantOp.nodup_calls (env : VariantEnv) (op : VariantOp) :
    (((op.calls env).map UpsertCall.assign).map Assign.key).Nodup := by
  cases op with
  | upsert call => exact nodup_singleton _
  | transform input =>
    unfold VariantOp.calls
    dsimp only
    split_ifs
    · exact nodup_nil
    · cases input.contentJobId with
      | none => exact nodup_nil
      | some contentJobId =>
        dsimp only
        rw [List.map_map, List.map_map]
        have hsorted := ((groupByFingerprint env input.accounts).perm_insertionSort
          fun group other ↦ group.1 ≤ other.1).map fst
        have hkeys := hsorted.nodup_iff.mpr (nodup_groupByFingerprint env input.accounts)
        have hpairs := hkeys.map (Prod.mk_right_injective contentJobId)
        rw [List.map_map] at hpairs
        exact hpairs

/-- An operation is the list of its upserts. -/
theorem VariantOp.apply_eq (env : VariantEnv) (s : VariantStore) (op : VariantOp) :
    op.apply env s = (op.calls env).foldl (fun s call ↦ (s.upsertVariant call).1) s := by
  cases op with
  | upsert call => rfl
  | transform input =>
    unfold VariantOp.apply VariantOp.calls executeTransform
    dsimp only
    by_cases htext : input.canonicalText = ""
    · rw [if_pos htext, if_pos (.inl htext)]
      rfl
    · by_cases haccounts : input.accounts.isEmpty = true
      · rw [if_neg htext, if_pos haccounts, if_pos (.inr haccounts)]
        rfl
      · rw [if_neg htext, if_neg haccounts, if_neg (not_or.mpr ⟨htext, haccounts⟩)]
        cases input.contentJobId with
        | none => rfl
        | some contentJobId =>
          dsimp only
          rw [foldl_map]
          exact (foldl_hom fst fun _ _ ↦ rfl).symm

/-! ### What the classes say about publishing -/

variable {s : VariantStore} {h : VariantHistory} {contentJobId accountId : ℕ} {call : UpsertCall}

/-- The last upsert that names an account is the last write that names the member. -/
theorem isLast_assign_iff {upserts : List UpsertCall} {w : Assign (ℕ × String) (ℕ × ℕ) String} :
    IsLast (upserts.map UpsertCall.assign) (contentJobId, accountId) w ↔
      ∃ call, LastCovering upserts contentJobId accountId call ∧ call.assign = w := by
  constructor
  · rintro ⟨hin, before, after, hsplit, hlater⟩
    obtain ⟨before', rest, rfl, rfl, hrest⟩ := map_eq_append_iff.mp hsplit
    obtain ⟨call, after', rfl, rfl, rfl⟩ := map_eq_cons_iff.mp hrest
    refine ⟨call, ⟨⟨hin.1.symm, hin.2⟩, before', after', rfl, fun later hmem hand ↦ ?_⟩, rfl⟩
    exact hlater later.assign (List.mem_map_of_mem hmem) ⟨hand.1.symm, hand.2⟩
  · rintro ⟨call, ⟨⟨hjob, hin⟩, before, after, rfl, hlater⟩, rfl⟩
    refine ⟨⟨hjob.symm, hin⟩, before.map UpsertCall.assign, after.map UpsertCall.assign, ?_, fun w hw hand ↦ ?_⟩
    · rw [map_append, map_cons]
    · obtain ⟨later, hmem, rfl⟩ := List.mem_map.mp hw
      exact hlater later hmem ⟨hand.1.symm, hand.2⟩

/-- The lookup without preferred ids: the first variant of the job that targets the account. -/
theorem VariantStore.resolveForAccount_eq :
    s.resolveForAccount contentJobId accountId [] =
      ((s.listForJob contentJobId).find? fun variant ↦ accountId ∈ s.listTargets variant.id).map
        fun variant ↦ VariantStore.snapshotFromRow variant (s.listTargets variant.id) := rfl

/-- The history publishes the latest texts exactly when its classes are the latest. -/
theorem publishesLatest_iff (hsound : h.store.Sound) :
    PublishesLatest h ↔ Latest h.store.classes (h.upserts.map UpsertCall.assign) := by
  constructor
  · intro hpublishes
    refine ⟨?_, ?_⟩
    · rintro ⟨contentJobId, accountId⟩ key key' ⟨rfl, variant, hvariant, hkey, hin⟩
        ⟨hjob, other, hother, hkey', hin'⟩
      have hsame := hpublishes.one key.1 accountId variant
        (hsound.mem_listForJob_iff.mpr ⟨hvariant, (ext_iff.mp hkey).1⟩) other
        (hsound.mem_listForJob_iff.mpr ⟨hother, (ext_iff.mp hkey').1.trans hjob.symm⟩) hin hin'
      rw [← hkey, ← hkey', hsame]
    · rintro ⟨contentJobId, accountId⟩ w hlast
      obtain ⟨call, hcall, rfl⟩ := isLast_assign_iff.mp hlast
      have hresolved := hpublishes.latest contentJobId accountId call hcall
      rw [VariantStore.resolveForAccount_eq, Option.map_map] at hresolved
      obtain ⟨variant, hfind, htext⟩ := map_eq_some_iff.mp hresolved
      have hin := find?_some hfind
      obtain ⟨hvariant, hjob⟩ := hsound.mem_listForJob_iff.mp (mem_of_find?_eq_some hfind)
      exact ⟨variant.key, ⟨hjob.symm, variant, hvariant, rfl, of_decide_eq_true hin⟩,
        hsound.label_classes_iff.mpr ⟨variant, hvariant, rfl, htext⟩⟩
  · intro hlatest
    have hone : ∀ contentJobId accountId, ∀ variant ∈ h.store.listForJob contentJobId,
        ∀ other ∈ h.store.listForJob contentJobId, accountId ∈ h.store.listTargets variant.id →
          accountId ∈ h.store.listTargets other.id → variant = other := by
      intro contentJobId accountId variant hvariant other hother hin hin'
      obtain ⟨hrow, hjob⟩ := hsound.mem_listForJob_iff.mp hvariant
      obtain ⟨hrow', hjob'⟩ := hsound.mem_listForJob_iff.mp hother
      exact hsound.eq_of_key hrow hrow' (hlatest.one (contentJobId, accountId) variant.key other.key
        ⟨hjob.symm, variant, hrow, rfl, hin⟩ ⟨hjob'.symm, other, hrow', rfl, hin'⟩)
    -- the variant that targets the account, with the text of the last upsert that named it
    have htarget : ∀ contentJobId accountId call, LastCovering h.upserts contentJobId accountId call →
        ∃ variant ∈ h.store.listForJob contentJobId, accountId ∈ h.store.listTargets variant.id ∧
          variant.text = call.text := by
      intro contentJobId accountId call hcall
      obtain ⟨key, ⟨hjob, variant, hvariant, hkey, hin⟩, hlabel⟩ :=
        hlatest.latest (contentJobId, accountId) call.assign (isLast_assign_iff.mpr ⟨call, hcall, rfl⟩)
      obtain ⟨other, hother, hkey', htext⟩ := hsound.label_classes_iff.mp hlabel
      obtain rfl := hsound.eq_of_key hvariant hother (hkey.trans hkey'.symm)
      refine ⟨variant, hsound.mem_listForJob_iff.mpr ⟨hvariant, ?_⟩, hin, htext⟩
      exact (ext_iff.mp hkey).1.trans hjob.symm
    refine ⟨hone, fun contentJobId accountId call hcall ↦ ?_, fun contentJobId accountId call hcall ↦ ?_⟩
    · obtain ⟨variant, hvariant, hin, -⟩ := htarget contentJobId accountId call hcall
      exact ⟨variant, hvariant, hin⟩
    · obtain ⟨variant, hvariant, hin, htext⟩ := htarget contentJobId accountId call hcall
      rw [VariantStore.resolveForAccount_eq, Option.map_map]
      cases hfind : (h.store.listForJob contentJobId).find? fun variant ↦
          accountId ∈ h.store.listTargets variant.id with
      | none => exact absurd (decide_eq_true hin) (find?_eq_none.mp hfind variant hvariant)
      | some found =>
        have hin' := find?_some hfind
        obtain rfl := hone contentJobId accountId found (mem_of_find?_eq_some hfind) variant hvariant
          (of_decide_eq_true hin') hin
        exact congrArg some htext

/-- The condition on an operation's upserts is the condition on its writes. -/
theorem keepsTargets_iff (hsound : s.Sound) {calls : List UpsertCall} :
    KeepsTargets s calls ↔ Keeps s.classes (calls.map UpsertCall.assign) := by
  constructor
  · intro hkeeps
    refine ⟨fun w hw w' hw' member hin hin' ↦ ?_, fun w hw member hin key hold ↦ ?_, fun w hw member hold ↦ ?_⟩
    · obtain ⟨call, hcall, rfl⟩ := List.mem_map.mp hw
      obtain ⟨other, hother, rfl⟩ := List.mem_map.mp hw'
      have hjob : call.contentJobId = other.contentJobId := hin.1.symm.trans hin'.1
      exact Prod.ext hjob (hkeeps.apart call hcall other hother hjob member.2 hin.2 hin'.2)
    · obtain ⟨call, hcall, rfl⟩ := List.mem_map.mp hw
      obtain ⟨hjob, variant, hvariant, rfl, htargets⟩ := hold
      have hlisted : variant ∈ s.listForJob call.contentJobId :=
        hsound.mem_listForJob_iff.mpr ⟨hvariant, hjob.symm.trans hin.1⟩
      obtain ⟨other, hother, hjob', hfingerprint⟩ :=
        hkeeps.moved call hcall member.2 hin.2 variant hlisted htargets
      exact ⟨other.assign, List.mem_map_of_mem hother,
        Prod.ext (hjob'.trans (hin.1.symm.trans hjob)) hfingerprint⟩
    · obtain ⟨call, hcall, rfl⟩ := List.mem_map.mp hw
      obtain ⟨hjob, variant, hvariant, hkey, htargets⟩ := hold
      obtain ⟨hvariantJob, hfingerprint⟩ := ext_iff.mp hkey
      have hlisted : variant ∈ s.listForJob call.contentJobId :=
        hsound.mem_listForJob_iff.mpr ⟨hvariant, hvariantJob⟩
      obtain ⟨other, hother, hjob', hnamed⟩ :=
        hkeeps.named call hcall variant hlisted hfingerprint member.2 htargets
      exact ⟨other.assign, List.mem_map_of_mem hother, hjob.trans hjob'.symm, hnamed⟩
  · intro hkeeps
    refine ⟨fun call hcall other hother hjob accountId hin hin' ↦ ?_,
      fun call hcall accountId hin variant hlisted htargets ↦ ?_,
      fun call hcall variant hlisted hfingerprint accountId htargets ↦ ?_⟩
    · have hkey := hkeeps.apart call.assign (List.mem_map_of_mem hcall) other.assign (List.mem_map_of_mem hother)
        (call.contentJobId, accountId) ⟨rfl, hin⟩ ⟨hjob, hin'⟩
      exact (ext_iff.mp hkey).2
    · obtain ⟨hvariant, hjob⟩ := hsound.mem_listForJob_iff.mp hlisted
      obtain ⟨w, hw, hkey⟩ := hkeeps.moved call.assign (List.mem_map_of_mem hcall) (call.contentJobId, accountId)
        ⟨rfl, hin⟩ variant.key ⟨hjob.symm, variant, hvariant, rfl, htargets⟩
      obtain ⟨other, hother, rfl⟩ := List.mem_map.mp hw
      exact ⟨other, hother, (ext_iff.mp hkey).1.trans hjob, (ext_iff.mp hkey).2⟩
    · obtain ⟨hvariant, hjob⟩ := hsound.mem_listForJob_iff.mp hlisted
      obtain ⟨w, hw, hmember⟩ := hkeeps.named call.assign (List.mem_map_of_mem hcall)
        (call.contentJobId, accountId) ⟨rfl, variant, hvariant, Prod.ext hjob hfingerprint, htargets⟩
      obtain ⟨other, hother, rfl⟩ := List.mem_map.mp hw
      exact ⟨other, hother, hmember.1.symm, hmember.2⟩

/-! ### Runs -/

/-- What every history keeps: sound tables, whose targets some upsert named. -/
structure VariantHistory.Sound (h : VariantHistory) : Prop where
  store : h.store.Sound
  known : Known h.store.classes (h.upserts.map UpsertCall.assign)

theorem VariantHistory.Sound.apply (hsound : h.Sound) (env : VariantEnv) (op : VariantOp) :
    (h.apply env op).Sound ∧ (h.apply env op).store.classes =
      h.store.classes.assignAll ((op.calls env).map UpsertCall.assign) := by
  obtain ⟨hstore, hclasses⟩ := hsound.store.upsertAll (op.calls env)
  rw [← op.apply_eq env h.store] at hstore hclasses
  refine ⟨⟨hstore, ?_⟩, hclasses⟩
  have hknown := hsound.known.assignAll (op.nodup_calls env)
  rw [← hclasses, ← map_append] at hknown
  exact hknown

/-- One operation keeps the latest texts exactly when its upserts keep the targets. -/
theorem publishesLatest_apply_iff (hsound : h.Sound) (hbefore : PublishesLatest h) (op : VariantOp) :
    PublishesLatest (h.apply env op) ↔ KeepsTargets h.store (op.calls env) := by
  obtain ⟨hafter, hclasses⟩ := hsound.apply env op
  have hupserts : (h.apply env op).upserts.map UpsertCall.assign =
      h.upserts.map UpsertCall.assign ++ (op.calls env).map UpsertCall.assign := map_append
  rw [publishesLatest_iff hafter.store, keepsTargets_iff hsound.store, hclasses, hupserts]
  exact latest_assignAll_iff ((publishesLatest_iff hsound.store).mp hbefore) hsound.known (op.nodup_calls env)

theorem sound_start : VariantHistory.Sound {} where
  store := VariantStore.sound_empty
  known := by
    rintro member key ⟨-, variant, hvariant, -⟩
    simp at hvariant

theorem publishesLatest_start : PublishesLatest {} where
  one := fun _ _ _ hvariant ↦ absurd hvariant not_mem_nil
  target := fun _ _ _ hlast ↦ by
    obtain ⟨-, before, after, hsplit, -⟩ := hlast
    exact absurd hsplit.symm (append_ne_nil_of_right_ne_nil before (cons_ne_nil _ _))
  latest := fun _ _ _ hlast ↦ by
    obtain ⟨-, before, after, hsplit, -⟩ := hlast
    exact absurd hsplit.symm (append_ne_nil_of_right_ne_nil before (cons_ne_nil _ _))

/-- Every state of a run publishes the latest texts exactly when every operation of it, when its turn comes,
names no account twice, none that a variant it does not write keeps, and again every account it drops. -/
theorem latest_variants_iff (env : VariantEnv) (ops : List VariantOp) :
    (∀ before after, ops = before ++ after →
      PublishesLatest (play (VariantHistory.apply env) before {})) ↔
    Along (VariantHistory.apply env) (fun h op ↦ KeepsTargets h.store (op.calls env)) ops {} := by
  rw [← along_apply_iff ops publishesLatest_start]
  refine along_congr (fun h op (hh : h.Sound ∧ PublishesLatest h) hafter ↦ ?_) ?_ ops
    ⟨sound_start, publishesLatest_start⟩
  · obtain ⟨hsound, -⟩ := hh
    exact ⟨(hsound.apply env op).1, hafter⟩
  · rintro h op ⟨hsound, hbefore⟩
    exact publishesLatest_apply_iff hsound hbefore op

/-- An account whose settings are filled in between two transforms of a job. -/
def movedAccountRun : List VariantOp :=
  [.transform { canonicalText := "first", accounts := [{ id := 1, platform := "x" }], contentJobId := some 9 },
    .transform { canonicalText := "second", contentJobId := some 9,
                 accounts := [{ id := 1, platform := "x", settings := [("tone", .str "dry")] }] }]

/-- Texts as they are, and a digest that tells settings from no settings. -/
def plainEnv : VariantEnv where
  digest := fun value ↦ if value = .obj
    [("platform", .str "x"), ("capability_flags", .obj []), ("settings", .obj [])] then "a" else "b"
  adapt := fun input platform _ ↦ { platform := platform, text := input.canonicalText }

/-- The account is a target of both variants, and it is published with the first text. -/
theorem moved_account_keeps_old_text :
    ¬ PublishesLatest (play (VariantHistory.apply plainEnv) movedAccountRun {}) := by
  intro hpublishes
  have hlatest := hpublishes.latest 9 1
    { contentJobId := 9, fingerprint := "x:b", platform := "x", text := "second", socialAccountIds := [1] }
    ⟨⟨rfl, mem_singleton_self 1⟩,
      [{ contentJobId := 9, fingerprint := "x:a", platform := "x", text := "first", socialAccountIds := [1] }],
      [], rfl, by simp⟩
  exact absurd hlatest (by decide)

end ContentGenerator.ContentGeneration

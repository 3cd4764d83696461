import ContentGenerator.Lib.JsonDict
import ContentGenerator.Lib.PyJoin
import ContentGenerator.Lib.Uuid
import ContentGenerator.Publishing.Lifecycle

/-!
# The variant in the payload of a job

A publishing job carries the snapshot of its variant as texts in `provider_payload`: `as_provider_payload`
writes them and `snapshot_from_provider_payload` reads them back when the job is executed. What failures,
deferrals and recoveries add to the payload is under other keys (`applyWrites_carries`), so that only the two
functions decide what is published. The reader strips the text, and splits the joined tags at every comma.

`snapshot_survives_payload_iff` says which snapshots are read back as they were written.
-/

namespace ContentGenerator.Publishing

open Lib Lib.JsonObject List Option Uuid Prod
open JsonObject (getTruthy update)

/-! ### The snapshot and its payload -/

structure VariantSnapshot where
  variantId : Uuid
  contentJobId : Uuid
  fingerprint : String
  platform : String
  text : String
  title : Option String := none
  description : Option String := none
  tags : List String := []
  mediaRefs : List JsonObject := []
  socialAccountIds : List Uuid := []

def VariantSnapshot.asProviderPayload (s : VariantSnapshot) : JsonObject :=
  textPayload
    [("content_variant_id", s.variantId.text), ("variant_fingerprint", s.fingerprint),
      ("variant_platform", s.platform), ("variant_text", s.text), ("variant_title", s.title.getD ""),
      ("variant_description", s.description.getD ""), ("variant_tags", pyJoin ',' s.tags),
      ("variant_source", "content_variant")]

/-- `str(raw.get(key) or "")`. -/
def payloadText (render : Json → String) (payload : JsonObject) (key : String) : String :=
  match getTruthy payload key with
  | some value => value.text render
  | none => ""

/-- `UUID(int=0)`. -/
def nilUuid : Uuid := repeated 0

def snapshotFromProviderPayload (render : Json → String) (parseUuid : String → Option Uuid)
    (payload : JsonObject) : Option VariantSnapshot :=
  let read := payloadText render payload
  let text := pyStrip (read "variant_text")
  if read "variant_source" ≠ "content_variant" then none
  else if (getTruthy payload "content_variant_id").isNone ∨ text = "" then none
  else
    (parseUuid (read "content_variant_id")).map fun variantId ↦
      { variantId := variantId
        contentJobId := nilUuid
        fingerprint := read "variant_fingerprint"
        platform := read "variant_platform"
        text := text
        title := (some (read "variant_title")).filter (· ≠ "")
        description := (some (read "variant_description")).filter (· ≠ "")
        tags := (pySplit ',' (read "variant_tags")).filter (· ≠ "") }

/-- The snapshots agree on what is published; no title is the same as an empty one. -/
structure VariantSnapshot.Agrees (read s : VariantSnapshot) : Prop where
  variantId : read.variantId = s.variantId
  fingerprint : read.fingerprint = s.fingerprint
  platform : read.platform = s.platform
  text : read.text = s.text
  title : read.title.getD "" = s.title.getD ""
  description : read.description.getD "" = s.description.getD ""
  tags : read.tags = s.tags

/-! ### What the services add to the payload -/

/-- A write to the job that finds the payload of an earlier one: the failure of an attempt, a deferral, a
recovery after a lease has run out, or an action of an operator. -/
inductive Bookkeeping
  | finalizeFailure (now : Time) (exc : String) (errorClass : PublishErrorClass) (attempt : PublishingAttempt)
  | deferRateLimit (now : Time) (retryAfterSeconds : ℕ)
  | recover (now : Time) (latest : Option PublishingAttempt)
  | cancel
  | retry

def Bookkeeping.apply (env : PublishingEnv) (job : PublishingJob) : Bookkeeping → PublishingJob
  | .finalizeFailure now exc errorClass attempt => job.finalizeFailure env now exc errorClass attempt
  | .deferRateLimit now retryAfterSeconds => job.deferRateLimit env now retryAfterSeconds
  | .recover now latest => job.recover env now latest
  | .cancel => job.cancel
  | .retry => job.retry

def applyWrites (env : PublishingEnv) (writes : List Bookkeeping) (job : PublishingJob) : PublishingJob :=
  writes.foldl (Bookkeeping.apply env) job

def bookkeepingKeys : List String :=
  ["recovery_actions", "stale_claim_recovery", "recovered_at", "account_rate_limited", "social_account_id",
    "retry_after_seconds", "next_retry_at", "error_class", "attempt_key", "dead_letter", "backoff_minutes",
    "retried_by_operator"]

/-- A write only adds keys of bookkeeping. -/
theorem Bookkeeping.providerPayload_apply (env : PublishingEnv) (write : Bookkeeping) (job : PublishingJob) :
    ∃ fields, (write.apply env job).providerPayload = job.providerPayload.update (textPayload fields) ∧
      fields.map fst ⊆ bookkeepingKeys := by
  cases write with
  | finalizeFailure now exc errorClass attempt =>
    change ∃ fields, (job.finalizeFailure env now exc errorClass attempt).providerPayload = _ ∧ _
    unfold PublishingJob.finalizeFailure
    dsimp only
    split
    · exact ⟨_, rfl, by simp [bookkeepingKeys]⟩
    · exact ⟨_, rfl, by simp [bookkeepingKeys]⟩
    · exact ⟨_, rfl, by simp [bookkeepingKeys]⟩
  | deferRateLimit now retryAfterSeconds => exact ⟨_, rfl, by simp [bookkeepingKeys]⟩
  | recover now latest =>
    change ∃ fields, (job.recover env now latest).providerPayload = _ ∧ _
    unfold PublishingJob.recover
    split
    · exact ⟨_, rfl, by simp [bookkeepingKeys]⟩
    · exact ⟨_, rfl, by simp [bookkeepingKeys]⟩
    · exact ⟨_, rfl, by simp [bookkeepingKeys]⟩
  | cancel | retry => exact ⟨_, rfl, by simp [bookkeepingKeys]⟩

def snapshotKeys : List String :=
  ["content_variant_id", "variant_fingerprint", "variant_platform", "variant_text", "variant_title",
    "variant_description", "variant_tags", "variant_source"]

theorem map_fst_textPayload (fields : List (String × String)) :
    (textPayload fields).map fst = fields.map fst := by
  unfold textPayload
  rw [List.map_map]
  rfl

theorem map_fst_asProviderPayload (s : VariantSnapshot) : s.asProviderPayload.map fst = snapshotKeys :=
  map_fst_textPayload _

theorem snapshotKeys_disjoint : ∀ key ∈ snapshotKeys, key ∉ bookkeepingKeys := by
  decide

def Carries (payload : JsonObject) (s : VariantSnapshot) : Prop :=
  ∀ field ∈ s.asProviderPayload, Holds payload field.1 field.2

theorem carries_asProviderPayload (s : VariantSnapshot) : Carries s.asProviderPayload s := by
  have hkeys : (s.asProviderPayload.map fst).Nodup := by
    rw [map_fst_asProviderPayload]
    decide
  intro field hfield
  refine ⟨⟨field, hfield, rfl⟩, fun other hother hkey ↦ ?_⟩
  rw [inj_on_of_nodup_map hkeys hother hfield hkey]

/-- A payload updated with the texts of a snapshot holds them. -/
theorem carries_update (initial : JsonObject) (s : VariantSnapshot) :
    Carries (initial.update s.asProviderPayload) s :=
  fun field hfield ↦ (carries_asProviderPayload s field hfield).update_patch initial

/-- What a write adds is under other keys. -/
theorem Carries.apply {job : PublishingJob} {s : VariantSnapshot} (h : Carries job.providerPayload s)
    (env : PublishingEnv) (write : Bookkeeping) : Carries (write.apply env job).providerPayload s := by
  obtain ⟨fields, hpayload, hkeys⟩ := write.providerPayload_apply env job
  rw [hpayload]
  intro field hfield
  refine (h field hfield).update (get_eq_none_iff.mpr fun other hother hkey ↦ ?_)
  have hsnapshot : field.1 ∈ snapshotKeys := map_fst_asProviderPayload s ▸ List.mem_map_of_mem hfield
  have hwritten : other.1 ∈ bookkeepingKeys := hkeys (map_fst_textPayload fields ▸ List.mem_map_of_mem hother)
  exact snapshotKeys_disjoint field.1 hsnapshot (hkey ▸ hwritten)

theorem applyWrites_carries {job : PublishingJob} {s : VariantSnapshot} (h : Carries job.providerPayload s)
    (env : PublishingEnv) (writes : List Bookkeeping) : Carries (applyWrites env writes job).providerPayload s := by
  unfold applyWrites
  induction writes generalizing job with
  | nil => exact h
  | cons write rest ih => exact ih (h.apply env write)

/-! ### What is read back -/

variable {render : Json → String} {parseUuid : String → Option Uuid} {payload : JsonObject}
  {s : VariantSnapshot}

/-- A text that the payload holds is read back, an empty one like a missing one. -/
theorem payloadText_of_holds {key value : String} (h : Holds payload key (.str value)) :
    payloadText render payload key = value := by
  unfold payloadText getTruthy
  rw [h.get]
  by_cases hempty : value = ""
  · rw [hempty]
    rfl
  · have htruthy : Option.filter Json.truthy (some (Json.str value)) = some (.str value) :=
      filter_eq_some_iff.mpr ⟨rfl, decide_eq_true hempty⟩
    rw [htruthy]
    rfl

def readTags (tags : List String) : List String := (pySplit ',' (pyJoin ',' tags)).filter (· ≠ "")

/-- Tags survive when none is empty or holds a comma, and only then. -/
theorem readTags_eq_iff (tags : List String) :
    readTags tags = tags ↔ ∀ tag ∈ tags, tag ≠ "" ∧ ',' ∉ tag.toList := by
  constructor
  · intro h tag htag
    rw [← h] at htag
    obtain ⟨hpart, hnonempty⟩ := mem_filter.mp htag
    exact ⟨of_decide_eq_true hnonempty, notMem_of_mem_pySplit hpart⟩
  · intro h
    unfold readTags
    rcases eq_nil_or_concat tags with rfl | ⟨before, last, rfl⟩
    · rfl
    · rw [pySplit_pyJoin (fun tag htag ↦ (h tag htag).2) (by simp)]
      exact filter_eq_self.mpr fun tag htag ↦ decide_eq_true (h tag htag).1

theorem snapshotFromProviderPayload_of_carries (hparse : ∀ id : Uuid, parseUuid id.text = some id)
    (htext : pyStrip s.text ≠ "") (h : Carries payload s) :
    snapshotFromProviderPayload render parseUuid payload =
      some
        { variantId := s.variantId
          contentJobId := nilUuid
          fingerprint := s.fingerprint
          platform := s.platform
          text := pyStrip s.text
          title := (some (s.title.getD "")).filter (· ≠ "")
          description := (some (s.description.getD "")).filter (· ≠ "")
          tags := readTags s.tags } := by
  have hread : ∀ key value, (key, Json.str value) ∈ s.asProviderPayload →
      payloadText render payload key = value := fun key value hfield ↦ payloadText_of_holds (h _ hfield)
  have hid : (getTruthy payload "content_variant_id").isNone = false := by
    have hholds : Holds payload "content_variant_id" (.str s.variantId.text) := h _ mem_cons_self
    unfold getTruthy
    rw [hholds.get]
    have htruthy : Json.truthy (.str s.variantId.text) = true := by
      refine decide_eq_true fun hempty ↦ ?_
      have hlength := congrArg String.length hempty
      rw [length_text] at hlength
      exact absurd hlength (by decide)
    rw [filter_some, if_pos htruthy]
    rfl
  unfold snapshotFromProviderPayload
  dsimp only
  rw [hread "variant_source" "content_variant" (by simp [VariantSnapshot.asProviderPayload, textPayload]),
    hread "variant_text" s.text (by simp [VariantSnapshot.asProviderPayload, textPayload]),
    hread "content_variant_id" s.variantId.text (by simp [VariantSnapshot.asProviderPayload, textPayload]),
    hread "variant_fingerprint" s.fingerprint (by simp [VariantSnapshot.asProviderPayload, textPayload]),
    hread "variant_platform" s.platform (by simp [VariantSnapshot.asProviderPayload, textPayload]),
    hread "variant_title" (s.title.getD "") (by simp [VariantSnapshot.asProviderPayload, textPayload]),
    hread "variant_description" (s.description.getD "")
      (by simp [VariantSnapshot.asProviderPayload, textPayload]),
    hread "variant_tags" (pyJoin ',' s.tags) (by simp [VariantSnapshot.asProviderPayload, textPayload]),
    hparse, if_neg (by simp), if_neg (by simp [hid, htext])]
  rfl

/-- Which snapshots with a text are read back as they were written, whatever the job has been through: those
whose text has no blank at its ends and whose tags are neither empty nor hold a comma. Assumes: `UUID` reads
the text of a UUID. -/
theorem snapshot_survives_payload_iff (hparse : ∀ id : Uuid, parseUuid id.text = some id)
    (render : Json → String) (env : PublishingEnv) (s : VariantSnapshot) (htext : pyStrip s.text ≠ "")
    (initial : JsonObject) (job : PublishingJob)
    (hjob : job.providerPayload = initial.update s.asProviderPayload) (writes : List Bookkeeping) :
    (∃ read, snapshotFromProviderPayload render parseUuid (applyWrites env writes job).providerPayload =
        some read ∧ read.Agrees s) ↔
      pyStrip s.text = s.text ∧ ∀ tag ∈ s.tags, tag ≠ "" ∧ ',' ∉ tag.toList := by
  have hcarries : Carries (applyWrites env writes job).providerPayload s :=
    applyWrites_carries (hjob ▸ carries_update initial s) env writes
  have hempty : ∀ value : Option String,
      ((some (value.getD "")).filter (· ≠ "")).getD "" = value.getD "" := by
    intro value
    by_cases hvalue : value.getD "" = ""
    · rw [hvalue]
      rfl
    · rw [filter_some, if_pos (decide_eq_true hvalue)]
      rfl
  rw [snapshotFromProviderPayload_of_carries hparse htext hcarries, ← readTags_eq_iff]
  constructor
  · rintro ⟨read, hread, hagrees⟩
    rw [← Option.some.inj hread] at hagrees
    exact ⟨hagrees.text, hagrees.tags⟩
  · rintro ⟨hstripped, htags⟩
    exact ⟨_, rfl, rfl, rfl, rfl, hstripped, hempty _, hempty _, htags⟩

def channelSnapshot (text : String) (tags : List String) : VariantSnapshot :=
  { variantId := nilUuid, contentJobId := nilUuid, fingerprint := "x:1f", platform := "x", text := text,
    tags := tags }

def snapshotJob (s : VariantSnapshot) : PublishingJob :=
  { contentJobId := "content", socialAccountId := some "account", platform := "x", idempotencyKey := "key",
    providerPayload := update [] s.asProviderPayload }

/-- Times without a text. -/
def silentEnv : PublishingEnv where
  isoFormat _ := ""

/-- A snapshot that survives a deferral. -/
theorem deferred_snapshot_is_read_back :
    ∃ read, snapshotFromProviderPayload (fun _ ↦ "") ofText
        (applyWrites silentEnv [.deferRateLimit 0 60]
          (snapshotJob (channelSnapshot "Mate in two" ["chess", "endgame"]))).providerPayload =
        some read ∧ read.Agrees (channelSnapshot "Mate in two" ["chess", "endgame"]) :=
  (snapshot_survives_payload_iff ofText_text (fun _ ↦ "") silentEnv
    (channelSnapshot "Mate in two" ["chess", "endgame"]) (by decide) [] _ rfl [.deferRateLimit 0 60]).mpr
    (by decide)

/-- A tag with a comma is read back as two tags. -/
theorem tag_with_comma_is_split :
    ((snapshotFromProviderPayload (fun _ ↦ "") ofText
        (channelSnapshot "Mate in two" ["e4, e5"]).asProviderPayload).map VariantSnapshot.tags) =
      some ["e4", " e5"] ∧
    ¬ ∃ read, snapshotFromProviderPayload (fun _ ↦ "") ofText
        (channelSnapshot "Mate in two" ["e4, e5"]).asProviderPayload = some read ∧
      read.Agrees (channelSnapshot "Mate in two" ["e4, e5"]) := by
  have htags : (snapshotFromProviderPayload (fun _ ↦ "") ofText
      (channelSnapshot "Mate in two" ["e4, e5"]).asProviderPayload).map VariantSnapshot.tags =
        some ["e4", " e5"] := by
    rw [snapshotFromProviderPayload_of_carries ofText_text (by decide +kernel)
      (carries_asProviderPayload _), map_some]
    exact congrArg some (show readTags ["e4, e5"] = ["e4", " e5"] by decide +kernel)
  refine ⟨htags, ?_⟩
  rintro ⟨read, hread, hagrees⟩
  rw [hread, map_some, hagrees.tags] at htags
  exact absurd htags (by decide)

end ContentGenerator.Publishing

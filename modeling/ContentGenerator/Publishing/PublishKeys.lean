import ContentGenerator.Lib.Uuid
import ContentGenerator.Publishing.Models
import ContentGenerator.Workflows.Execute

/-!
# The keys of a publication and their length

A publish node hands its execution key on as the client key of the publication
(`apply_side_effect_idempotency`), `build_publish_idempotency_key` appends the account and the variant, and
every attempt appends its number. Each of these keys has a column of 255 characters. Their lengths are sums
of the lengths of the parts (`length_buildExecutionKey` and the lemmas after it), and
`derived_keys_fit_iff` says which node ids, versions and iteration keys leave room for all of them.
-/

namespace ContentGenerator.Publishing

open Lib Workflows String Uuid

def buildPublishIdempotencyKey (isoFormat : Time → String) (contentJobId socialAccountId : Uuid)
    (scheduledFor : Option Time) (dryRun : Bool) (intent : String) (clientKey : Option String)
    (contentVariantId : Option Uuid) : String :=
  match clientKey.filter (· ≠ "") with
  | some key =>
    match contentVariantId with
    | some variant => key ++ ":" ++ socialAccountId.text ++ ":" ++ variant.text
    | none => key ++ ":" ++ socialAccountId.text
  | none =>
    ":".intercalate
      ([contentJobId.text, socialAccountId.text] ++ (contentVariantId.map text).toList ++
        [(scheduledFor.map isoFormat).getD "immediate", intent, if dryRun then "dry" else "live"])

/-- The columns of the keys: `String(255)`. -/
def keyColumn : ℕ := 255

/-- The largest number that an `Integer` column holds. -/
def largestInteger : ℕ := 2147483647

/-! ### Lengths of the parts -/

def iterationLength (iterationKey : String) : ℕ := if iterationKey = "" then 0 else 1 + iterationKey.length

/-- The length of what the variant adds to the key of a publication. -/
def variantLength (contentVariantId : Option Uuid) : ℕ := if contentVariantId.isSome then 37 else 0

theorem length_colon : ":".length = 1 := rfl

theorem length_buildExecutionKey (runId : Uuid) (nodeId : String) (nodeVersion : ℕ) (iterationKey : String) :
    (buildExecutionKey runId.text nodeId nodeVersion iterationKey).length =
      39 + nodeId.length + (toString nodeVersion).length + iterationLength iterationKey := by
  have hversion : ":v".length = 2 := rfl
  have hbase : s!"{runId.text}:{nodeId}:v{nodeVersion}".length =
      39 + nodeId.length + (toString nodeVersion).length := by
    change (runId.text ++ ":" ++ nodeId ++ ":v" ++ toString nodeVersion).length = _
    simp only [length_append, length_text, length_colon, hversion]
    omega
  unfold buildExecutionKey iterationLength
  dsimp only
  split_ifs
  · rw [hbase, Nat.add_zero]
  · change (s!"{runId.text}:{nodeId}:v{nodeVersion}" ++ ":" ++ iterationKey).length = _
    rw [length_append, length_append, hbase, length_colon]
    omega

/-- The key of the publication that a client key leads to. -/
theorem length_buildPublishIdempotencyKey (isoFormat : Time → String) (contentJobId socialAccountId : Uuid)
    (scheduledFor : Option Time) (dryRun : Bool) (intent : String) {clientKey : String}
    (hclient : clientKey ≠ "") (contentVariantId : Option Uuid) :
    (buildPublishIdempotencyKey isoFormat contentJobId socialAccountId scheduledFor dryRun intent
        (some clientKey) contentVariantId).length =
      clientKey.length + 37 + variantLength contentVariantId := by
  unfold buildPublishIdempotencyKey variantLength
  rw [Option.filter_some, if_pos (decide_eq_true hclient)]
  cases contentVariantId with
  | none =>
    simp only [length_append, length_text, length_colon]
    rfl
  | some variant =>
    simp only [length_append, length_text, length_colon, Option.isSome_some, if_true]

theorem length_buildAttemptKey (job : PublishingJob) (attemptNumber : ℕ) :
    (buildAttemptKey job attemptNumber).length =
      job.idempotencyKey.length + 9 + (toString attemptNumber).length := by
  have hattempt : ":attempt:".length = 9 := rfl
  unfold buildAttemptKey
  rw [length_append, length_append, hattempt]

/-- A number of an `Integer` column has at most ten digits. -/
theorem length_toString_le {n : ℕ} (h : n ≤ largestInteger) : (toString n).length ≤ 10 := by
  rw [Nat.toString_eq_ofList_toDigits, length_ofList, Nat.length_toDigits_le_iff (by decide) (by decide)]
  exact lt_of_le_of_lt h (by decide)

theorem length_toString_largestInteger : (toString largestInteger).length = 10 := by
  decide +kernel

theorem buildExecutionKey_ne_empty (runId : Uuid) (nodeId : String) (nodeVersion : ℕ) (iterationKey : String) :
    buildExecutionKey runId.text nodeId nodeVersion iterationKey ≠ "" := by
  intro hempty
  have hlength := length_buildExecutionKey runId nodeId nodeVersion iterationKey
  rw [hempty, length_empty] at hlength
  omega

/-- An execution key is long enough to be the client key of a publication as it is. -/
theorem applySideEffectIdempotency_executionKey (runId : Uuid) (nodeId : String) (nodeVersion : ℕ)
    (iterationKey : String) {inputs : JsonObject} (h : inputs.getTruthy "idempotency_key" = none) :
    applySideEffectIdempotency "publish" inputs
        (buildExecutionKey runId.text nodeId nodeVersion iterationKey) =
      inputs.set "idempotency_key"
        (.str (buildExecutionKey runId.text nodeId nodeVersion iterationKey)) := by
  have hlong : 8 ≤ (buildExecutionKey runId.text nodeId nodeVersion iterationKey).length := by
    rw [length_buildExecutionKey]
    omega
  unfold applySideEffectIdempotency
  rw [if_pos ⟨rfl, buildExecutionKey_ne_empty runId nodeId nodeVersion iterationKey, by rw [h]; rfl⟩,
    if_pos hlong]

/-! ### Which keys fit -/

/-- The keys that one row leads to fit their columns: its execution key, the key of the publication to the
account, and the keys of all attempts at it. -/
structure KeysFit (executionKey publishKey : String) : Prop where
  execution : executionKey.length ≤ keyColumn
  publish : publishKey.length ≤ keyColumn
  attempts : ∀ job : PublishingJob, job.idempotencyKey = publishKey → ∀ attemptNumber ≤ largestInteger,
    (buildAttemptKey job attemptNumber).length ≤ keyColumn

/-- The keys of all attempts fit when the one of the attempt with the largest number does. -/
theorem attempts_fit_iff (publishKey : String) :
    (∀ job : PublishingJob, job.idempotencyKey = publishKey → ∀ attemptNumber ≤ largestInteger,
        (buildAttemptKey job attemptNumber).length ≤ keyColumn) ↔ publishKey.length + 19 ≤ keyColumn := by
  constructor
  · intro hfit
    have hlast := hfit
      { contentJobId := "", socialAccountId := none, platform := "", idempotencyKey := publishKey } rfl
      largestInteger le_rfl
    rwa [length_buildAttemptKey, length_toString_largestInteger] at hlast
  · intro hroom job hjob attemptNumber hnumber
    have hdigits := length_toString_le hnumber
    rw [length_buildAttemptKey, hjob]
    omega

/-- When the keys of a row fit: the execution key, the key of the publication, and all keys together with
those of the attempts. The room is for the node id, the digits of the node version, the iteration key with
its colon, and the variant with its colon. -/
theorem derived_keys_fit_iff (isoFormat : Time → String) (runId contentJobId socialAccountId : Uuid)
    (nodeId : String) (nodeVersion : ℕ) (iterationKey : String) (scheduledFor : Option Time) (dryRun : Bool)
    (contentVariantId : Option Uuid) :
    ((buildExecutionKey runId.text nodeId nodeVersion iterationKey).length ≤ keyColumn ↔
        nodeId.length + (toString nodeVersion).length + iterationLength iterationKey ≤ 216) ∧
      ((buildPublishIdempotencyKey isoFormat contentJobId socialAccountId scheduledFor dryRun "publish"
          (some (buildExecutionKey runId.text nodeId nodeVersion iterationKey)) contentVariantId).length ≤
            keyColumn ↔
        nodeId.length + (toString nodeVersion).length + iterationLength iterationKey +
          variantLength contentVariantId ≤ 179) ∧
      (KeysFit (buildExecutionKey runId.text nodeId nodeVersion iterationKey)
          (buildPublishIdempotencyKey isoFormat contentJobId socialAccountId scheduledFor dryRun "publish"
            (some (buildExecutionKey runId.text nodeId nodeVersion iterationKey)) contentVariantId) ↔
        nodeId.length + (toString nodeVersion).length + iterationLength iterationKey +
          variantLength contentVariantId ≤ 160) := by
  have hexecution := length_buildExecutionKey runId nodeId nodeVersion iterationKey
  have hpublish := length_buildPublishIdempotencyKey isoFormat contentJobId socialAccountId scheduledFor dryRun
    "publish" (buildExecutionKey_ne_empty runId nodeId nodeVersion iterationKey) contentVariantId
  have hcolumn : keyColumn = 255 := rfl
  refine ⟨by omega, by omega, fun hfit ↦ ?_, fun hroom ↦ ⟨by omega, by omega, ?_⟩⟩
  · have hattempts := (attempts_fit_iff _).mp hfit.attempts
    omega
  · refine (attempts_fit_iff _).mpr ?_
    omega

/-- A node id and an iteration key of 128 characters each, which their columns admit, make an execution key
that its column does not. -/
theorem longest_ids_overflow :
    (ofList (List.replicate 128 'n')).length = 128 ∧
      ¬ (buildExecutionKey (repeated 7).text (ofList (List.replicate 128 'n')) 1
        (ofList (List.replicate 128 'n'))).length ≤ keyColumn := by
  have hlength : (ofList (List.replicate 128 'n')).length = 128 := by
    rw [length_ofList, List.length_replicate]
  refine ⟨hlength, fun hfits ↦ ?_⟩
  have hiteration : iterationLength (ofList (List.replicate 128 'n')) = 129 := by
    unfold iterationLength
    rw [hlength, if_neg]
    intro hempty
    rw [hempty] at hlength
    exact absurd hlength (by decide)
  rw [length_buildExecutionKey, hlength, hiteration] at hfits
  exact absurd hfits (by decide)

end ContentGenerator.Publishing
